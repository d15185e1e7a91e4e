import OneProxy.Util.StringBufLaws

/-! `protocol_front` and `protocol_backend`: the registered handlers inspect a received packet. -/

namespace OneProxy

open Memory

/-- `ProtocolHandleRetVal`. -/
inductive ProtocolHandleRetVal
  | error
  | success
  | sendDirect
  | sendToClient
  | sendToServer
  | failedCloseConn
  | normalCloseConn
  deriving DecidableEq

/-- The packet that is inspected, the client's unsent data, and all else that a handler can see. -/
structure Inspection (σ : Type) where
  packet : StringBuf
  sendData : StringBuf
  rest : σ

/--
What a protocol class brings along.

A handler may fail to return. The hooks before and after the handlers see the buffers as they are,
and leave them alone as their defaults do.
-/
structure ProtocolHooks (σ : Type) where
  /-- `stat_readFrontData` or `stat_readBackendData`. -/
  statReadData : Inspection σ → σ
  /-- `prehandle_frontPacket` or `prehandle_backendPacket`. -/
  prehandlePacket : Inspection σ → ProtocolHandleRetVal × σ
  /-- `get_packetType`. -/
  getPacketType : StringBuf → Int
  /-- `frontHandleFunc` or `backendHandleFunc`. -/
  handleFunc : Int → Option (Inspection σ → Option (ProtocolHandleRetVal × Inspection σ))
  /-- `protocol_endFrontStatPacket` or `protocol_endBackendStatPacket`. -/
  endStatPacket : Inspection σ → σ

namespace ProtocolHooks

variable {σ : Type}

/--
The loop over a packet: handlers are called until one of them does not succeed, or there is none for
the type, or the packet is used up.

What is done with the packet when a handler has returned, and what an unknown type results in,
differ between the two directions.
-/
def handleLoop (p : ProtocolHooks σ)
    (handled : ProtocolHandleRetVal → Inspection σ → Option (Inspection σ))
    (unknown : ProtocolHandleRetVal → ProtocolHandleRetVal) :
    Nat → ProtocolHandleRetVal → Inspection σ → Option (ProtocolHandleRetVal × Inspection σ)
  | 0, _, _ => none
  | fuel + 1, resultValue, s =>
    if s.packet.offset < s.packet.length then
      match p.handleFunc (p.getPacketType s.packet) with
      | some func => do
        let (resultValue, s) ← func s
        let s ← handled resultValue s
        if resultValue ≠ .success then some (resultValue, s)
        else p.handleLoop handled unknown fuel resultValue s
      | none => some (unknown resultValue, s)
    else some (resultValue, s)

end ProtocolHooks

variable {σ : Type}

/-- What a handler wants sent to the client is appended there, and nothing is kept of the packet. -/
def sendToClient (m : Allocator UInt8) (resultValue : ProtocolHandleRetVal)
    (s : Inspection σ) : Option (Inspection σ) :=
  if resultValue = .sendToClient then do
    let remaining ← s.packet.buf.read s.packet.offset.toNat s.packet.remailLength.toNat
    let sendData ← s.sendData.append m remaining
    -- Both clears are of the one buffer that `bufPointer` points to.
    some { s with packet := (s.packet.clear m).clear m, sendData := sendData }
  else some s

/-- `protocol_front`. -/
def protocolFront (m : Allocator UInt8) (useMonitor : Bool) (p : ProtocolHooks σ) (fuel : Nat)
    (s : Inspection σ) : Option (ProtocolHandleRetVal × Inspection σ) := do
  let oldOffset := s.packet.offset
  let s := { s with rest := p.statReadData s }
  let (resultValue, rest) := p.prehandlePacket s
  let s := { s with rest := rest }
  let (resultValue, s) ←
    if resultValue ≠ .success then some (resultValue, s)
    else do
      let (resultValue, s) ← p.handleLoop (sendToClient m) id fuel resultValue s
      some (resultValue, { s with rest := p.endStatPacket s })
  -- when clear, the oldOffset maybe bigger than length.
  let packet := if s.packet.length > oldOffset then s.packet.setOffset oldOffset else s.packet
  let packet := if useMonitor then packet.clear m else packet
  some (resultValue, { s with packet := packet })

/-- `protocol_backend`: a packet of unknown type is an error, and the offset is always restored. -/
def protocolBackend (m : Allocator UInt8) (useMonitor : Bool) (p : ProtocolHooks σ) (fuel : Nat)
    (s : Inspection σ) : Option (ProtocolHandleRetVal × Inspection σ) := do
  let oldOffset := s.packet.offset
  let s := { s with rest := p.statReadData s }
  let (resultValue, rest) := p.prehandlePacket s
  let s := { s with rest := rest }
  let (resultValue, s) ←
    if resultValue ≠ .success then some (resultValue, s)
    else do
      let (resultValue, s) ← p.handleLoop (fun _ s => some s) (fun _ => .error) fuel resultValue s
      some (resultValue, { s with rest := p.endStatPacket s })
  let packet := s.packet.setOffset oldOffset
  let packet := if useMonitor then packet.clear m else packet
  some (resultValue, { s with packet := packet })

/-! ## What the handlers leave of the packet -/

/-- The two buffers describe their blocks. -/
def Inspection.WellFormed (s : Inspection σ) : Prop :=
  s.packet.WellFormed ∧ s.sendData.WellFormed

/-- Handlers that only move the packet's offset, inside the packet. -/
def ProtocolHooks.OnlyMoves (p : ProtocolHooks σ) : Prop :=
  ∀ type func, p.handleFunc type = some func → ∀ s resultValue s', s.WellFormed →
    func s = some (resultValue, s') → s'.WellFormed ∧ s'.packet.bytes = s.packet.bytes

namespace ProtocolHooks

variable {p : ProtocolHooks σ}
  {handled : ProtocolHandleRetVal → Inspection σ → Option (Inspection σ)}
  {unknown : ProtocolHandleRetVal → ProtocolHandleRetVal}

/-- How a loop ends: with a handler that does not succeed, or else with the packet's own bytes. -/
inductive Ends (p : ProtocolHooks σ)
    (handled : ProtocolHandleRetVal → Inspection σ → Option (Inspection σ))
    (unknown : ProtocolHandleRetVal → ProtocolHandleRetVal) (bytes : Bytes) :
    ProtocolHandleRetVal → Inspection σ → Prop
  | stopped {type : Int} {func : Inspection σ → Option (ProtocolHandleRetVal × Inspection σ)}
      {s last s' : Inspection σ} {resultValue : ProtocolHandleRetVal} :
      p.handleFunc type = some func → s.packet.bytes = bytes → func s = some (resultValue, last) →
      last.WellFormed → last.packet.bytes = bytes → resultValue ≠ .success →
      handled resultValue last = some s' → Ends p handled unknown bytes resultValue s'
  | passed {s : Inspection σ} {resultValue : ProtocolHandleRetVal} :
      s.WellFormed → s.packet.bytes = bytes →
      resultValue = .success ∨ resultValue = unknown .success →
      Ends p handled unknown bytes resultValue s

/-- Handlers that only move the offset get the packet's own bytes, all through the loop. -/
theorem handleLoop_ends (onlyMoves : p.OnlyMoves)
    (goesOn : ∀ s, handled .success s = some s) {fuel : Nat} {s s' : Inspection σ}
    {resultValue : ProtocolHandleRetVal} (wf : s.WellFormed)
    (done : p.handleLoop handled unknown fuel .success s = some (resultValue, s')) :
    Ends p handled unknown s.packet.bytes resultValue s' := by
  induction fuel generalizing s with
  | zero => simp [handleLoop] at done
  | succ fuel ih =>
    simp only [handleLoop] at done
    split at done
    · split at done
      · next func found =>
        simp only [Option.bind_eq_bind, Option.bind_eq_some_iff] at done
        obtain ⟨⟨next, last⟩, called, s₁, after, done⟩ := done
        obtain ⟨wf', same⟩ := onlyMoves _ _ found _ _ _ wf called
        split at done
        · next stops =>
          obtain ⟨rfl, rfl⟩ := Prod.mk.inj (Option.some.inj done)
          exact .stopped found rfl called wf' same stops after
        · next again =>
          -- The loop goes on with the packet that the handler left.
          obtain rfl : next = .success := not_not.mp again
          obtain rfl := Option.some.inj ((goesOn last).symm.trans after)
          exact same ▸ ih wf' done
      · obtain ⟨rfl, rfl⟩ := Prod.mk.inj (Option.some.inj done)
        exact .passed wf rfl (Or.inr rfl)
    · obtain ⟨rfl, rfl⟩ := Prod.mk.inj (Option.some.inj done)
      exact .passed wf rfl (Or.inl rfl)

/-- A packet that is used up already is not looked at. -/
theorem handleLoop_of_used {fuel : Nat} {s s' : Inspection σ} {resultValue : ProtocolHandleRetVal}
    (used : ¬ s.packet.offset < s.packet.length)
    (done : p.handleLoop handled unknown fuel .success s = some (resultValue, s')) :
    resultValue = .success ∧ s' = s := by
  cases fuel with
  | zero => simp [handleLoop] at done
  | succ fuel =>
    simp only [handleLoop, if_neg used, Option.some.injEq, Prod.mk.injEq] at done
    exact ⟨done.1.symm, done.2.symm⟩

end ProtocolHooks

/-! ## What the handlers change of all else -/

section Rest

variable {p : ProtocolHooks σ} {R : σ → σ → Prop}

/-- What the handlers change of all else is related step by step. -/
theorem handleLoop_rest {handled : ProtocolHandleRetVal → Inspection σ → Option (Inspection σ)}
    {unknown : ProtocolHandleRetVal → ProtocolHandleRetVal} (refl : ∀ a, R a a)
    (trans : ∀ a b c, R a b → R b c → R a c)
    (handles : ∀ type func, p.handleFunc type = some func → ∀ s resultValue s',
      func s = some (resultValue, s') → R s.rest s'.rest)
    (passes : ∀ resultValue s s', handled resultValue s = some s' → s'.rest = s.rest) {fuel : Nat}
    {s s' : Inspection σ} {resultValue resultValue' : ProtocolHandleRetVal}
    (done : p.handleLoop handled unknown fuel resultValue s = some (resultValue', s')) :
    R s.rest s'.rest := by
  -- The induction is on the fuel; a round is a handler's call and what is done with its value.
  induction fuel generalizing s resultValue with
  | zero => simp [ProtocolHooks.handleLoop] at done
  | succ fuel ih =>
    simp only [ProtocolHooks.handleLoop] at done
    split at done
    · split at done
      · next func found =>
        simp only [Option.bind_eq_bind, Option.bind_eq_some_iff] at done
        obtain ⟨⟨next, last⟩, called, s₁, after, done⟩ := done
        have first := handles _ _ found _ _ _ called
        rw [← passes _ _ _ after] at first
        split at done
        · obtain ⟨_, rfl⟩ := Prod.mk.inj (Option.some.inj done)
          exact first
        · exact trans _ _ _ first (ih done)
      · obtain ⟨_, rfl⟩ := Prod.mk.inj (Option.some.inj done)
        exact refl _
    · obtain ⟨_, rfl⟩ := Prod.mk.inj (Option.some.inj done)
      exact refl _

/-- Sending to the client is about the buffers alone. -/
theorem sendToClient_rest {m : Allocator UInt8} {resultValue : ProtocolHandleRetVal}
    {s s' : Inspection σ} (done : sendToClient m resultValue s = some s') : s'.rest = s.rest := by
  unfold sendToClient at done
  split at done
  · simp only [Option.bind_eq_bind, Option.bind_eq_some_iff, Option.some.injEq] at done
    obtain ⟨_, _, _, _, rfl⟩ := done
    rfl
  · obtain rfl := Option.some.inj done
    rfl

/-- An inspection counts what is received, and is related to its end by what its hooks change. -/
theorem protocolFront_rest (refl : ∀ a, R a a) (trans : ∀ a b c, R a b → R b c → R a c)
    (prehandles : ∀ s, R s.rest (p.prehandlePacket s).2)
    (handles : ∀ type func, p.handleFunc type = some func → ∀ s resultValue s',
      func s = some (resultValue, s') → R s.rest s'.rest)
    (ends : ∀ s, R s.rest (p.endStatPacket s)) {m : Allocator UInt8} {useMonitor : Bool}
    {fuel : Nat} {s s' : Inspection σ} {resultValue : ProtocolHandleRetVal}
    (done : protocolFront m useMonitor p fuel s = some (resultValue, s')) :
    R (p.statReadData s) s'.rest := by
  have prepared := prehandles { s with rest := p.statReadData s }
  simp only [protocolFront] at done
  split at done
  · obtain ⟨_, rfl⟩ := Prod.mk.inj (Option.some.inj done)
    exact prepared
  · simp only [Option.bind_eq_bind, Option.bind_eq_some_iff, Option.some.injEq, exists_eq_left',
      Prod.mk.injEq] at done
    obtain ⟨⟨ret, u⟩, looped, _, rfl⟩ := done
    have handled := handleLoop_rest refl trans handles (fun _ _ _ => sendToClient_rest) looped
    exact trans _ _ _ (trans _ _ _ prepared handled) (ends u)

end Rest

/-- Two well-formed buffers with the same bytes are of one length. -/
theorem StringBuf.WellFormed.length_eq {sb sb' : StringBuf} (wf : sb.WellFormed)
    (wf' : sb'.WellFormed) (same : sb'.bytes = sb.bytes) : sb'.length = sb.length := by
  apply UInt32.toNat_inj.mp
  rw [← StringBuf.length_bytes wf, ← StringBuf.length_bytes wf', same]

/-- What is to be sent to the client is what remains of the packet. -/
theorem sendToClient_spec {m : Allocator UInt8} {s s' : Inspection σ} (wf : s.WellFormed)
    (done : sendToClient m .sendToClient s = some s') :
    s'.sendData.bytes = s.sendData.bytes ++ s.packet.remaining ∧ s'.packet.bytes = [] ∧
      s'.packet.length = 0 := by
  have offsetLe := wf.1.offset_le
  have counted := StringBuf.remailLength_toNat wf.1
  -- What is read is what the offset leaves.
  have remains : s.packet.buf.read s.packet.offset.toNat s.packet.remailLength.toNat =
      some s.packet.remaining := by
    have lengthLe := wf.1.length_le
    have allocated := wf.1.allocate_eq
    have held := StringBuf.length_bytes wf.1
    have left : s.packet.remaining.length = s.packet.length.toNat - s.packet.offset.toNat := by
      rw [StringBuf.remaining, List.length_drop, held]
    rw [counted, Block.read_eq (by omega), left, StringBuf.remaining, StringBuf.bytes,
      List.drop_take]
  simp only [sendToClient, if_true, remains, Option.bind_eq_bind, Option.bind_some,
    Option.bind_eq_some_iff, Option.some.injEq] at done
  obtain ⟨sendData, appended, rfl⟩ := done
  have small : s.packet.remaining.length < 0x100000000 := by
    rw [← counted]
    exact UInt32.toNat_lt _
  have cleared := StringBuf.clear_spec m (StringBuf.clear_spec m wf.1).1
  refine ⟨(StringBuf.append_inv wf.2 small appended).2.1, cleared.2, ?_⟩
  apply UInt32.toNat_inj.mp
  rw [← StringBuf.length_bytes cleared.1, cleared.2]
  rfl

/-- Nothing is appended for any other result. -/
theorem sendToClient_of_ne {m : Allocator UInt8} {resultValue : ProtocolHandleRetVal}
    (other : resultValue ≠ .sendToClient) (s : Inspection σ) :
    sendToClient m resultValue s = some s := if_neg other

/-- What the loop and the hooks of a direction leave, before the packet's offset is restored. -/
def ProtocolHooks.inspect (p : ProtocolHooks σ)
    (handled : ProtocolHandleRetVal → Inspection σ → Option (Inspection σ))
    (unknown : ProtocolHandleRetVal → ProtocolHandleRetVal) (fuel : Nat) (s : Inspection σ) :
    Option (ProtocolHandleRetVal × Inspection σ) :=
  let s := { s with rest := p.statReadData s }
  let (resultValue, rest) := p.prehandlePacket s
  let s := { s with rest := rest }
  if resultValue ≠ .success then some (resultValue, s)
  else (p.handleLoop handled unknown fuel resultValue s).map fun (resultValue, s) =>
    (resultValue, { s with rest := p.endStatPacket s })

/-- `protocol_front` inspects the packet and restores its offset where that is inside. -/
theorem protocolFront_eq (m : Allocator UInt8) (p : ProtocolHooks σ) (fuel : Nat)
    (s : Inspection σ) :
    protocolFront m false p fuel s = (p.inspect (sendToClient m) id fuel s).map
      fun (resultValue, t) =>
      (resultValue, { t with packet :=
        if t.packet.length > s.packet.offset then t.packet.setOffset s.packet.offset
        else t.packet }) := by
  simp only [protocolFront, ProtocolHooks.inspect]
  by_cases stops : (p.prehandlePacket { s with rest := p.statReadData s }).1 ≠ .success
  · simp only [if_pos stops]
    rfl
  · simp only [if_neg stops, Option.bind_eq_bind, Option.map_map]
    cases p.handleLoop (sendToClient m) id fuel _ _ <;> rfl

/-- `protocol_backend` restores the offset wherever it is. -/
theorem protocolBackend_eq (m : Allocator UInt8) (p : ProtocolHooks σ) (fuel : Nat)
    (s : Inspection σ) :
    protocolBackend m false p fuel s =
      (p.inspect (fun _ s => some s) (fun _ => .error) fuel s).map fun (resultValue, t) =>
        (resultValue, { t with packet := t.packet.setOffset s.packet.offset }) := by
  simp only [protocolBackend, ProtocolHooks.inspect]
  by_cases stops : (p.prehandlePacket { s with rest := p.statReadData s }).1 ≠ .success
  · simp only [if_pos stops]
    rfl
  · simp only [if_neg stops, Option.bind_eq_bind, Option.map_map]
    cases p.handleLoop (fun _ s => some s) (fun _ => .error) fuel _ _ <;> rfl

variable {m : Allocator UInt8} {p : ProtocolHooks σ} {fuel : Nat} {s s' : Inspection σ}
  {resultValue : ProtocolHandleRetVal}

/-- What the preparation of a packet results in. -/
def ProtocolHooks.prepared (p : ProtocolHooks σ) (s : Inspection σ) : ProtocolHandleRetVal :=
  (p.prehandlePacket { s with rest := p.statReadData s }).1

/-- An inspection stops at the preparation, with the buffers as they were, or it runs the loop. -/
theorem inspect_cases {handled : ProtocolHandleRetVal → Inspection σ → Option (Inspection σ)}
    {unknown : ProtocolHandleRetVal → ProtocolHandleRetVal} (onlyMoves : p.OnlyMoves)
    (goesOn : ∀ s, handled .success s = some s) (wf : s.WellFormed)
    (done : p.inspect handled unknown fuel s = some (resultValue, s')) :
    (resultValue = p.prepared s ∧ s'.packet = s.packet ∧ s'.sendData = s.sendData) ∨
      ((¬ s.packet.offset < s.packet.length → s'.packet = s.packet) ∧
        ∃ t, p.Ends handled unknown s.packet.bytes resultValue t ∧ s'.packet = t.packet ∧
          s'.sendData = t.sendData) := by
  simp only [ProtocolHooks.inspect] at done
  split at done
  · obtain ⟨rfl, rfl⟩ := Prod.mk.inj (Option.some.inj done)
    exact Or.inl ⟨rfl, rfl, rfl⟩
  · next goes =>
    obtain ⟨⟨ret, t⟩, looped, same⟩ := Option.map_eq_some_iff.mp done
    obtain ⟨rfl, rfl⟩ := Prod.mk.inj same
    rw [not_not.mp goes] at looped
    -- The loop begins with the buffers as they were.
    generalize begun : ({ s with rest := _ } : Inspection σ) = u at looped
    have packet : u.packet = s.packet := by rw [← begun]
    have sendData : u.sendData = s.sendData := by rw [← begun]
    have wf' : u.WellFormed := by
      rw [Inspection.WellFormed, packet, sendData]
      exact wf
    rw [← packet]
    refine Or.inr ⟨?_, t, ?_, rfl, rfl⟩
    · intro used
      obtain ⟨_, same⟩ := ProtocolHooks.handleLoop_of_used used looped
      show t.packet = u.packet
      rw [same]
    · exact ProtocolHooks.handleLoop_ends onlyMoves goesOn wf' looped

/-- Handlers that only move the offset leave the packet's bytes, unless it goes to the client. -/
theorem inspect_bytes {handled : ProtocolHandleRetVal → Inspection σ → Option (Inspection σ)}
    {unknown : ProtocolHandleRetVal → ProtocolHandleRetVal} (onlyMoves : p.OnlyMoves)
    (goesOn : ∀ s, handled .success s = some s) (wf : s.WellFormed)
    (spared : ∀ t, handled resultValue t = some t)
    (done : p.inspect handled unknown fuel s = some (resultValue, s')) :
    s'.packet.WellFormed ∧ s'.packet.bytes = s.packet.bytes ∧
      (¬ s.packet.offset < s.packet.length → s'.packet = s.packet) := by
  rcases inspect_cases onlyMoves goesOn wf done with ⟨_, same, _⟩ | ⟨used, t, ends, same, _⟩
  · rw [same]
    exact ⟨wf.1, rfl, fun _ => rfl⟩
  · -- The loop was stopped by a handler, or has passed all of the packet.
    refine ⟨?_, ?_, used⟩
    · rw [same]
      cases ends with
      | stopped _ _ _ wf' _ _ after =>
        obtain rfl := Option.some.inj ((spared _).symm.trans after)
        exact wf'.1
      | passed wf' _ _ => exact wf'.1
    · rw [same]
      cases ends with
      | stopped _ _ _ _ bytes _ after =>
        obtain rfl := Option.some.inj ((spared _).symm.trans after)
        exact bytes
      | passed _ bytes _ => exact bytes

/-- A packet of the client that does not go to the client is as it was received. -/
theorem protocolFront_keeps (onlyMoves : p.OnlyMoves) (wf : s.WellFormed)
    (other : resultValue ≠ .sendToClient)
    (done : protocolFront m false p fuel s = some (resultValue, s')) :
    s'.packet.bytes = s.packet.bytes ∧ s'.packet.offset = s.packet.offset := by
  rw [protocolFront_eq, Option.map_eq_some_iff] at done
  obtain ⟨⟨ret, t⟩, inspected, same⟩ := done
  obtain ⟨rfl, rfl⟩ := Prod.mk.inj same
  obtain ⟨wf', bytes, used⟩ := inspect_bytes onlyMoves (fun _ => sendToClient_of_ne (by simp) _) wf
    (sendToClient_of_ne other) inspected
  have length := StringBuf.WellFormed.length_eq wf.1 wf' bytes
  simp only
  split
  · exact ⟨bytes, rfl⟩
  · next outside =>
    -- The offset was at the end, so that no handler was called.
    rw [length] at outside
    rw [used outside]
    exact ⟨rfl, rfl⟩

/-- A packet of the server is as it was received. -/
theorem protocolBackend_keeps (onlyMoves : p.OnlyMoves) (wf : s.WellFormed)
    (done : protocolBackend m false p fuel s = some (resultValue, s')) :
    s'.packet.bytes = s.packet.bytes ∧ s'.packet.offset = s.packet.offset := by
  rw [protocolBackend_eq, Option.map_eq_some_iff] at done
  obtain ⟨⟨ret, t⟩, inspected, same⟩ := done
  obtain ⟨rfl, rfl⟩ := Prod.mk.inj same
  obtain ⟨_, bytes, _⟩ := inspect_bytes onlyMoves (fun _ => rfl) wf (fun _ => rfl) inspected
  exact ⟨bytes, rfl⟩

/-- What a handler sends to the client is the rest of the packet, of which nothing is forwarded. -/
theorem protocolFront_sends (onlyMoves : p.OnlyMoves) (wf : s.WellFormed)
    (handler : p.prepared s ≠ .sendToClient)
    (done : protocolFront m false p fuel s = some (.sendToClient, s')) :
    ∃ type func t last, p.handleFunc type = some func ∧ t.packet.bytes = s.packet.bytes ∧
      func t = some (.sendToClient, last) ∧
      s'.sendData.bytes = last.sendData.bytes ++ last.packet.remaining ∧ s'.packet.bytes = [] := by
  rw [protocolFront_eq, Option.map_eq_some_iff] at done
  obtain ⟨⟨ret, t⟩, inspected, same⟩ := done
  obtain ⟨rfl, rfl⟩ := Prod.mk.inj same
  rcases inspect_cases onlyMoves (fun _ => sendToClient_of_ne (by simp) _) wf inspected with
    ⟨prepared, _⟩ | ⟨_, u, ends, packet, sendData⟩
  · exact absurd prepared.symm handler
  · cases ends with
    | passed _ _ result => simp at result
    -- The handler that stopped the loop has moved the offset only.
    | stopped found bytes called wf' _ _ after =>
      obtain ⟨sent, cleared, zero⟩ := sendToClient_spec wf' after
      refine ⟨_, _, _, _, found, bytes, called, ?_, ?_⟩
      · show t.sendData.bytes = _
        rw [sendData]
        exact sent
      · simp only
        split
        · show t.packet.bytes = []
          rw [packet]
          exact cleared
        · rw [packet]
          exact cleared

/-- A protocol with one handler for all packets, which reads them to their end. -/
def oneHandler (resultValue : ProtocolHandleRetVal) : ProtocolHooks Unit where
  statReadData _ := ()
  prehandlePacket _ := (.success, ())
  getPacketType _ := 0
  handleFunc _ := some fun s =>
    some (resultValue, { s with packet := s.packet.setOffset s.packet.length })
  endStatPacket _ := ()

theorem onlyMoves_oneHandler (resultValue : ProtocolHandleRetVal) :
    (oneHandler resultValue).OnlyMoves := by
  intro type func found s ret s' wf called
  obtain rfl := Option.some.inj found
  obtain ⟨rfl, rfl⟩ := Prod.mk.inj (Option.some.inj called)
  exact ⟨⟨⟨Nat.le_refl _, wf.1.length_le, wf.1.allocate_eq⟩, wf.2⟩, rfl⟩

/-- A packet of three bytes, of which the first has been read. -/
def threeBytes : Inspection Unit := ⟨⟨some [1, 2, 3], 3, 1, 3⟩, .new, ()⟩

end OneProxy
