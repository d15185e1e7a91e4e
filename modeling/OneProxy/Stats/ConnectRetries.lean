import OneProxy.Protocol.ProtocolFront
import OneProxy.Stats.Survival

/-! A request that is parsed again each time no backend could be had for it. -/

namespace OneProxy.Record

variable {record after : Record} {s t u : Serving}

/-! ## What does not count the bytes of a client -/

/-- Leaves the bytes that are counted of every client. -/
def SameUpData (record after : Record) : Prop :=
  ∀ key, after.read (.client key .upData) = record.read (.client key .upData)

theorem SameUpData.refl (record : Record) : SameUpData record record := fun _ => rfl

theorem SameUpData.trans {later : Record} (first : SameUpData record after)
    (second : SameUpData after later) : SameUpData record later :=
  fun key => (second key).trans (first key)

/-- What is counted of a client in other figures is not counted as its bytes. -/
theorem amount_clientCounts_other (record : Record) (hashCode key : UInt32)
    (clientInfo : Option UInt32) {figures : List (ClientCounter × UInt64)}
    (other : Ledger.amount figures ClientCounter.upData = 0) :
    Ledger.amount (record.clientCounts hashCode clientInfo figures) (.client key .upData) = 0 := by
  unfold clientCounts
  split
  · next entry _ =>
    split
    · by_cases same : key = entry
      · subst same
        rw [← other]
        exact Ledger.amount_tagged (fun _ _ same => (Counter.client.inj same).2) figures _
      · exact Ledger.amount_tagged_outside (by simp [same]) figures
    · rfl
  · rfl

/-- The kind of a statement is no number of bytes. -/
theorem amount_kindCounts_upData (type : UInt32) :
    Ledger.amount (kindCounts type) ClientCounter.upData = 0 := by
  unfold kindCounts
  split
  · simp
  · split
    · simp
    · split
      · simp
      · split <;> simp

/-- Only the bytes received from a client are counted as its bytes. -/
theorem sameUpData_apply (event : Event) (applied : event.apply record = some after)
    (other : ∀ env conn hashCode size clientInfo,
      event ≠ .clientQuerySendSize env conn hashCode size clientInfo) : SameUpData
        record after := by
  intro key
  rw [read_apply applied (.client key .upData)]
  -- What an event adds to a figure is the sum of its counts for it.
  suffices none_added : Ledger.amount (event.counts record) (.client key .upData) = 0 by
    rw [none_added, add_zero]
  cases event with
  | clientQuerySendSize env conn hashCode size clientInfo => exact absurd rfl (other _ _ _ _ _)
  | clientQueryExec sqlHashCode clientAddressHashCode clientInfo =>
    simp only [Event.counts]
    split
    · apply amount_clientCounts_other
      rw [Ledger.amount_cons, amount_kindCounts_upData]
      simp
    · rfl
  | clientQueryRecvSize | clientQueryExecFail | clientQueryOnLineTime | clientQueryAllocServerFail =>
    exact amount_clientCounts_other _ _ _ _ (by simp)
  | sqlInfoRecvSize | sqlInfoExec | sqlInfoExecTran | sqlInfoRecvResult | sqlInfoExecFail =>
    exact amount_sqlCounts_outside _ _ _ (by simp)
  | lock | unlock =>
    simp only [Event.counts]
    split <;> simp
  | _ => simp [Event.counts]

/-- Saving a statement counts no bytes. -/
theorem sameUpData_statSaveSql {env : Env} {sqlText : Bytes}
    (done : s.statSaveSql env sqlText = some t) : SameUpData s.record t.record := by
  simp only [Serving.statSaveSql, Option.bind_eq_bind, Option.bind_eq_some_iff, Prod.exists,
    Option.some.injEq] at done
  obtain ⟨record, conn, event, saved, rfl⟩ := done
  have first : SameUpData s.record record :=
    sameUpData_apply (.sqlInfoAddSql env _) (Option.map_eq_some_iff.mpr ⟨_, saved, rfl⟩)
      (by simp)
  exact first.trans (sameUpData_apply (.clientQueryAddSql env _ _) rfl (by simp))

/-- Executing a statement counts no bytes. -/
theorem sameUpData_statExecuteSql (s : Serving) (env : Env) :
    SameUpData s.record (s.statExecuteSql env).record := by
  simp only [Serving.statExecuteSql]
  split
  · exact SameUpData.refl _
  · have executed : SameUpData s.record _ :=
      (sameUpData_apply (.clientQueryExec s.hash s.conn.addressHashCode s.conn.clientInfo)
        rfl (by simp)).trans
      (sameUpData_apply (.sqlInfoExec s.hash s.conn.sqlInfo) rfl (by simp))
    split
    · exact executed.trans
        (sameUpData_apply (.sqlInfoExecTran env s.conn s.hash s.conn.sqlInfo) rfl (by simp))
    · exact executed

/-- Parsing a statement leaves the statistics. -/
theorem record_parseSql (s : Serving) (parsed : Option ParsedSql) :
    (s.parseSql parsed).2.record = s.record := by
  cases parsed <;> rfl

theorem sameUpData_along (env : Env) : Along env fun s t => SameUpData s.record t.record where
  refl := fun s => SameUpData.refl s.record
  trans := SameUpData.trans
  updateSqlInfo := fun s _ => SameUpData.refl s.record
  parseSql := by
    intro s parsed
    rw [record_parseSql]
    exact SameUpData.refl s.record
  statSaveSql := sameUpData_statSaveSql
  statExecuteSql := fun s => sameUpData_statExecuteSql s env

/-- No call counts bytes of the client but the one that reads them. -/
theorem sameUpData_run {call : Call} {env : Env} (ran : call.run env s = some t)
    (other : ∀ length, call ≠ .statReadFrontData length) : SameUpData s.record t.record := by
  by_cases composed : call.Composed
  · exact (sameUpData_along env).run composed ran
  cases call with
  | statReadFrontData length => exact absurd rfl (other length)
  | statEndTrans isRollBack endTime =>
    obtain rfl := Option.some.inj ran
    simp only [Serving.statEndTrans]
    split
    · exact SameUpData.refl _
    · exact sameUpData_apply (.transInfoEndTrans env _ _ endTime) rfl (by simp)
  | statRecvFinishedRow rows =>
    obtain rfl := Option.some.inj ran
    exact sameUpData_apply (.sqlInfoRecvResult env s.conn rows s.conn.sqlInfo) rfl (by simp)
  | statExecuteErr =>
    obtain rfl := Option.some.inj ran
    exact (sameUpData_apply (.sqlInfoExecFail env s.conn s.conn.sqlInfo) rfl (by simp)).trans
      (sameUpData_apply (.clientQueryExecFail s.conn s.conn.clientInfo) rfl (by simp))
  | statReadBackendData length =>
    obtain rfl := Option.some.inj ran
    exact (sameUpData_apply (.clientQueryRecvSize env s.conn s.conn.addressHashCode length
      s.conn.clientInfo) rfl (by simp)).trans
      (sameUpData_apply (.sqlInfoRecvSize env s.conn s.hash length s.conn.sqlInfo) rfl
        (by simp))
  | statStartTrans | statRecvOneRow | setHandles =>
    obtain rfl := Option.some.inj ran
    exact SameUpData.refl _
  | _ => exact absurd trivial composed

/-! ## The path of a request -/

/-- A protocol reports something else than the bytes it has read. -/
def Reports (s t : Serving) : Prop :=
  ∃ (env : Env) (call : Call), (∀ length, call ≠ .statReadFrontData length) ∧
    call.run env s = some t

/-- The reports of a protocol, one after the other. -/
abbrev Reported : Serving → Serving → Prop := Relation.ReflTransGen Reports

/--
A protocol class as it serves the packets of one client once.

It has data of its own besides the statistics, which a new object begins with, and it changes the
statistics by the calls of `ProtocolBase` only.
-/
structure FrontProtocol (τ : Type) where
  /-- What the clocks say when `protocol_front` begins. -/
  env : Env
  /-- The class is found, its object made and initialised, and the databases are chosen. -/
  attach : τ → Option τ
  hooks : ProtocolHooks (Serving × τ)
  statReadFrontData : ∀ s, hooks.statReadData s =
    (s.rest.1.statReadFrontData env s.packet.length, s.rest.2)
  prehandles : ∀ s, Reported s.rest.1 (hooks.prehandlePacket s).2.1
  handles : ∀ type func, hooks.handleFunc type = some func → ∀ s resultValue s',
    func s = some (resultValue, s') → Reported s.rest.1 s'.rest.1
  ends : ∀ s, Reported s.rest.1 (hooks.endStatPacket s).1

/-- A client's connection with the request it has sent. -/
structure Request (τ : Type) where
  /-- The received data, the data to be sent, the statistics, and all else that a protocol sees. -/
  seen : Inspection (Serving × τ)
  /-- `protocolBase` is set. -/
  protocolBase : Bool
  connServerFailed : Nat

/-- How a `handle_readFrontData` ends. -/
inductive Handled
  | finished (type : ConnFinishType)
  | ignored
  | retryLater
  | sent
  deriving DecidableEq

/-- What a thread is set up with. -/
structure ThreadSetup where
  allocator : Memory.Allocator UInt8
  useMonitor : Bool
  /-- How many packets a handler loop may take. -/
  fuel : Nat
  tryConnServerTimes : Nat

/-- One time that a request is handled: what `read_data` returns, and the protocol that is used. -/
structure Attempt (τ : Type) where
  read : Int
  protocol : FrontProtocol τ

namespace Request

variable {τ : Type}

/-- The statistics with the connection. -/
def serving (r : Request τ) : Serving := r.seen.rest.1

/-- `parse_frontDataPacket`: a connection without a protocol gets a new one. -/
def parseFrontDataPacket (ct : ThreadSetup) (p : FrontProtocol τ) (r : Request τ) :
    Option (Int × Request τ) :=
  let attached :=
    if r.protocolBase then some r
    else (p.attach r.seen.rest.2).map fun other =>
      { r with seen := { r.seen with rest := (r.serving, other) }, protocolBase := true }
  match attached with
  | none => some (-1, r)
  | some r => do
    let (retVal, seen) ← protocolFront ct.allocator ct.useMonitor p.hooks ct.fuel r.seen
    let tret := if retVal = .failedCloseConn then -1 else if retVal = .normalCloseConn then 1 else 0
    some (tret, { r with seen := seen })

/-- `get_serverFailed`: the protocol's object is destroyed when there is to be a retry. -/
def getServerFailed (ct : ThreadSetup) (r : Request τ) : Handled × Request τ :=
  let r := { r with connServerFailed := r.connServerFailed + 1 }
  if r.connServerFailed ≥ ct.tryConnServerTimes then
    let serving := { r.serving with
      record := r.serving.record.recordClientQueryAllocServerFail r.serving.conn.addressHashCode
        r.serving.conn.clientInfo }
    (.finished .err, { r with seen := { r.seen with rest := (serving, r.seen.rest.2) } })
  else (.retryLater, { r with protocolBase := false })

/-- `handle_readFrontData` once the bytes are received, given whether a backend can be had. -/
def handleReadFrontData (ct : ThreadSetup) (a : Attempt τ) (connected : Bool) (r : Request τ) :
    Option (Handled × Request τ) :=
  if a.read < 0 then some (.finished .err, r)
  else if a.read = 2 ∧ r.seen.packet.remailLength ≤ 0 then some (.finished .frontClose, r)
  else if r.seen.packet.length = 0 then some (.ignored, r)
  else do
    let (tret, r) ← r.parseFrontDataPacket ct a.protocol
    if tret = -1 then some (.finished .err, r)
    else if tret = 1 then some (.finished .normal, r)
    else if r.seen.packet.remailLength > 0 ∧ connected = false then some (r.getServerFailed ct)
    else some (.sent, r)

/--
A request for which no backend can be had `k` times, and then one can.

`retry_failedConnection` handles it again each time, while the client sends nothing more.
-/
def served (ct : ThreadSetup) (attempt : Nat → Attempt τ) :
    Nat → Nat → Request τ → Option (Request τ)
  | 0, i, r => do
    let (handled, r) ← r.handleReadFrontData ct (attempt i) true
    if handled = .sent then some r else none
  | k + 1, i, r => do
    let (handled, r) ← r.handleReadFrontData ct (attempt i) false
    if handled = .retryLater then served ct attempt k (i + 1) r else none

end Request

/-! ## What each attempt counts -/

/-- The connection's client is known to the statistics by a key. -/
structure Serving.Keyed (s : Serving) (key : UInt32) : Prop where
  hashCode : s.conn.addressHashCode = key
  there : (s.record.clientView key).isSome
  pointer : s.conn.clientInfo = none ∨ s.conn.clientInfo = some key

variable {key : UInt32}

/-- A call leaves the client known. -/
theorem Serving.Keyed.run {call : Call} {env : Env} (keyed : s.Keyed key)
    (ran : call.run env s = some t) : t.Keyed key := by
  have kept := kept_run ran
  refine ⟨kept.addressHashCode.trans keyed.hashCode, (stays_run ran).clients key keyed.there, ?_⟩
  rw [kept.clientInfo]
  exact keyed.pointer

/-- What a protocol reports leaves the client known, and counts no bytes of it. -/
theorem Serving.Keyed.reported (keyed : s.Keyed key) (reported : Reported s t) :
    t.Keyed key ∧ t.record.read (.client key .upData) = s.record.read (.client key .upData) := by
  induction reported with
  | refl => exact ⟨keyed, rfl⟩
  | tail _ report ih =>
    obtain ⟨env, call, other, ran⟩ := report
    exact ⟨ih.1.run ran, (sameUpData_run ran other key).trans ih.2⟩

/-- The bytes that are read are counted with the client. -/
theorem Serving.Keyed.read_statReadFrontData (keyed : s.Keyed key) (env : Env) (length : UInt32) :
    (s.statReadFrontData env length).record.read (.client key .upData) =
      s.record.read (.client key .upData) + length.toUInt64 := by
  have present : (s.record.clientQueryMap key).isSome := by simpa [clientView] using keyed.there
  have target : s.record.clientTarget s.conn.addressHashCode s.conn.clientInfo = some key := by
    rw [keyed.hashCode]
    rcases keyed.pointer with none | some
    · rw [none]
      exact Server.recordGetClientQueryInfo_of_isSome keyed.there
    · rw [some]
      rfl
  have counted := @read_apply s.record _ (.clientQuerySendSize env s.conn s.conn.addressHashCode
    length s.conn.clientInfo) rfl (.client key .upData)
  simp only [Event.counts] at counted
  rw [amount_clientCounts target present, Ledger.amount_cons, Ledger.amount_nil, if_pos rfl,
    add_zero] at counted
  exact counted

namespace Request

variable {τ : Type} {ct : ThreadSetup} {a : Attempt τ} {r r' : Request τ}

/-- The bytes counted of the client so far. -/
def upData (r : Request τ) (key : UInt32) : UInt64 := r.serving.record.read (.client key .upData)

/-- `protocol_front` counts what has been received, whatever the handlers do. -/
theorem protocolFront_counts {p : FrontProtocol τ} {s s' : Inspection (Serving × τ)}
    {retVal : ProtocolHandleRetVal} (keyed : s.rest.1.Keyed key)
    (done : protocolFront ct.allocator ct.useMonitor p.hooks ct.fuel s = some (retVal, s')) :
    s'.rest.1.Keyed key ∧ s'.rest.1.record.read (.client key .upData) =
      s.rest.1.record.read (.client key .upData) + s.packet.length.toUInt64 := by
  have reported : Reported (p.hooks.statReadData s).1 s'.rest.1 :=
    @protocolFront_rest _ p.hooks (fun before after => Reported before.1 after.1)
      (fun _ => .refl) (fun _ _ _ => .trans) p.prehandles p.handles p.ends _ _ _ _ _ _ done
  rw [p.statReadFrontData] at reported
  have read : (Call.statReadFrontData s.packet.length).run p.env s.rest.1 =
      some (s.rest.1.statReadFrontData p.env s.packet.length) := rfl
  obtain ⟨keyed', same⟩ := (keyed.run read).reported reported
  exact ⟨keyed', same.trans (keyed.read_statReadFrontData p.env s.packet.length)⟩

/-- A packet that is parsed is counted, with a new protocol object as with an old one. -/
theorem parseFrontDataPacket_counts {p : FrontProtocol τ} {tret : Int} (keyed : r.serving.Keyed key)
    (done : r.parseFrontDataPacket ct p = some (tret, r')) (parsed : tret ≠ -1) :
    r'.serving.Keyed key ∧ r'.upData key = r.upData key + r.seen.packet.length.toUInt64 ∧
      r'.connServerFailed = r.connServerFailed := by
  simp only [parseFrontDataPacket] at done
  split at done
  · obtain ⟨rfl, _⟩ := Prod.mk.inj (Option.some.inj done)
    exact absurd rfl parsed
  · next u attached =>
    simp only [Option.bind_eq_bind, Option.bind_eq_some_iff, Option.some.injEq, Prod.exists,
      Prod.mk.injEq] at done
    obtain ⟨retVal, seen, front, _, rfl⟩ := done
    -- The object makes no difference for what is counted.
    have same : u.serving = r.serving ∧ u.seen.packet = r.seen.packet ∧
        u.connServerFailed = r.connServerFailed := by
      split at attached
      · obtain rfl := Option.some.inj attached
        exact ⟨rfl, rfl, rfl⟩
      · obtain ⟨other, _, rfl⟩ := Option.map_eq_some_iff.mp attached
        exact ⟨rfl, rfl, rfl⟩
    rw [← same.1] at keyed
    obtain ⟨keyed', counted⟩ := protocolFront_counts keyed front
    refine ⟨keyed', ?_, same.2.2⟩
    rw [upData, upData, ← same.1, ← same.2.1]
    exact counted

/-- An attempt that is not given up counts the request, which is not empty. -/
theorem handleReadFrontData_counts {connected : Bool} {handled : Handled}
    (keyed : r.serving.Keyed key)
    (done : r.handleReadFrontData ct a connected = some (handled, r'))
    (goesOn : handled = .sent ∨ handled = .retryLater) :
    r'.serving.Keyed key ∧ r'.upData key = r.upData key + r.seen.packet.length.toUInt64 ∧
      r.seen.packet.length ≠ 0 ∧
      (handled = .retryLater → r'.connServerFailed = r.connServerFailed + 1 ∧
        r.connServerFailed + 1 < ct.tryConnServerTimes) := by
  -- Of the ways out only the last two go on, and both are behind the count of the packet.
  unfold handleReadFrontData at done
  split at done
  · obtain ⟨rfl, _⟩ := Prod.mk.inj (Option.some.inj done)
    simp at goesOn
  · split at done
    · obtain ⟨rfl, _⟩ := Prod.mk.inj (Option.some.inj done)
      simp at goesOn
    · split at done
      · obtain ⟨rfl, _⟩ := Prod.mk.inj (Option.some.inj done)
        simp at goesOn
      · next filled =>
        simp only [Option.bind_eq_bind, Option.bind_eq_some_iff, Prod.exists] at done
        obtain ⟨tret, u, parsed, done⟩ := done
        split at done
        · obtain ⟨rfl, _⟩ := Prod.mk.inj (Option.some.inj done)
          simp at goesOn
        · next whole =>
          obtain ⟨keyed', counted, failed⟩ := parseFrontDataPacket_counts keyed parsed whole
          split at done
          · obtain ⟨rfl, _⟩ := Prod.mk.inj (Option.some.inj done)
            simp at goesOn
          · split at done
            · simp only [getServerFailed, Option.some.injEq] at done
              split at done
              · obtain ⟨rfl, _⟩ := Prod.mk.inj done
                simp at goesOn
              · next again =>
                obtain ⟨rfl, rfl⟩ := Prod.mk.inj done
                refine ⟨keyed', counted, filled, fun _ => ⟨congrArg (· + 1) failed, ?_⟩⟩
                rw [← failed]
                exact Nat.lt_of_not_le again
            · obtain ⟨rfl, rfl⟩ := Prod.mk.inj (Option.some.inj done)
              exact ⟨keyed', counted, filled, by simp⟩

/-- Every retry counts the request once more. -/
theorem served_counts {attempt : Nat → Attempt τ} {k i : Nat} {t : Request τ}
    (keyed : r.serving.Keyed key) (done : r.served ct attempt k i = some t) :
    r.seen.packet.length ≠ 0 ∧ (0 < k → r.connServerFailed + k < ct.tryConnServerTimes) ∧
      ∃ more, k ≤ more ∧ more ≤ k * 2 ^ 32 ∧
        t.upData key = r.upData key + r.seen.packet.length.toUInt64 + UInt64.ofNat more := by
  -- The induction is on the retries; each one has a later request that was not empty either.
  induction k generalizing i r with
  | zero =>
    simp only [served, Option.bind_eq_bind, Option.bind_eq_some_iff, Prod.exists] at done
    obtain ⟨handled, u, once, done⟩ := done
    split at done
    · next sent =>
      obtain rfl := Option.some.inj done
      obtain ⟨_, counted, filled, _⟩ := handleReadFrontData_counts keyed once (Or.inl sent)
      exact ⟨filled, by simp, 0, by simp, by simp, by simpa using counted⟩
    · exact absurd done (by simp)
  | succ k ih =>
    simp only [served, Option.bind_eq_bind, Option.bind_eq_some_iff, Prod.exists] at done
    obtain ⟨handled, u, once, done⟩ := done
    split at done
    · next again =>
      obtain ⟨keyed', counted, filled, failed⟩ :=
        handleReadFrontData_counts keyed once (Or.inr again)
      obtain ⟨later, below, more, least, most, total⟩ := ih keyed' done
      obtain ⟨failed, times⟩ := failed again
      refine ⟨filled, ?_, u.seen.packet.length.toNat + more, ?_, ?_, ?_⟩
      · intro _
        rcases Nat.eq_zero_or_pos k with rfl | some_
        · exact times
        · have := below some_
          omega
      · have positive : 0 < u.seen.packet.length.toNat :=
          Nat.pos_of_ne_zero fun zero => later (UInt32.toNat_inj.mp zero)
        omega
      · have small := u.seen.packet.length.toNat_lt
        rw [Nat.add_mul]
        omega
      · have length : u.seen.packet.length.toUInt64 = UInt64.ofNat u.seen.packet.length.toNat := by
          apply UInt64.toNat_inj.mp
          simp
        rw [total, counted, length, UInt64.ofNat_add, ← add_assoc]
    · exact absurd done (by simp)

end Request

/-! ## The retries that show -/

/-- The counters of executions: of a statement, and of the statements of a client. -/
def Counter.ofExecution : Counter → Bool
  | .sql _ .exec | .sql _ .trans => true
  | .client _ .query | .client _ .select | .client _ .insert | .client _ .update
  | .client _ .delete => true
  | _ => false

/-- Two runs count a client's bytes, and all executions, alike. -/
def SameCounts (key : UInt32) (record after : Record) : Prop :=
  after.read (.client key .upData) = record.read (.client key .upData) ∧
    ∀ counter : Counter, counter.ofExecution → after.read counter = record.read counter

namespace Request

variable {τ : Type} {ct : ThreadSetup} {r t₀ t : Request τ}

/-- A retry shows in the bytes of the client, whatever the protocol does. -/
theorem sameCounts_iff (int : ct.tryConnServerTimes < 2 ^ 31) {attempt : Nat → Attempt τ} {k : Nat}
    (keyed : r.serving.Keyed key) (first : r.served ct attempt 0 0 = some t₀)
    (later : r.served ct attempt k 0 = some t) :
    SameCounts key t₀.serving.record t.serving.record ↔ k = 0 := by
  constructor
  · rintro ⟨bytes, _⟩
    by_contra retried
    obtain ⟨_, below, more, least, most, total⟩ := served_counts keyed later
    obtain ⟨_, _, none, _, zero, once⟩ := served_counts keyed first
    have times := below (Nat.pos_of_ne_zero retried)
    obtain rfl : none = 0 := by omega
    -- The bytes of at most 2 ^ 31 retries are no multiple of 2 ^ 64.
    have wrapped : UInt64.ofNat more = 0 := by
      have same : t.upData key = t₀.upData key := bytes
      rw [total, once] at same
      simpa using same
    have small : more < 2 ^ 64 := by
      have := Nat.mul_le_mul_right (2 ^ 32) (show k ≤ 2 ^ 31 by omega)
      omega
    have zero : more % 2 ^ 64 = 0 := by
      have := congrArg UInt64.toNat wrapped
      simpa using this
    rw [Nat.mod_eq_of_lt small] at zero
    omega
  · rintro rfl
    obtain rfl : t₀ = t := Option.some.inj (first.symm.trans later)
    exact ⟨rfl, fun _ _ => rfl⟩

end Request

namespace Server

open Request

/--
A request that is served after `k` backends could not be had is counted as one that is served at
once exactly if `k` is zero: each retry parses it again, and counts it again.
-/
theorem retries_uncounted_iff {τ : Type} {s : Server} {id : Nat} {conn : Conn}
    (reached : Runs.Reachable system s) (there : s.conns id = some conn) {ct : ThreadSetup}
    (int : ct.tryConnServerTimes < 2 ^ 31) {attempt : Nat → Attempt τ} {r t₀ t : Request τ}
    (serving : r.serving = ⟨s.record, conn, []⟩) {k : Nat}
    (first : r.served ct attempt 0 0 = some t₀) (later : r.served ct attempt k 0 = some t) :
    SameCounts conn.addressHashCode t₀.serving.record t.serving.record ↔ k = 0 := by
  obtain ⟨_, entry, pointer⟩ := (registered_of_reachable reached).conns id conn there
  have keyed : r.serving.Keyed conn.addressHashCode := by
    rw [serving]
    exact ⟨rfl, entry, pointer⟩
  exact sameCounts_iff int keyed first later

/-- A protocol whose handler executes one statement, and forwards the packet. -/
def oneStatement : FrontProtocol Unit where
  env := quietEnv
  attach := some
  hooks := {
    statReadData := fun s => (s.rest.1.statReadFrontData quietEnv s.packet.length, s.rest.2)
    prehandlePacket := fun s => (.success, s.rest)
    getPacketType := fun _ => 0
    handleFunc := fun _ => some fun s => (newStatement.call.run quietEnv s.rest.1).map
        fun serving =>
      (.sendDirect, { s with rest := (serving, ()) })
    endStatPacket := fun s => s.rest }
  statReadFrontData _ := rfl
  prehandles _ := .refl
  handles := by
    intro type func found s resultValue s' called
    obtain rfl := Option.some.inj found
    obtain ⟨serving, ran, same⟩ := Option.map_eq_some_iff.mp called
    obtain ⟨_, rfl⟩ := Prod.mk.inj same
    exact .single ⟨quietEnv, newStatement.call, by simp [newStatement, Count.call], ran⟩
  ends _ := .refl

/-- A thread that tries three times. -/
def threeTimes : ThreadSetup := ⟨Memory.Allocator.filled 0, false, 2, 3⟩

/-- The first request of a client, of three bytes. -/
def firstRequest (s : Server) (conn : Conn) : Request Unit :=
  ⟨⟨⟨some [1, 2, 3], 3, 0, 3⟩, .new, (⟨s.record, conn, []⟩, ())⟩, false, 0⟩

/-- Its first read brings the bytes, and any later one none. -/
def attempts (i : Nat) : Attempt Unit := ⟨if i = 0 then 0 else 2, oneStatement⟩

/-- The first backend can be had. -/
theorem retries_uncounted_none :
    ∃ s conn t₀, Runs.Reachable system s ∧ s.conns 0 = some conn ∧
      (firstRequest s conn).served threeTimes attempts 0 0 = some t₀ ∧
      (SameCounts conn.addressHashCode t₀.serving.record t₀.serving.record ↔ 0 = 0) := by
  have run : ((known [firstClient]).bind fun p => (p.1.conns 0).bind fun conn =>
      ((firstRequest p.1 conn).served threeTimes attempts 0 0).map fun _ => ()).isSome := by
    decide +kernel
  simp only [Option.isSome_iff_exists, Option.bind_eq_some_iff, Option.map_eq_some_iff] at run
  obtain ⟨_, p, done, conn, there, t₀, first, _⟩ := run
  have reached : Runs.Reachable system p.1 := (reachable_of_known done).of_traced
  exact ⟨p.1, conn, t₀, reached, there, first,
    retries_uncounted_iff reached there (by decide) rfl first first⟩

/-- After one retry the client has sent six bytes in place of three, and executed two statements. -/
theorem retried_counted_twice :
    ∃ s conn t₀ t, Runs.Reachable system s ∧ s.conns 0 = some conn ∧
      (firstRequest s conn).served threeTimes attempts 0 0 = some t₀ ∧
      (firstRequest s conn).served threeTimes attempts 1 0 = some t ∧
      ¬ SameCounts conn.addressHashCode t₀.serving.record t.serving.record := by
  -- Both ways are run from the same state of the server.
  have run : ((known [firstClient]).bind fun p => (p.1.conns 0).bind fun conn =>
      ((firstRequest p.1 conn).served threeTimes attempts 0 0).bind fun t₀ =>
        ((firstRequest p.1 conn).served threeTimes attempts 1 0).map fun t =>
          ((t₀.upData conn.addressHashCode, t.upData conn.addressHashCode),
            t₀.serving.record.read (.sql (Tool.quickHashCode [97]) .exec),
            t.serving.record.read (.sql (Tool.quickHashCode [97]) .exec))) =
      some ((3, 6), 1, 2) := by
    decide +kernel
  simp only [Option.bind_eq_some_iff, Option.map_eq_some_iff, Prod.mk.injEq] at run
  obtain ⟨p, done, conn, there, t₀, first, t, later, ⟨once, twice⟩, _⟩ := run
  refine ⟨p.1, conn, t₀, t, (reachable_of_known done).of_traced, there, first, later, ?_⟩
  intro same
  have bytes : t.upData conn.addressHashCode = t₀.upData conn.addressHashCode := same.1
  rw [once, twice] at bytes
  exact absurd bytes (by decide)

end Server

end OneProxy.Record
