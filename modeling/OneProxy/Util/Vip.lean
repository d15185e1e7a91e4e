import OneProxy.Lib.Runs
import OneProxy.Util.Tool

/-! The virtual address that the proxies of one network segment take over from each other. -/

namespace OneProxy

/-! ## The text of a hardware address -/

/-- A hardware address. -/
structure Mac where
  bytes : Bytes
  length : bytes.length = 6

/-- A digit as `%x` prints it. -/
def hexDigit (n : Nat) : UInt8 := UInt8.ofNat (if n < 10 then 48 + n else 87 + n)

/-- What `%02x` prints of a byte. -/
def hex02 (byte : UInt8) : Bytes := [hexDigit (byte.toNat / 16), hexDigit (byte.toNat % 16)]

/-- What `get_macAddresss` leaves in its buffer. -/
def Mac.text (mac : Mac) : Bytes := List.intercalate [58] (mac.bytes.map hex02)

/-! ## One proxy -/

/-- Where the loop of `start` is. -/
inductive VipPhase
  /-- Before `get_vipMacAddress`. -/
  | receive
  /-- Before the received address is compared. -/
  | check
  /-- Before the address is pinged. -/
  | ping
  deriving DecidableEq

/-- `Vip`: what one proxy knows, its interface, and the datagrams that wait in its socket. -/
structure Vip where
  gvipmac : Bytes
  isUp : Bool
  inbox : List Bytes
  phase : VipPhase

namespace Vip

/-- A proxy that has just started: its interface is down, and its buffer is cleared. -/
def start : Vip := ⟨List.replicate 32 0, false, [], .receive⟩

/-- `memcpy` of a text into the buffer: the bytes behind it stay. -/
def copy (buffer text : Bytes) : Bytes := text ++ buffer.drop text.length

/-- `get_vipMacAddress`: at most one datagram is taken. -/
def getVipMacAddress (vip : Vip) : Vip :=
  match vip.inbox with
  | [] => { vip with phase := .check }
  | datagram :: rest =>
    let vipmac := Tool.cStr (datagram.take 32)
    { vip with
      gvipmac := if vipmac.length > 0 then copy vip.gvipmac vipmac else vip.gvipmac
      inbox := rest
      phase := .check }

/-- The address belongs to nobody, or to another one. -/
def Foreign (vip : Vip) (localmac : Bytes) : Prop :=
  let gvipmac := Tool.cStr vip.gvipmac
  gvipmac.length ≤ 0 ∨ gvipmac.length ≠ localmac.length ∨
    gvipmac.take gvipmac.length ≠ localmac.take gvipmac.length

instance (vip : Vip) (localmac : Bytes) : Decidable (vip.Foreign localmac) :=
  inferInstanceAs (Decidable (_ ∨ _ ∨ _))

/-- The address is taken off the interface if it is another one's. -/
def check (vip : Vip) (localmac : Bytes) : Vip :=
  { vip with isUp := if vip.Foreign localmac then false else vip.isUp, phase := .ping }

end Vip

/-! ## The segment -/

/-- What becomes of `set_vip_address`. -/
inductive Claim
  /-- The address cannot be set. -/
  | refused
  /-- The address is set, but nothing is sent. -/
  | silent
  /-- The address is set, and all are told. -/
  | sent
  deriving DecidableEq

/-- What happens on the segment. -/
inductive VipStep (ι : Type)
  | receive (i : ι)
  | check (i : ι)
  /-- The address answers. -/
  | answered (i : ι)
  /-- The address does not answer, or the answer is lost. -/
  | claim (i : ι) (claim : Claim)
  /-- A datagram that is under way reaches its proxy. -/
  | deliver (i : ι) (n : Nat)
  /-- A datagram that is under way is lost. -/
  | lose (i : ι) (n : Nat)

/-- The proxies of a segment, and the datagrams that are under way to each of them. -/
structure Segment (ι : Type) where
  vips : ι → Vip
  flight : ι → List Bytes

namespace Segment

variable {ι : Type} [DecidableEq ι]

/-- All proxies have just started. -/
def start : Segment ι := ⟨fun _ => .start, fun _ => []⟩

/-- Changes one proxy. -/
def setVip (s : Segment ι) (i : ι) (vip : Vip) : Segment ι :=
  { s with vips := Function.update s.vips i vip }

/--
`set_vip_address` without `isdel`.

The interface is taken down first. The sender's own socket gets a broadcast at once, and the others
get it whenever the network brings it.
-/
def setVipAddress (s : Segment ι) (i : ι) (text : Bytes) : Claim → Segment ι
  | .refused => s.setVip i { s.vips i with isUp := false, phase := .receive }
  | .silent => s.setVip i { s.vips i with isUp := true, phase := .receive }
  | .sent =>
    let vip := s.vips i
    { vips := Function.update s.vips i
        { vip with isUp := true, inbox := vip.inbox ++ [text], phase := .receive }
      flight := fun j => if j = i then s.flight j else text :: s.flight j }

/-- A datagram that was under way comes to its proxy's socket. -/
def deliver (s : Segment ι) (i : ι) (n : Nat) (datagram : Bytes) : Segment ι where
  vips := Function.update s.vips i
    { s.vips i with inbox := (s.vips i).inbox ++ [datagram] }
  flight := Function.update s.flight i ((s.flight i).eraseIdx n)

/-- What a step leaves. -/
def next (mac : ι → Mac) (s : Segment ι) : VipStep ι → Option (Segment ι)
  | .receive i =>
    if (s.vips i).phase = .receive then some (s.setVip i (s.vips i).getVipMacAddress) else none
  | .check i =>
    if (s.vips i).phase = .check then some (s.setVip i ((s.vips i).check (mac i).text)) else none
  | .answered i =>
    if (s.vips i).phase = .ping then some (s.setVip i { s.vips i with phase := .receive }) else none
  | .claim i claim =>
    if (s.vips i).phase = .ping then some (s.setVipAddress i (mac i).text claim) else none
  | .deliver i n => (s.flight i)[n]?.map (s.deliver i n)
  | .lose i n => (s.flight i)[n]?.map fun _ =>
    { s with flight := Function.update s.flight i ((s.flight i).eraseIdx n) }

/-- Nothing is lost in a step. -/
def Lossless : VipStep ι → Prop
  | .claim _ .silent | .lose .. => False
  | _ => True

instance : DecidablePred (Lossless (ι := ι))
  | .claim _ claim => decidable_of_iff (claim ≠ .silent) (by cases claim <;> simp [Lossless])
  | .lose .. => .isFalse id
  | .receive _ | .check _ | .answered _ | .deliver .. => .isTrue trivial

/-- The segment from its start on, if no datagram is lost. -/
def system (mac : ι → Mac) : Runs.System (Segment ι) (VipStep ι) :=
  (Runs.System.ofStep (· = start) (next mac)).restrict fun _ step => Lossless step

end Segment

/-! ## Texts -/

/-- Both digits of a byte are hexadecimal. -/
theorem digits_lt (byte : UInt8) : byte.toNat / 16 < 16 ∧ byte.toNat % 16 < 16 := by
  have small : byte.toNat < 256 := byte.toNat_lt
  omega

theorem hexDigit_inj : ∀ m < 16, ∀ n < 16, hexDigit m = hexDigit n → m = n := by decide

/-- No digit is a colon or a NUL. -/
theorem hexDigit_plain : ∀ n < 16, hexDigit n ≠ 58 ∧ hexDigit n ≠ 0 := by decide

/-- The two digits of a byte are those of no other. -/
theorem hex02_injective : Function.Injective hex02 := by
  intro byte other same
  obtain ⟨high, low⟩ := (by simpa [hex02] using same)
  have high' := hexDigit_inj _ (digits_lt byte).1 _ (digits_lt other).1 high
  have low' := hexDigit_inj _ (digits_lt byte).2 _ (digits_lt other).2 low
  exact UInt8.toNat_inj.mp (by omega)

theorem hex02_plain (byte : UInt8) : 58 ∉ hex02 byte ∧ 0 ∉ hex02 byte := by
  have high := hexDigit_plain _ (digits_lt byte).1
  have low := hexDigit_plain _ (digits_lt byte).2
  simp [hex02, high.1.symm, high.2.symm, low.1.symm, low.2.symm]

namespace Mac

/-- The texts of two addresses are the same only if the addresses are. -/
theorem text_injective : Function.Injective text := by
  intro mac other same
  have pieces : ∀ mac : Mac, (mac.text).splitOn 58 = mac.bytes.map hex02 := by
    intro mac
    apply List.splitOn_intercalate
    · intro piece inside
      obtain ⟨byte, _, rfl⟩ := List.mem_map.mp inside
      exact (hex02_plain byte).1
    · intro none
      have six := mac.length
      rw [List.map_eq_nil_iff.mp none] at six
      exact absurd six (by decide)
  have bytes := List.map_injective_iff.mpr hex02_injective
    ((pieces mac).symm.trans ((congrArg (List.splitOn 58) same).trans (pieces other)))
  cases mac
  cases other
  cases bytes
  rfl

/-- Each byte but the last is three characters. -/
theorem length_pieces (bytes : Bytes) (some_ : bytes ≠ []) :
    (List.intercalate [58] (bytes.map hex02)).length + 1 = 3 * bytes.length ∧
      0 ∉ List.intercalate [58] (bytes.map hex02) := by
  -- The induction is on the bytes; a byte that is not the last brings its colon.
  induction bytes with
  | nil => exact absurd rfl some_
  | cons byte rest ih =>
    have plain := (hex02_plain byte).2
    have two : (hex02 byte).length = 2 := rfl
    cases rest with
    | nil =>
      rw [List.map_singleton, List.intercalate_singleton]
      exact ⟨rfl, plain⟩
    | cons next rest =>
      obtain ⟨length, later⟩ := ih (List.cons_ne_nil next rest)
      rw [List.map_cons] at length later
      rw [List.map_cons, List.map_cons, List.intercalate_cons_cons]
      constructor
      · simp only [List.length_append, List.length_cons, List.length_nil, two] at length ⊢
        omega
      · simp [plain, later]

/-- The text of an address has seventeen characters, none of which is a NUL. -/
theorem text_plain (mac : Mac) : mac.text.length = 17 ∧ 0 ∉ mac.text := by
  have six := mac.length
  have some_ : mac.bytes ≠ [] := by
    intro none
    simp [none] at six
  obtain ⟨length, plain⟩ := length_pieces mac.bytes some_
  exact ⟨by unfold text; omega, plain⟩

/-- The buffer once the text of an address has been copied into it. -/
def held (mac : Mac) : Bytes := mac.text ++ List.replicate 15 0

/-- A text without a NUL is what is printed of it, whatever NULs come behind it. -/
theorem cStr_text (mac : Mac) (n : Nat) :
    Tool.cStr (mac.text ++ List.replicate n 0) = mac.text := by
  have plain := mac.text_plain.2
  have stops : (List.replicate n (0 : UInt8)).takeWhile (· ≠ 0) = [] := by cases n <;> rfl
  have chars : ∀ c ∈ mac.text, decide (c ≠ 0) = true := by
    intro c inside
    have some_ : c ≠ 0 := fun zero => plain (zero ▸ inside)
    simpa using some_
  rw [Tool.cStr, List.takeWhile_append_of_pos chars, stops, List.append_nil]

theorem cStr_held (mac : Mac) : Tool.cStr mac.held = mac.text := mac.cStr_text 15

end Mac

/-! ## What the proxies hear -/

namespace Segment

variable {ι : Type} {mac : ι → Mac} {s t : Segment ι}

/-- A buffer holds nothing, or the text of one address. -/
def Clean (mac : ι → Mac) (buffer : Bytes) : Prop :=
  buffer = List.replicate 32 0 ∨ ∃ i, buffer = (mac i).held

/-- Copying the text of an address leaves nothing of what was held before. -/
theorem copy_clean {buffer : Bytes} (clean : Clean mac buffer) (i : ι) :
    Vip.copy buffer (mac i).text = (mac i).held := by
  have seventeen := fun i => (mac i).text_plain.1
  unfold Vip.copy Mac.held
  rcases clean with rfl | ⟨j, rfl⟩
  · rw [seventeen]
    rfl
  · -- All texts are as long as each other.
    rw [Mac.held, seventeen, ← seventeen j, List.drop_left]

/-- Taking the first datagram leaves the text of its address in the buffer. -/
theorem getVipMacAddress_cons {vip : Vip} {rest : List Bytes} {i : ι}
    (clean : Clean mac vip.gvipmac) (first : vip.inbox = (mac i).text :: rest) :
    vip.getVipMacAddress =
      { vip with gvipmac := (mac i).held, inbox := rest, phase := .check } := by
  have seventeen := (mac i).text_plain.1
  have short : (mac i).text.take 32 = (mac i).text := List.take_of_length_le (by omega)
  have whole : Tool.cStr (mac i).text = (mac i).text := by simpa using (mac i).cStr_text 0
  simp only [Vip.getVipMacAddress, first, short, whole, seventeen, Nat.zero_lt_succ, if_true,
    copy_clean clean]

theorem getVipMacAddress_nil {vip : Vip} (empty : vip.inbox = []) :
    vip.getVipMacAddress = { vip with phase := .check } := by
  simp only [Vip.getVipMacAddress, empty]

/-- Only the own text is not another one's. -/
theorem foreign_iff {vip : Vip} (clean : Clean mac vip.gvipmac) (i : ι) :
    vip.Foreign (mac i).text ↔ Tool.cStr vip.gvipmac ≠ (mac i).text := by
  have seventeen := fun i => (mac i).text_plain.1
  unfold Vip.Foreign
  rcases clean with none | ⟨j, held⟩
  · have empty : Tool.cStr vip.gvipmac = [] := by
      rw [none]
      decide
    have long : (mac i).text ≠ [] := by
      intro none
      have length := seventeen i
      rw [none] at length
      exact absurd length (by decide)
    simp [empty, long.symm]
  · have all : ∀ k, (mac k).text.take 17 = (mac k).text := fun k =>
      List.take_of_length_le (Nat.le_of_eq (seventeen k))
    simp [held, Mac.cStr_held, seventeen, all]

/-- The last datagram that has come to a proxy, whether it has been taken yet or not. -/
def latest (vip : Vip) : Bytes := vip.inbox.getLast?.getD (Tool.cStr vip.gvipmac)

/-- What is known of all proxies and of what is under way to them. -/
structure Heard (mac : ι → Mac) (s : Segment ι) : Prop where
  buffer : ∀ i, Clean mac (s.vips i).gvipmac
  inbox : ∀ i, ∀ datagram ∈ (s.vips i).inbox, ∃ j, datagram = (mac j).text
  /-- Nothing of a proxy's own is under way to it. -/
  flight : ∀ i, ∀ datagram ∈ s.flight i, ∃ j, j ≠ i ∧ datagram = (mac j).text
  /-- Of two proxies that have heard themselves last, one does not know of the other yet. -/
  crossed : ∀ i j, i ≠ j → latest (s.vips i) = (mac i).text → latest (s.vips j) = (mac j).text →
    (mac j).text ∈ s.flight i ∨ (mac i).text ∈ s.flight j
  /-- The address is on the interface of those only that have heard themselves, or will. -/
  own : ∀ i, (s.vips i).isUp = true → (s.vips i).phase ≠ .check →
    Tool.cStr (s.vips i).gvipmac = (mac i).text ∨ (mac i).text ∈ (s.vips i).inbox

variable [DecidableEq ι]

/-- A change of one proxy that leaves what it has heard last. -/
theorem Heard.setVip {i : ι} {vip : Vip} (heard : s.Heard mac) (buffer : Clean mac vip.gvipmac)
    (inbox : ∀ datagram ∈ vip.inbox, ∃ j, datagram = (mac j).text)
    (same : latest vip = latest (s.vips i))
    (own : vip.isUp = true → vip.phase ≠ .check →
      Tool.cStr vip.gvipmac = (mac i).text ∨ (mac i).text ∈ vip.inbox) :
    (s.setVip i vip).Heard mac := by
  have last : ∀ j, latest ((s.setVip i vip).vips j) = latest (s.vips j) := by
    intro j
    by_cases self : j = i
    · subst self
      simpa [Segment.setVip] using same
    · simp [Segment.setVip, self]
  refine ⟨fun j => ?_, fun j => ?_, heard.flight, fun j k differ => ?_, fun j => ?_⟩
  · by_cases self : j = i
    · subst self
      simpa [Segment.setVip] using buffer
    · simpa [Segment.setVip, self] using heard.buffer j
  · by_cases self : j = i
    · subst self
      simpa [Segment.setVip] using inbox
    · simpa [Segment.setVip, self] using heard.inbox j
  · rw [last j, last k]
    exact heard.crossed j k differ
  · by_cases self : j = i
    · subst self
      simpa [Segment.setVip] using own
    · simpa [Segment.setVip, self] using heard.own j

/-- Taking a datagram leaves what a proxy has heard last. -/
theorem Heard.receive (heard : s.Heard mac) (i : ι) :
    (s.setVip i (s.vips i).getVipMacAddress).Heard mac := by
  cases waiting : (s.vips i).inbox with
  | nil =>
    rw [getVipMacAddress_nil waiting]
    exact heard.setVip (heard.buffer i) (heard.inbox i) rfl fun _ checking => absurd rfl checking
  | cons first rest =>
    have texts := heard.inbox i
    rw [waiting] at texts
    obtain ⟨j, text⟩ := texts first List.mem_cons_self
    rw [getVipMacAddress_cons (heard.buffer i) (text ▸ waiting)]
    refine heard.setVip (Or.inr ⟨j, rfl⟩) ?_ ?_ fun _ checking => absurd rfl checking
    · exact fun datagram inside => texts datagram (List.mem_cons_of_mem first inside)
    · -- The last one is taken from the socket to the buffer.
      cases rest with
      | nil => simp [latest, waiting, text, Mac.cStr_held]
      | cons second rest => simp [latest, waiting, List.getLast?_cons]

/-- Broadcasting is heard by the proxy itself at once, and is under way to the others. -/
theorem Heard.sent (heard : s.Heard mac) (i : ι) :
    (s.setVipAddress i (mac i).text .sent).Heard mac := by
  have others : ∀ j, j ≠ i → (s.setVipAddress i (mac i).text .sent).vips j = s.vips j := by
    intro j differ
    simp [setVipAddress, differ]
  have told : ∀ j, j ≠ i →
      (s.setVipAddress i (mac i).text .sent).flight j = (mac i).text :: s.flight j := by
    intro j differ
    simp [setVipAddress, differ]
  constructor
  · intro j
    by_cases self : j = i
    · subst self
      simpa [setVipAddress] using heard.buffer j
    · exact others j self ▸ heard.buffer j
  · intro j datagram inside
    by_cases self : j = i
    · subst self
      simp only [setVipAddress, Function.update_self] at inside
      rcases List.mem_append.mp inside with old | new
      · exact heard.inbox j datagram old
      · exact ⟨j, List.mem_singleton.mp new⟩
    · exact heard.inbox j datagram (others j self ▸ inside)
  · intro j datagram inside
    by_cases self : j = i
    · subst self
      exact heard.flight j datagram (by simpa [setVipAddress] using inside)
    · rw [told j self] at inside
      rcases List.mem_cons.mp inside with new | old
      · exact ⟨i, Ne.symm self, new⟩
      · exact heard.flight j datagram old
  · intro j k differ first second
    -- Whoever it is that is not the sender does not know of the sender yet.
    by_cases self : j = i
    · subst self
      exact Or.inr (told k (Ne.symm differ) ▸ List.mem_cons_self)
    · rw [told j self]
      by_cases self' : k = i
      · subst self'
        exact Or.inl List.mem_cons_self
      · rw [told k self']
        rw [others j self] at first
        rw [others k self'] at second
        exact (heard.crossed j k differ first second).imp (List.mem_cons_of_mem _)
          (List.mem_cons_of_mem _)
  · intro j up checked
    by_cases self : j = i
    · subst self
      exact Or.inr (by simp [setVipAddress])
    · rw [others j self] at up checked ⊢
      exact heard.own j up checked

/-- A datagram comes to its proxy, which is another one's. -/
theorem Heard.deliver {i : ι} {n : Nat} {datagram : Bytes} (injective : Function.Injective mac)
    (heard : s.Heard mac) (there : (s.flight i)[n]? = some datagram) :
    (s.deliver i n datagram).Heard mac := by
  obtain ⟨sender, other, text⟩ := heard.flight i datagram (List.mem_of_getElem? there)
  have last : latest { s.vips i with inbox := (s.vips i).inbox ++ [datagram] } =
      (mac sender).text := by simp [latest, text]
  -- The proxy has not heard itself last.
  have foreign : (mac sender).text ≠ (mac i).text := fun same =>
    other (injective (Mac.text_injective same))
  constructor
  · intro j
    by_cases self : j = i
    · subst self
      simpa [Segment.deliver] using heard.buffer j
    · simpa [Segment.deliver, self] using heard.buffer j
  · intro j datagram' inside
    by_cases self : j = i
    · subst self
      simp only [Segment.deliver, Function.update_self] at inside
      rcases List.mem_append.mp inside with old | new
      · exact heard.inbox j datagram' old
      · exact ⟨sender, (List.mem_singleton.mp new).trans text⟩
    · exact heard.inbox j datagram' (by simpa [Segment.deliver, self] using inside)
  · intro j datagram' inside
    by_cases self : j = i
    · subst self
      simp only [Segment.deliver, Function.update_self] at inside
      exact heard.flight j datagram' (List.mem_of_mem_eraseIdx inside)
    · exact heard.flight j datagram' (by simpa [Segment.deliver, self] using inside)
  · intro j k differ first second
    by_cases self : j = i
    · subst self
      simp only [Segment.deliver, Function.update_self] at first
      exact absurd (last.symm.trans first) foreign
    · by_cases self' : k = i
      · subst self'
        simp only [Segment.deliver, Function.update_self] at second
        exact absurd (last.symm.trans second) foreign
      · simp only [Segment.deliver, Function.update_of_ne self, Function.update_of_ne self'] at first second ⊢
        exact heard.crossed j k differ first second
  · intro j up checked
    by_cases self : j = i
    · subst self
      simp only [Segment.deliver, Function.update_self] at up checked ⊢
      exact (heard.own j up checked).imp_right (List.mem_append_left _)
    · simp only [Segment.deliver, Function.update_of_ne self] at up checked ⊢
      exact heard.own j up checked

/-- Every step in which nothing is lost keeps what is known. -/
theorem Heard.step {step : VipStep ι} (injective : Function.Injective mac) (heard : s.Heard mac)
    (lossless : Lossless step) (moved : next mac s step = some t) : t.Heard mac := by
  cases step with
  | receive i =>
    obtain ⟨_, rfl⟩ := (by simpa [next] using moved)
    exact heard.receive i
  | check i =>
    obtain ⟨_, rfl⟩ := (by simpa [next] using moved)
    refine heard.setVip (heard.buffer i) (heard.inbox i) rfl fun up _ => ?_
    -- What stays up has the own text in its buffer.
    refine Or.inl ?_
    by_contra other
    simp [Vip.check, (foreign_iff (heard.buffer i) i).mpr other] at up
  | answered i =>
    obtain ⟨pinged, rfl⟩ := (by simpa [next] using moved)
    refine heard.setVip (heard.buffer i) (heard.inbox i) rfl fun up _ => ?_
    exact heard.own i up (by simp [pinged])
  | claim i claim =>
    obtain ⟨_, rfl⟩ := (by simpa [next] using moved)
    cases claim with
    | refused => exact heard.setVip (heard.buffer i) (heard.inbox i) rfl fun up => by simp at up
    | silent => exact lossless.elim
    | sent => exact heard.sent i
  | deliver i n =>
    obtain ⟨datagram, there, rfl⟩ := Option.map_eq_some_iff.mp moved
    exact heard.deliver injective there
  | lose => exact lossless.elim

theorem heard_of_reachable (injective : Function.Injective mac)
    (reached : Runs.Reachable (system mac) s) : s.Heard mac := by
  apply reached.invariant
  · intro first begun
    subst begun
    -- Nothing has been heard, and the empty text is that of no address.
    have silent : ∀ i, latest Vip.start ≠ (mac i).text := by
      intro i same
      have seventeen := (mac i).text_plain.1
      rw [← same] at seventeen
      exact absurd seventeen (by decide)
    exact ⟨fun _ => Or.inl rfl, by simp [start, Vip.start], by simp [start],
      fun i _ _ first => absurd first (silent i), by simp [start, Vip.start]⟩
  · exact fun a step b heard moved => heard.step injective moved.1 moved.2

/-- A proxy has taken all that came to it, and has compared it. -/
structure Settled (s : Segment ι) (i : ι) : Prop where
  inbox : (s.vips i).inbox = []
  phase : (s.vips i).phase ≠ .check

omit [DecidableEq ι] in
/-- A proxy that has settled keeps the address only if it has heard itself last. -/
theorem latest_of_settled {i : ι} (heard : s.Heard mac) (settled : s.Settled i)
    (up : (s.vips i).isUp = true) : latest (s.vips i) = (mac i).text := by
  rcases heard.own i up settled.phase with held | waiting
  · simpa [latest, settled.inbox] using held
  · rw [settled.inbox] at waiting
    exact absurd waiting List.not_mem_nil

/-- The addresses of two proxies. -/
def twoMacs (i : Bool) : Mac := ⟨[0, 0, 0, 0, 0, if i then 1 else 0], rfl⟩

/-- Both proxies take the address, and one of them hears the other last. -/
def takenTwice : List (VipStep Bool) :=
  [.receive true, .check true, .receive false, .check false, .claim true .sent, .claim false .sent,
    .deliver true 0, .receive true, .check true, .answered true, .receive true, .check true,
    .claim true .sent, .deliver false 0, .deliver false 0, .receive true, .check true,
    .answered true, .receive false, .check false, .answered false, .receive false, .check false,
    .answered false, .receive false, .check false, .answered false]

end Segment

end OneProxy
