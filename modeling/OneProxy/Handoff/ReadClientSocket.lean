import Mathlib.Data.List.Forall2
import OneProxy.Lib.Frames
import OneProxy.Lib.LittleEndian
import OneProxy.Util.SocketUtil

/-! Accepted sockets travel to a worker as the bytes of their pointers, on a socket pair. -/

namespace OneProxy

open Memory Frames

/-- The address of a `NetworkSocket`, as a 64-bit pointer value. -/
abbrev Address := UInt64

/-- The bytes of a pointer variable in memory. -/
def pointerBytes (p : Address) : Bytes := LittleEndian.write 8 p.toNat

/-- The pointer that eight bytes of memory stand for. -/
def pointerOfBytes (data : Bytes) : Address := UInt64.ofNat (LittleEndian.read data)

/-- Pointers written to and read from a byte stream. -/
def pointerFormat : Format Address UInt8 where
  width := 8
  encode := pointerBytes
  decode := pointerOfBytes
  width_pos := by decide
  length_encode p := LittleEndian.length_write 8 p.toNat
  decode_encode p := by
    have fits : p.toNat < 256 ^ 8 := p.toNat_lt
    rw [pointerBytes, pointerOfBytes, LittleEndian.read_write fits, UInt64.ofNat_toNat]

/-- The format writes the bytes of the pointer. -/
@[simp] theorem pointerFormat_encode (p : Address) : pointerFormat.encode p = pointerBytes p := rfl

/--
The loop of `read_clientSocket`: the sockets given to `add_task`, with `l` the pointer last read.

There is no answer where the loop is still running when the fuel is used up.
-/
def readLoop : Nat → StringBuf → Address → Option (List Address)
  | 0, _, _ => none
  | fuel + 1, sb, l =>
    if sb.offset < sb.length then
      if sb.remailLength ≥ 8 then do
        let data ← sb.buf.read sb.offset.toNat 8
        let ns := pointerOfBytes data
        let added ← readLoop fuel (sb.setOffset (sb.offset + 8)) ns
        some (ns :: added)
      else do
        -- The offset stays where it is, and the last pointer is added once more.
        let added ← readLoop fuel sb l
        some (l :: added)
    else some []

/-- One call of `read_clientSocket`: the sockets it gives to `add_task`, in order. -/
def readClientSocket (fuel : Nat) (call : ReadCall) : Option (List Address) := do
  let (ret, sb) ← socketReadAllData call .new
  if ret < 0 then some [] else readLoop fuel sb 0

/-- A call that comes to its end having added exactly these sockets. -/
def ReadCall.Returns (call : ReadCall) (added : List Address) : Prop :=
  ∃ fuel, readClientSocket fuel call = some added

/-- The loop runs on while bytes remain. -/
theorem offset_lt_length {sb : StringBuf} (wf : sb.WellFormed) :
    sb.offset < sb.length ↔ 0 < sb.remaining.length := by
  have offsetLe := wf.offset_le
  rw [UInt32.lt_iff_toNat_lt, StringBuf.remaining, List.length_drop, StringBuf.length_bytes wf]
  omega

/-- With nothing remaining the loop ends. -/
theorem readLoop_done {sb : StringBuf} (wf : sb.WellFormed) (empty : sb.remaining = [])
    (fuel : Nat) (l : Address) : readLoop (fuel + 1) sb l = some [] := by
  have stop : ¬ sb.offset < sb.length := by
    rw [offset_lt_length wf, empty]
    simp
  rw [readLoop, if_neg stop]

/-- With a whole pointer remaining the loop adds that pointer and moves past it. -/
theorem readLoop_pointer {sb : StringBuf} (wf : sb.WellFormed) (enough : 8 ≤ sb.remaining.length)
    (fuel : Nat) (l : Address) :
    readLoop (fuel + 1) sb l =
      (readLoop fuel (sb.setOffset (sb.offset + 8)) (pointerOfBytes (sb.remaining.take 8))).map
        (pointerOfBytes (sb.remaining.take 8) :: ·) := by
  have go : sb.offset < sb.length := (offset_lt_length wf).mpr (by omega)
  have room : sb.remailLength ≥ 8 := by
    rw [ge_iff_le, UInt32.le_iff_toNat_le, StringBuf.remailLength_toNat wf]
    exact enough
  -- The eight bytes at the offset are inside the block, and are the first that remain.
  have copied : sb.buf.read sb.offset.toNat 8 = some (sb.remaining.take 8) := by
    have offsetLe := wf.offset_le
    have lengthLe := wf.length_le
    have allocated := wf.allocate_eq
    rw [StringBuf.remaining, List.length_drop, StringBuf.length_bytes wf] at enough
    rw [Block.read_eq (by omega), StringBuf.remaining, StringBuf.bytes, List.drop_take,
      List.take_take, Nat.min_eq_left (by omega)]
  rw [readLoop, if_pos go, if_pos room, copied]
  simp only [Option.bind_eq_bind, Option.bind_some]
  cases readLoop fuel (sb.setOffset (sb.offset + 8)) (pointerOfBytes (sb.remaining.take 8)) <;> rfl

/-- With less than a pointer remaining the loop adds the last pointer and stays where it is. -/
theorem readLoop_stuck {sb : StringBuf} (wf : sb.WellFormed) (some_ : 0 < sb.remaining.length)
    (short : sb.remaining.length < 8) (fuel : Nat) (l : Address) :
    readLoop (fuel + 1) sb l = (readLoop fuel sb l).map (l :: ·) := by
  have go : sb.offset < sb.length := (offset_lt_length wf).mpr some_
  have less : ¬ sb.remailLength ≥ 8 := by
    rw [ge_iff_le, UInt32.le_iff_toNat_le, StringBuf.remailLength_toNat wf]
    simpa using short
  rw [readLoop, if_pos go, if_neg less]
  cases readLoop fuel sb l <;> rfl

/-- Moving past a pointer drops its bytes from what remains. -/
theorem skip_pointer {sb : StringBuf} (wf : sb.WellFormed) (enough : 8 ≤ sb.remaining.length) :
    (sb.setOffset (sb.offset + 8)).WellFormed ∧
      (sb.setOffset (sb.offset + 8)).remaining = sb.remaining.drop 8 :=
  StringBuf.setOffset_spec wf enough

/-- The loop gives a buffer of whole pointers to `add_task` pointer by pointer. -/
theorem readLoop_aligned {sb : StringBuf} (wf : sb.WellFormed)
    (whole : pointerFormat.Aligned sb.remaining) (l : Address) :
    ∃ fuel, readLoop fuel sb l = some (pointerFormat.decodeAll sb.remaining) := by
  -- The induction is on the number of pointers that remain; a step consumes one of them.
  obtain ⟨count, size⟩ := whole
  induction count generalizing sb l with
  | zero =>
    have empty : sb.remaining = [] := List.eq_nil_of_length_eq_zero (by simpa using size)
    exact ⟨1, by rw [readLoop_done wf empty, empty, decodeAll_nil]⟩
  | succ count ih =>
    have width : pointerFormat.width = 8 := rfl
    rw [width] at size ih
    have enough : 8 ≤ sb.remaining.length := by omega
    obtain ⟨wf', rest⟩ := skip_pointer wf enough
    obtain ⟨fuel, done⟩ := ih wf' (pointerOfBytes (sb.remaining.take 8)) (by
      rw [rest, List.length_drop]
      omega)
    refine ⟨fuel + 1, ?_⟩
    rw [readLoop_pointer wf enough, done, rest, decodeAll_step pointerFormat enough]
    rfl

/-- The loop never ends on a buffer that does not hold whole pointers. -/
theorem readLoop_ragged {sb : StringBuf} (wf : sb.WellFormed)
    (ragged : ¬ pointerFormat.Aligned sb.remaining) (fuel : Nat) (l : Address) :
    readLoop fuel sb l = none := by
  -- What remains stays ragged in each step, so it is never empty.
  have width : pointerFormat.width = 8 := rfl
  induction fuel generalizing sb l with
  | zero => rfl
  | succ fuel ih =>
    simp only [Format.Aligned, width] at ragged ih
    rcases Nat.lt_or_ge sb.remaining.length 8 with short | enough
    · have some_ : 0 < sb.remaining.length := by
        by_contra none
        have zero : sb.remaining.length = 0 := by omega
        exact ragged (zero ▸ Nat.dvd_zero 8)
      rw [readLoop_stuck wf some_ short, ih wf ragged, Option.map_none]
    · obtain ⟨wf', rest⟩ := skip_pointer wf enough
      have ragged' : ¬ 8 ∣ (sb.setOffset (sb.offset + 8)).remaining.length := by
        rw [rest, List.length_drop]
        omega
      rw [readLoop_pointer wf enough, ih wf' ragged', Option.map_none]

/-- A call whose bytes are whole pointers adds these pointers, in order. -/
theorem returns_of_aligned {call : ReadCall} (whole : pointerFormat.Aligned call.chunk) :
    call.Returns (pointerFormat.decodeAll call.chunk) := by
  obtain ⟨ret, sb, read, empty | held⟩ := socketReadAllData_new call
  · -- Nothing was received, whether or not the call counts as failed.
    obtain ⟨none, length, offset⟩ := empty
    refine ⟨1, ?_⟩
    have stop : ¬ sb.offset < sb.length := by rw [length, offset]; decide
    simp only [readClientSocket, read, Option.bind_eq_bind, Option.bind_some, none, decodeAll_nil,
      readLoop, if_neg stop, ite_self]
  · obtain ⟨success, wf, bytes⟩ := held
    obtain ⟨fuel, done⟩ := readLoop_aligned wf (bytes ▸ whole) 0
    refine ⟨fuel, ?_⟩
    simp only [readClientSocket, read, Option.bind_eq_bind, Option.bind_some, if_neg success]
    rw [done, bytes]

/-- A call that returns took whole pointers out of the stream. -/
theorem aligned_of_returns {call : ReadCall} {added : List Address}
    (returned : call.Returns added) : pointerFormat.Aligned call.chunk := by
  obtain ⟨fuel, done⟩ := returned
  by_contra ragged
  obtain ⟨ret, sb, read, empty | held⟩ := socketReadAllData_new call
  · exact ragged (by rw [empty.1]; exact aligned_nil _)
  · -- Ragged bytes keep the loop running for ever.
    obtain ⟨success, wf, bytes⟩ := held
    simp only [readClientSocket, read, Option.bind_eq_bind, Option.bind_some,
      if_neg success] at done
    rw [readLoop_ragged wf (bytes ▸ ragged)] at done
    cases done

/-- More fuel does not change what a finished loop has added. -/
theorem readLoop_mono {fuel : Nat} {sb : StringBuf} {l : Address} {added : List Address}
    (done : readLoop fuel sb l = some added) (more : Nat) :
    readLoop (fuel + more) sb l = some added := by
  induction fuel generalizing sb l added with
  | zero => cases done
  | succ fuel ih =>
    have shift : fuel + 1 + more = fuel + more + 1 := by omega
    rw [shift]
    unfold readLoop at done ⊢
    split at done
    · next go =>
      rw [if_pos go]
      split at done
      · next room =>
        simp only [if_pos room, Option.bind_eq_bind, Option.bind_eq_some_iff] at done ⊢
        obtain ⟨data, copied, rest, finished, same⟩ := done
        exact ⟨data, copied, rest, ih finished, same⟩
      · next less =>
        simp only [if_neg less, Option.bind_eq_bind, Option.bind_eq_some_iff] at done ⊢
        obtain ⟨rest, finished, same⟩ := done
        exact ⟨rest, ih finished, same⟩
    · next stop => rwa [if_neg stop]

/-- A call comes to at most one end. -/
theorem returns_unique {call : ReadCall} {added other : List Address}
    (first : call.Returns added) (second : call.Returns other) : added = other := by
  -- Both are what the call adds with the fuel of the two together.
  have mono : ∀ {fuel} more {result}, readClientSocket fuel call = some result →
      readClientSocket (fuel + more) call = some result := by
    intro fuel more result done
    simp only [readClientSocket, Option.bind_eq_bind, Option.bind_eq_some_iff] at done ⊢
    obtain ⟨⟨ret, sb⟩, read, rest⟩ := done
    refine ⟨(ret, sb), read, ?_⟩
    dsimp only at rest ⊢
    split at rest
    · next failed => rwa [if_pos failed]
    · next success => rw [if_neg success]; exact readLoop_mono rest more
  obtain ⟨fuel, done⟩ := first
  obtain ⟨fuel', done'⟩ := second
  have here := mono fuel' done
  have there := mono fuel done'
  rw [Nat.add_comm fuel' fuel, here] at there
  exact Option.some.inj there

/-- Every call of a sequence returns, and all they add is exactly the given pointers in order. -/
def Delivered (calls : List ReadCall) (pointers : List Address) : Prop :=
  ∃ added, List.Forall₂ ReadCall.Returns calls added ∧ added.flatten = pointers

/-- Calls that take whole pointers out of the stream each add the pointers they take. -/
theorem forall_returns {calls : List ReadCall}
    (whole : ∀ call ∈ calls, pointerFormat.Aligned call.chunk) :
    List.Forall₂ ReadCall.Returns calls
      (calls.map fun call => pointerFormat.decodeAll call.chunk) := by
  induction calls with
  | nil => exact .nil
  | cons call calls ih =>
    exact .cons (returns_of_aligned (whole call (by simp)))
      (ih fun other member => whole other (by simp [member]))

/--
Whatever the stream of written pointers is cut into, the calls terminate and deliver it if and only
if each of them takes whole pointers.
-/
theorem delivered_iff {calls : List ReadCall} {pointers : List Address}
    (cut : (calls.map ReadCall.chunk).flatten = pointerFormat.encodeAll pointers) :
    Delivered calls pointers ↔ ∀ call ∈ calls, 8 ∣ call.chunk.length := by
  constructor
  · -- A call that returns at all took whole pointers.
    rintro ⟨added, returned, -⟩
    have each := returned.imp fun call result done => And.intro (aligned_of_returns done) done
    exact ((List.forall₂_and_left _ _).mp each).1
  · intro whole
    have pieces : (calls.map ReadCall.chunk).flatMap pointerFormat.decodeAll = pointers := by
      refine decode_pieces pointerFormat cut ?_
      intro chunk member
      obtain ⟨call, called, rfl⟩ := List.mem_map.mp member
      exact whole call called
    refine ⟨_, forall_returns whole, ?_⟩
    rwa [List.flatMap_map, List.flatMap_def] at pieces

/-- Two pointers received together and a third one received alone are delivered. -/
theorem delivered_whole :
    Delivered [.offering (pointerBytes 0x7f0010 ++ pointerBytes 0x7f0020) (by decide),
      .offering (pointerBytes 0x7f0030) (by decide)] [0x7f0010, 0x7f0020, 0x7f0030] :=
  (delivered_iff (by decide)).mpr (by decide)

/-- A pointer received in two halves is not delivered. -/
theorem split_pointer_undelivered :
    ([ReadCall.offering ((pointerBytes 0x7f0010).take 4) (by decide),
        ReadCall.offering ((pointerBytes 0x7f0010).drop 4) (by decide)].map ReadCall.chunk).flatten
      = pointerFormat.encodeAll [0x7f0010] ∧
    ¬ Delivered [.offering ((pointerBytes 0x7f0010).take 4) (by decide),
        .offering ((pointerBytes 0x7f0010).drop 4) (by decide)] [0x7f0010] := by
  refine ⟨by decide, ?_⟩
  rintro ⟨added, returned, -⟩
  -- The first half alone already keeps its call from returning.
  cases returned with
  | cons first rest =>
    have whole := aligned_of_returns first
    revert whole
    decide

end OneProxy
