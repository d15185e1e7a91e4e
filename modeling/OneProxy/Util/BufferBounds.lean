import OneProxy.Lib.AllAlong
import OneProxy.Util.StringBufLaws

/-! Whether the counters of a buffer stay within its block, whatever the allocator answers. -/

namespace OneProxy.StringBuf

open Memory Runs

/-- The counters are in order, and the capacity is there. -/
structure Sound (sb : StringBuf) : Prop where
  length_le : sb.length.toNat ≤ sb.allocateLen.toNat
  allocate_le : sb.allocateLen.toNat ≤ sb.buf.size

/-- A call that may grow the buffer, with sizes of 32 bits. -/
inductive GrowCall
  | reallocMem (size : UInt32)
  | append (data : Bytes) (small : data.length < 0x100000000)
  | appendStr (str : Bytes)
  | insert (pos : UInt32) (data : Bytes) (small : data.length < 0x80000000)
  | insertNegative (pos : UInt32) (dataLen : Int32) (negative : dataLen < 0)

namespace GrowCall

/-- One call, undefined where a byte would be written outside the block. -/
def run (sb : StringBuf) : Allocator UInt8 × GrowCall → Option StringBuf
  | (m, .reallocMem size) => (sb.reallocMem m size).map (·.2)
  | (m, .append data _) => sb.append m data
  | (m, .appendStr str) => sb.appendStr m str
  | (m, .insert pos data _) => sb.insert m pos data
  -- As a `size_t`, a negative length is more than any block holds.
  | (_, .insertNegative ..) => none

end GrowCall

/--
The bytes fit: into the block that is asked for where the buffer grows, else into the old one.
-/
def Held (m : Allocator UInt8) (sb : StringBuf) (grows : Prop) [Decidable grows] (size : UInt32)
    (total : Nat) : Prop :=
  if grows then (m.alloc (alignment size).toNat).isSome ∧ total ≤ maxSize else total ≤ sb.buf.size

/--
A call asks for no block that it does not get, and its sizes do not wrap around.

Growing without contents keeps to an old block that is large enough.
-/
def Fits (sb : StringBuf) : Allocator UInt8 × GrowCall → Prop
  | (m, .reallocMem size) => sb.allocateLen < size →
      sb.length.toNat ≤ (alignment size).toNat ∧
        ((m.alloc (alignment size).toNat).isSome ∨ (alignment size).toNat ≤ sb.buf.size)
  | (m, .append data _) =>
      Held m sb (sb.allocateLen < sb.length + UInt32.ofNat data.length)
        (sb.length + UInt32.ofNat data.length) (sb.length.toNat + data.length)
  | (m, .appendStr str) =>
      Held m sb (sb.allocateLen.toNat < sb.length.toNat + str.length)
        (UInt32.ofNat (sb.length.toNat + str.length)) (sb.length.toNat + str.length)
  | (m, .insert pos data _) =>
      if pos > sb.length then
        Held m sb True (sb.length + UInt32.ofNat data.length + (pos - sb.length))
          (pos.toNat + data.length)
      else
        Held m sb (sb.allocateLen < sb.length + UInt32.ofNat data.length)
          (sb.length + UInt32.ofNat data.length) (sb.length.toNat + data.length)
  | (_, .insertNegative ..) => False

section

variable {m : Allocator UInt8} {sb : StringBuf}

/-- The held bytes of a sound buffer are there to be read. -/
theorem Sound.exists_read (sound : sb.Sound) {pos count : Nat}
    (inside : pos + count ≤ sb.length.toNat) :
    ∃ kept, sb.buf.read pos count = some kept ∧ kept.length = count := by
  have bounds := sound.length_le
  have block := sound.allocate_le
  have read := Block.read_eq (show pos + count ≤ sb.buf.size by omega)
  exact ⟨_, read, Block.length_read read⟩

/-- A total lies within its rounded size exactly if it can be rounded without wrapping around. -/
theorem le_alignment_iff {size : UInt32} {total : Nat} (positive : 0 < total)
    (same : size.toNat = total % 0x100000000) :
    total ≤ (alignment size).toNat ↔ total ≤ maxSize := by
  rw [alignment_toNat, maxSize]
  omega

/-- As many bytes lie in a new block as were asked for, if it is there. -/
theorem size_alloc_eq (count : Nat) :
    Block.size (m.alloc count) = if (m.alloc count).isSome then count else 0 := by
  cases answer : m.alloc count with
  | none => rfl
  | some cells => exact Allocator.size_alloc answer

/--
What lies in a new block, if anything does: what does not wrap around, where there is a block.
-/
theorem le_size_alloc_iff {size : UInt32} {total : Nat} (positive : 0 < total)
    (same : size.toNat = total % 0x100000000) :
    total ≤ Block.size (m.alloc (alignment size).toNat) ↔
      (m.alloc (alignment size).toNat).isSome ∧ total ≤ maxSize := by
  rw [size_alloc_eq]
  split
  · next answers => rw [le_alignment_iff positive same, and_iff_right answers]
  · next refused => exact iff_of_false (by omega) fun both => refused both.1

/-- Growing without contents ends well in a block of the size that is recorded. -/
theorem Sound.reallocMem_iff (sound : sb.Sound) (size : UInt32) :
    (∃ after, (sb.reallocMem m size).map (·.2) = some after ∧ after.Sound) ↔
      Fits sb (m, .reallocMem size) := by
  have bounds := sound.length_le
  rw [Fits, reallocMem]
  by_cases enough : sb.allocateLen ≥ size
  · rw [if_pos enough]
    exact iff_of_true ⟨sb, rfl, sound⟩ fun less => absurd less (UInt32.not_lt.mpr enough)
  · rw [if_neg enough]
    have less : sb.allocateLen < size := UInt32.not_le.mp enough
    simp only [less, forall_const]
    cases answer : m.alloc (alignment size).toNat with
    | none =>
      simp only [Option.map_some, Option.some.injEq, exists_eq_left', Option.isSome_none,
        Bool.false_eq_true, false_or]
      exact ⟨fun after => ⟨after.length_le, after.allocate_le⟩, fun fits => ⟨fits.1, fits.2⟩⟩
    | some cells =>
      have isSize := Allocator.size_alloc answer
      simp only [Option.isSome_some, true_or, and_true]
      -- A new block that is too small for the bytes is recorded, but the bytes stay in the old one.
      by_cases above : sb.length > alignment size
      · rw [if_pos above]
        have above' := UInt32.lt_iff_toNat_lt.mp above
        refine iff_of_false (fun ends => ?_) (Nat.not_le.mpr above')
        obtain ⟨after, same, after'⟩ := ends
        cases same
        exact Nat.not_le.mpr above' after'.length_le
      · rw [if_neg above]
        have inside : sb.length.toNat ≤ (alignment size).toNat :=
          UInt32.le_iff_toNat_le.mp (UInt32.not_lt.mp above)
        obtain ⟨kept, read, count⟩ := sound.exists_read (Nat.le_of_eq (Nat.zero_add _))
        obtain ⟨moved, done, size', _⟩ := @Block.write_spec _ (some cells) 0 kept (by omega)
        refine iff_of_true ⟨{ sb with buf := moved, allocateLen := alignment size }, ?_,
          inside, ?_⟩ inside
        · simp only [read, done, Option.bind_eq_bind, Option.bind_some, Option.map_some]
        · show (alignment size).toNat ≤ moved.size
          omega

/--
Bytes are placed behind the held ones in a new block exactly if it is there and does not wrap.
-/
theorem Sound.placed_iff (sound : sb.Sound) {size : UInt32} {pos : Nat} {data : Bytes}
    (behind : sb.length.toNat ≤ pos) (positive : 0 < pos + data.length)
    (below : pos < 0x100000000) (same : size.toNat = (pos + data.length) % 0x100000000)
    (offset : UInt32) :
    (∃ after, (do
        let kept ← sb.buf.read 0 sb.length.toNat
        let moved ← Block.write (m.alloc (alignment size).toNat) 0 kept
        let written ← Block.write moved pos data
        some (StringBuf.mk written size offset (alignment size))) = some after ∧ after.Sound) ↔
      (m.alloc (alignment size).toNat).isSome ∧ pos + data.length ≤ maxSize := by
  obtain ⟨kept, read, count⟩ := sound.exists_read (Nat.le_of_eq (Nat.zero_add _))
  have isSize := @size_alloc_eq m (alignment size).toNat
  rw [← le_size_alloc_iff positive same]
  constructor
  · intro ends
    obtain ⟨after, done, after'⟩ := ends
    simp only [Option.bind_eq_bind, Option.bind_eq_some_iff, Option.some.injEq] at done
    obtain ⟨_, _, moved, movedDone, written, writtenDone, rfl⟩ := done
    have movedSize := Block.size_write movedDone
    have writtenSize := Block.size_write writtenDone
    rcases Block.write_isSome_iff.mp (Option.isSome_of_eq_some writtenDone) with rfl | fits
    · -- Nothing is written, but the counters have to lie within the block.
      have lengthLe : size.toNat ≤ (alignment size).toNat := after'.length_le
      have allocateLe : (alignment size).toNat ≤ written.size := after'.allocate_le
      simp only [List.length_nil, Nat.add_zero] at same ⊢
      omega
    · omega
  · intro fits
    have answers := (le_size_alloc_iff positive same).mp fits
    have rounded := (le_alignment_iff positive same).mpr answers.2
    rw [if_pos answers.1] at isSize
    obtain ⟨moved, movedDone, movedSize, _⟩ :=
      @Block.write_spec _ (m.alloc (alignment size).toNat) 0 kept (by omega)
    obtain ⟨written, writtenDone, writtenSize, _⟩ := @Block.write_spec _ moved pos data (by omega)
    refine ⟨⟨written, size, offset, alignment size⟩, ?_, ?_, ?_⟩
    · simp only [read, movedDone, writtenDone, Option.bind_eq_bind, Option.bind_some]
    · show size.toNat ≤ (alignment size).toNat
      rw [maxSize] at answers
      omega
    · show (alignment size).toNat ≤ written.size
      omega

/-- Bytes are put between the held ones in a new block exactly if it is there and does not wrap. -/
theorem Sound.spliced_iff (sound : sb.Sound) {size : UInt32} {pos : Nat} {data : Bytes}
    (inside : pos ≤ sb.length.toNat) (some_ : data ≠ [])
    (same : size.toNat = (sb.length.toNat + data.length) % 0x100000000) :
    (∃ after, (do
        let front ← sb.buf.read 0 pos
        let moved ← Block.write (m.alloc (alignment size).toNat) 0 front
        let inserted ← Block.write moved pos data
        let back ← sb.buf.read pos (sb.length.toNat - pos)
        let written ← Block.write inserted (pos + data.length) back
        some (StringBuf.mk written size 0 (alignment size))) = some after ∧ after.Sound) ↔
      (m.alloc (alignment size).toNat).isSome ∧ sb.length.toNat + data.length ≤ maxSize := by
  have more := List.length_pos_iff.mpr some_
  have positive : 0 < sb.length.toNat + data.length := by omega
  obtain ⟨front, readFront, countFront⟩ :=
    sound.exists_read (show 0 + pos ≤ sb.length.toNat by omega)
  obtain ⟨back, readBack, countBack⟩ :=
    sound.exists_read (show pos + (sb.length.toNat - pos) ≤ sb.length.toNat by omega)
  have isSize := @size_alloc_eq m (alignment size).toNat
  rw [← le_size_alloc_iff positive same]
  -- Three writes into the new block; the last one reaches furthest.
  constructor
  · intro ends
    obtain ⟨after, done, _⟩ := ends
    simp only [readFront, readBack, Option.bind_eq_bind, Option.bind_some, Option.bind_eq_some_iff,
      Option.some.injEq] at done
    obtain ⟨moved, movedDone, inserted, insertedDone, written, writtenDone, _⟩ := done
    have movedSize := Block.size_write movedDone
    have insertedSize := Block.size_write insertedDone
    have fits := (Block.write_isSome_iff.mp (Option.isSome_of_eq_some insertedDone)).resolve_left
      some_
    rcases Block.write_isSome_iff.mp (Option.isSome_of_eq_some writtenDone) with none_ | fits'
    · rw [none_, List.length_nil] at countBack
      omega
    · omega
  · intro fits
    have answers := (le_size_alloc_iff positive same).mp fits
    have rounded := (le_alignment_iff positive same).mpr answers.2
    rw [if_pos answers.1] at isSize
    obtain ⟨moved, movedDone, movedSize, _⟩ :=
      @Block.write_spec _ (m.alloc (alignment size).toNat) 0 front (by omega)
    obtain ⟨inserted, insertedDone, insertedSize, _⟩ :=
      @Block.write_spec _ moved pos data (by omega)
    obtain ⟨written, writtenDone, writtenSize, _⟩ :=
      @Block.write_spec _ inserted (pos + data.length) back (by omega)
    refine ⟨⟨written, size, 0, alignment size⟩, ?_, ?_, ?_⟩
    · simp only [readFront, movedDone, insertedDone, readBack, writtenDone, Option.bind_eq_bind,
        Option.bind_some]
    · show size.toNat ≤ (alignment size).toNat
      rw [maxSize] at answers
      omega
    · show (alignment size).toNat ≤ written.size
      omega

/-- Appending ends well exactly if the bytes fit. -/
theorem Sound.append_iff (sound : sb.Sound) {data : Bytes} (small : data.length < 0x100000000) :
    (∃ after, sb.append m data = some after ∧ after.Sound) ↔ Fits sb (m, .append data small) := by
  have bounds := sound.length_le
  have block := sound.allocate_le
  have total : (sb.length + UInt32.ofNat data.length).toNat =
      (sb.length.toNat + data.length) % 0x100000000 := by
    rw [UInt32.toNat_add, UInt32.toNat_ofNat']
    omega
  rw [Fits, Held, append]
  by_cases grows : sb.allocateLen < sb.length + UInt32.ofNat data.length
  · rw [if_pos grows, if_pos grows]
    have grows' := UInt32.lt_iff_toNat_lt.mp grows
    have below := sb.length.toNat_lt
    exact sound.placed_iff (Nat.le_refl _) (by omega) below total sb.offset
  · rw [if_neg grows, if_neg grows]
    -- In place, the sum may have wrapped, which only the block tells.
    have stays := UInt32.le_iff_toNat_le.mp (UInt32.not_lt.mp grows)
    constructor
    · intro ends
      obtain ⟨after, done, _⟩ := ends
      simp only [Option.bind_eq_bind, Option.bind_eq_some_iff] at done
      obtain ⟨written, writtenDone, _⟩ := done
      rcases Block.write_isSome_iff.mp (Option.isSome_of_eq_some writtenDone) with rfl | fits
      · simp only [List.length_nil]
        omega
      · exact fits
    · intro fits
      obtain ⟨written, done, size, _⟩ := Block.write_spec fits
      refine ⟨{ sb with buf := written, length := sb.length + UInt32.ofNat data.length }, ?_,
        stays, ?_⟩
      · simp only [done, Option.bind_eq_bind, Option.bind_some]
      · show sb.allocateLen.toNat ≤ written.size
        omega

/-- So does appending a string. -/
theorem Sound.appendStr_iff (sound : sb.Sound) (str : Bytes) :
    (∃ after, sb.appendStr m str = some after ∧ after.Sound) ↔ Fits sb (m, .appendStr str) := by
  -- The sum of the lengths is taken without wrapping here.
  have bounds := sound.length_le
  have block := sound.allocate_le
  have total : (UInt32.ofNat (sb.length.toNat + str.length)).toNat =
      (sb.length.toNat + str.length) % 0x100000000 := UInt32.toNat_ofNat'
  rw [Fits, Held, appendStr]
  by_cases grows : sb.allocateLen.toNat < sb.length.toNat + str.length
  · rw [if_pos grows, if_pos grows]
    have below := sb.length.toNat_lt
    exact sound.placed_iff (Nat.le_refl _) (by omega) below total 0
  · rw [if_neg grows, if_neg grows]
    have fits : sb.length.toNat + str.length ≤ sb.buf.size := by omega
    have below := sb.allocateLen.toNat_lt
    obtain ⟨written, done, size, _⟩ := Block.write_spec fits
    refine iff_of_true ⟨{ sb with
      buf := written, length := UInt32.ofNat (sb.length.toNat + str.length) }, ?_, ?_, ?_⟩ fits
    · simp only [done, Option.bind_eq_bind, Option.bind_some]
    · show (UInt32.ofNat (sb.length.toNat + str.length)).toNat ≤ sb.allocateLen.toNat
      omega
    · show sb.allocateLen.toNat ≤ written.size
      omega

/-- So does inserting, at the end, behind it or between the bytes. -/
theorem Sound.insert_iff (sound : sb.Sound) (pos : UInt32) {data : Bytes}
    (small : data.length < 0x80000000) :
    (∃ after, sb.insert m pos data = some after ∧ after.Sound) ↔
      Fits sb (m, .insert pos data small) := by
  have bounds := sound.length_le
  have block := sound.allocate_le
  have total : (sb.length + UInt32.ofNat data.length).toNat =
      (sb.length.toNat + data.length) % 0x100000000 := by
    rw [UInt32.toNat_add, UInt32.toNat_ofNat']
    omega
  rw [Fits, insert]
  by_cases behind : pos > sb.length
  · rw [if_pos behind, if_pos behind, Held, if_pos trivial]
    have behind' := UInt32.lt_iff_toNat_lt.mp behind
    have below := pos.toNat_lt
    have zeroLen : (pos - sb.length).toNat = pos.toNat - sb.length.toNat :=
      UInt32.toNat_sub_of_le _ _ (UInt32.le_iff_toNat_le.mpr (by omega))
    have total' : (sb.length + UInt32.ofNat data.length + (pos - sb.length)).toNat =
        (pos.toNat + data.length) % 0x100000000 := by
      rw [UInt32.toNat_add, total, zeroLen]
      omega
    exact sound.placed_iff (by omega) (by omega) below total' 0
  · rw [if_neg behind, if_neg behind, Held]
    have inside : pos.toNat ≤ sb.length.toNat := UInt32.le_iff_toNat_le.mp (UInt32.not_lt.mp behind)
    have back : (sb.length - pos).toNat = sb.length.toNat - pos.toNat :=
      UInt32.toNat_sub_of_le _ _ (UInt32.not_lt.mp behind)
    by_cases grows : sb.allocateLen < sb.length + UInt32.ofNat data.length
    · rw [if_pos grows, if_pos grows]
      have grows' := UInt32.lt_iff_toNat_lt.mp grows
      have some_ : data ≠ [] := by
        intro nothing
        have zero : data.length = 0 := List.length_eq_zero_iff.mpr nothing
        have below := sb.length.toNat_lt
        omega
      simp only [back]
      exact sound.spliced_iff inside some_ total
    · rw [if_neg grows, if_neg grows]
      -- In place, the bytes behind the position are moved first.
      have stays := UInt32.le_iff_toNat_le.mp (UInt32.not_lt.mp grows)
      obtain ⟨kept, read, count⟩ :=
        sound.exists_read (show pos.toNat + (sb.length.toNat - pos.toNat) ≤
          sb.length.toNat by omega)
      simp only [back, read, Option.bind_eq_bind, Option.bind_some]
      constructor
      · intro ends
        obtain ⟨after, done, _⟩ := ends
        simp only [Option.bind_eq_some_iff] at done
        obtain ⟨moved, movedDone, written, writtenDone, _⟩ := done
        have movedSize := Block.size_write movedDone
        rcases Block.write_isSome_iff.mp (Option.isSome_of_eq_some movedDone) with none_ | fits
        · rw [none_, List.length_nil] at count
          rcases Block.write_isSome_iff.mp (Option.isSome_of_eq_some writtenDone) with rfl | fits'
          · simp only [List.length_nil]
            omega
          · omega
        · omega
      · intro fits
        obtain ⟨moved, movedDone, movedSize, _⟩ :=
          @Block.write_spec _ sb.buf (pos.toNat + data.length) kept (by omega)
        obtain ⟨written, writtenDone, writtenSize, _⟩ :=
          @Block.write_spec _ moved pos.toNat data (by omega)
        refine ⟨{ sb with buf := written, length :=
          sb.length + UInt32.ofNat data.length }, ?_, stays,
          ?_⟩
        · simp only [movedDone, writtenDone, Option.bind_some]
        · show sb.allocateLen.toNat ≤ written.size
          omega

/-- What one call does to a sound buffer. -/
theorem Sound.run_iff (sound : sb.Sound) (call : Allocator UInt8 × GrowCall) :
    (∃ after, GrowCall.run sb call = some after ∧ after.Sound) ↔ Fits sb call := by
  obtain ⟨m, call⟩ := call
  cases call with
  | reallocMem size => exact sound.reallocMem_iff size
  | append data small => exact sound.append_iff small
  | appendStr str => exact sound.appendStr_iff str
  | insert pos data small => exact sound.insert_iff pos small
  | insertNegative pos dataLen negative => exact iff_of_false (by simp [GrowCall.run]) id

end

/--
All along a list of calls, no byte is written outside the block and the counters lie within it,
exactly if each call fits.
-/
theorem sound_allAlong_iff (calls : List (Allocator UInt8 × GrowCall)) :
    (∀ front, front <+: calls → ∃ sb, exec GrowCall.run .new front = some sb ∧ sb.Sound) ↔
      ∀ front call, front ++ [call] <+: calls → ∀ sb, exec GrowCall.run .new front = some sb →
        Fits sb call := by
  have start : new.Sound := ⟨Nat.le_refl _, Nat.le_refl _⟩
  exact @allAlong_iff _ _ GrowCall.run Sound (fun _ => True) _ _ _ start trivial
    (fun _ call _ _ _ sound _ => sound.run_iff call) fun _ _ _ _ _ _ _ _ _ _ => trivial

/-- An allocator that has no memory left. -/
def exhausted : Allocator UInt8 where
  alloc _ := none
  alloc_size _ _ found := by cases found

/-- A growth that gets no block leaves a capacity that is not there. -/
theorem exhausted_unsound : ¬ ∀ calls : List (Allocator UInt8 × GrowCall),
    ∀ front, front <+: calls → ∃ sb, exec GrowCall.run .new front = some sb ∧ sb.Sound := by
  intro always
  obtain ⟨sb, done, sound⟩ := always [(exhausted, .reallocMem 8)] _ (List.prefix_refl _)
  have same : exec GrowCall.run .new [(exhausted, .reallocMem 8)] = some ⟨none, 0, 0, 8⟩ := by rfl
  rw [same, Option.some.injEq] at done
  subst done
  exact absurd sound.allocate_le (by decide)

end OneProxy.StringBuf
