import Mathlib.Data.List.Basic

/-! Heap blocks with bounds, and an allocator that may refuse a request. -/

namespace Memory

variable {α : Type*}

/-- A pointer to a block of cells, or the null pointer. -/
abbrev Block (α : Type*) := Option (List α)

/-- The number of cells a pointer may be used for. -/
def Block.size (block : Block α) : Nat := (block.getD []).length

/-- Reading `count` cells, undefined where a cell lies outside the block. -/
def Block.read (block : Block α) (pos count : Nat) : Option (List α) :=
  if count = 0 then some []
  else if pos + count ≤ block.size then some (((block.getD []).drop pos).take count)
  else none

/-- Writing cells from a position on, undefined where a cell lies outside the block. -/
def Block.write (block : Block α) (pos : Nat) (data : List α) : Option (Block α) :=
  if data = [] then some block
  else if pos + data.length ≤ block.size then
    some (some ((block.getD []).take pos ++ data ++ (block.getD []).drop (pos + data.length)))
  else none

/-- An allocator: null, or a fresh block of the size asked for with any contents. -/
structure Allocator (α : Type*) where
  /-- The answer to a request for a number of cells. -/
  alloc : Nat → Block α
  alloc_size : ∀ count cells, alloc count = some cells → cells.length = count

/-- An allocator that never answers null. -/
def Allocator.Succeeds (m : Allocator α) : Prop := ∀ count, (m.alloc count).isSome

/-- The allocator that fills each block with one value. -/
def Allocator.filled (value : α) : Allocator α where
  alloc count := some (List.replicate count value)
  alloc_size count cells same := by
    cases same
    simp

/-- Filling every block is one way of never answering null. -/
theorem Allocator.filled_succeeds (value : α) : (Allocator.filled value).Succeeds := by
  simp [Allocator.Succeeds, Allocator.filled]

/-- A block an allocator hands out has the size it was asked for. -/
theorem Allocator.size_alloc {m : Allocator α} {count : Nat} {cells : List α}
    (found : m.alloc count = some cells) : Block.size (some cells) = count := by
  simpa [Block.size] using m.alloc_size count cells found

/-- The cells of a block are there to be read, up to its end. -/
theorem Block.read_eq {block : Block α} {pos count : Nat} (fits : pos + count ≤ block.size) :
    block.read pos count = some (((block.getD []).drop pos).take count) := by
  unfold Block.read
  by_cases none : count = 0
  · simp [none]
  · simp [none, fits]

/-- As many cells are read as were asked for. -/
theorem Block.length_read {block : Block α} {pos count : Nat} {cells : List α}
    (done : block.read pos count = some cells) : cells.length = count := by
  unfold Block.read at done
  split at done
  · next none =>
    cases done
    exact none.symm
  · split at done
    · next fits =>
      cases done
      simp only [Block.size] at fits
      rw [List.length_take, List.length_drop]
      omega
    · cases done

/-- A write inside a block is defined. -/
theorem Block.write_eq {block : Block α} {pos : Nat} {data : List α}
    (fits : pos + data.length ≤ block.size) : ∃ written, block.write pos data = some written := by
  unfold Block.write
  by_cases none : data = []
  · exact ⟨block, by simp [none]⟩
  · exact ⟨_, by simp only [if_neg none, if_pos fits]; rfl⟩

/-- A write that is defined lies inside the block, and changes only the cells written. -/
theorem Block.write_inv {block written : Block α} {pos : Nat} {data : List α}
    (inside : pos ≤ block.size) (done : block.write pos data = some written) :
    pos + data.length ≤ block.size ∧ written.size = block.size ∧
      written.getD [] =
        (block.getD []).take pos ++ data ++ (block.getD []).drop (pos + data.length) := by
  unfold Block.write at done
  by_cases none : data = []
  · -- Writing nothing leaves the block as it is, even where it is null.
    simp only [none, if_true, Option.some.injEq] at done
    subst done
    exact ⟨by simpa [none] using inside, rfl, by simp [none]⟩
  · rw [if_neg none] at done
    split at done
    · next fits =>
      cases done
      refine ⟨fits, ?_, rfl⟩
      simp only [Block.size, Option.getD_some, List.length_append, List.length_take,
        List.length_drop] at fits ⊢
      omega
    · cases done

/-- A write is defined exactly inside the block, or where there is nothing to write. -/
theorem Block.write_isSome_iff {block : Block α} {pos : Nat} {data : List α} :
    (block.write pos data).isSome ↔ data = [] ∨ pos + data.length ≤ block.size := by
  unfold Block.write
  by_cases none : data = []
  · simp [none]
  · by_cases fits : pos + data.length ≤ block.size <;> simp [none, fits]

/-- No write changes the size of a block. -/
theorem Block.size_write {block written : Block α} {pos : Nat} {data : List α}
    (done : block.write pos data = some written) : written.size = block.size := by
  rcases Block.write_isSome_iff.mp (Option.isSome_of_eq_some done) with rfl | fits
  · rw [Block.write, if_pos rfl, Option.some.injEq] at done
    rw [done]
  · exact (Block.write_inv (by omega) done).2.1

/-- A write inside a block, with what it leaves. -/
theorem Block.write_spec {block : Block α} {pos : Nat} {data : List α}
    (fits : pos + data.length ≤ block.size) :
    ∃ written, block.write pos data = some written ∧ written.size = block.size ∧
      written.getD [] =
        (block.getD []).take pos ++ data ++ (block.getD []).drop (pos + data.length) := by
  obtain ⟨written, done⟩ := Block.write_eq fits
  exact ⟨written, done, (Block.write_inv (by omega) done).2⟩

end Memory
