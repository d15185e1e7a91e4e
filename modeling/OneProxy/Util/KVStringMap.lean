import Mathlib
import OneProxy.Util.StringBuf

/-! Maps from strings to strings, kept in the order of their keys. -/

namespace OneProxy

/-- A `std::map<std::string, std::string>`, listed in key order. -/
structure KVStringMap where
  entries : List (Bytes × Bytes)
  sorted : entries.Pairwise fun front back => front.1 < back.1
  deriving DecidableEq

namespace KVStringMap

/-- The map without entries. -/
def empty : KVStringMap := ⟨[], .nil⟩

/-- The entries after a value is stored under a key. -/
def insertEntry (key value : Bytes) : List (Bytes × Bytes) → List (Bytes × Bytes)
  | [] => [(key, value)]
  | (first, stored) :: rest =>
    if key < first then (key, value) :: (first, stored) :: rest
    else if key = first then (key, value) :: rest
    else (first, stored) :: insertEntry key value rest

/-- Only the stored key is added to those that are there. -/
theorem mem_insertEntry {key value : Bytes} {entries : List (Bytes × Bytes)} {entry : Bytes × Bytes}
    (member : entry ∈ insertEntry key value entries) : entry = (key, value) ∨ entry ∈ entries := by
  induction entries with
  | nil => exact .inl (by simpa [insertEntry] using member)
  | cons first rest ih =>
    obtain ⟨name, stored⟩ := first
    simp only [insertEntry] at member
    split at member
    · simpa using member
    · split at member
      · rcases List.mem_cons.mp member with same | later
        · exact .inl same
        · exact .inr (List.mem_cons_of_mem _ later)
      · rcases List.mem_cons.mp member with same | later
        · exact .inr (same ▸ List.mem_cons_self)
        · rcases ih later with added | old
          · exact .inl added
          · exact .inr (List.mem_cons_of_mem _ old)

/-- Storing a value keeps the keys in order. -/
theorem insertEntry_sorted (key value : Bytes) {entries : List (Bytes × Bytes)}
    (sorted : entries.Pairwise fun front back => front.1 < back.1) :
    (insertEntry key value entries).Pairwise fun front back => front.1 < back.1 := by
  induction entries with
  | nil => simp [insertEntry]
  | cons first rest ih =>
    obtain ⟨name, stored⟩ := first
    obtain ⟨above, restSorted⟩ := List.pairwise_cons.mp sorted
    simp only [insertEntry]
    split
    · next before =>
      refine List.pairwise_cons.mpr ⟨?_, sorted⟩
      intro entry member
      rcases List.mem_cons.mp member with rfl | later
      · exact before
      · exact List.lt_trans before (above entry later)
    · next notBefore =>
      split
      · next same =>
        subst same
        exact List.pairwise_cons.mpr ⟨above, restSorted⟩
      · next differs =>
        refine List.pairwise_cons.mpr ⟨?_, ih restSorted⟩
        intro entry member
        rcases mem_insertEntry member with rfl | old
        · -- Neither before nor equal, so the new key comes after the first.
          rcases Std.lt_trichotomy key name with less | equal | greater
          · exact absurd less notBefore
          · exact absurd equal differs
          · exact greater
        · exact above entry old

/-- `m[key] = value`. -/
def set (map : KVStringMap) (key value : Bytes) : KVStringMap where
  entries := insertEntry key value map.entries
  sorted := insertEntry_sorted key value map.sorted

end KVStringMap

end OneProxy
