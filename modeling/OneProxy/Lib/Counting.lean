import Mathlib

/-! Counting the elements of a list key by key. -/

namespace Counting

variable {α κ : Type*} [DecidableEq κ]

/-- Among distinct keys, one key is counted once. -/
private theorem sum_single {keys : List κ} (distinct : keys.Nodup) {key : κ} (member : key ∈ keys)
    (amount : Nat) : (keys.map fun k => if key = k then amount else 0).sum = amount := by
  -- The induction is on the keys; after the one looked for, all others differ from it.
  induction keys with
  | nil => cases member
  | cons k keys ih =>
    obtain ⟨fresh, rest⟩ := List.nodup_cons.mp distinct
    rcases List.mem_cons.mp member with rfl | later
    · have others : keys.map (fun k => if key = k then amount else 0) = keys.map fun _ => 0 := by
        refine List.map_congr_left fun k inside => if_neg ?_
        rintro rfl
        exact fresh inside
      simp [others]
    · have differs : key ≠ k := fun same => fresh (same ▸ later)
      simpa [differs] using ih rest later

/-- Elements sorted by distinct keys are as many, key by key, as they are together. -/
theorem sum_countP_filter {keys : List κ} (distinct : keys.Nodup) (key : α → κ) (p : α → Bool)
    {elements : List α} (inside : ∀ a ∈ elements, key a ∈ keys) :
    (keys.map fun k => (elements.filter (key · = k)).countP p).sum = elements.countP p := by
  induction elements with
  | nil => simp
  | cons a elements ih =>
    have rest := ih fun other member => inside other (by simp [member])
    -- The first element is counted at its own key only.
    have split : ∀ k, ((a :: elements).filter (key · = k)).countP p =
        (elements.filter (key · = k)).countP p + if key a = k then [a].countP p else 0 := by
      intro k
      by_cases same : key a = k
      · rw [List.filter_cons_of_pos (by simpa using same), if_pos same, ← List.singleton_append,
          List.countP_append, Nat.add_comm]
      · rw [List.filter_cons_of_neg (by simpa using same), if_neg same, Nat.add_zero]
    have front : (a :: elements).countP p = [a].countP p + elements.countP p := by
      rw [← List.countP_append, List.singleton_append]
    simp only [split]
    rw [List.sum_map_add, rest, sum_single distinct (inside a (by simp)), front, Nat.add_comm]

end Counting
