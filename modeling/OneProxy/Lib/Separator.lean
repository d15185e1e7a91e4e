import Mathlib.Data.List.Basic

/-! Lists that are put together with separators. -/

namespace Separator

variable {α : Type*} {sep : α} {u v s t : List α}

/-- Two ways to split a list: at one place, or one before the other. -/
theorem append_cons_cases {x y : α} (same : u ++ x :: s = v ++ y :: t) :
    (u = v ∧ x = y ∧ s = t) ∨
      (∃ between, v = u ++ x :: between ∧ s = between ++ y :: t) ∨
      ∃ between, u = v ++ y :: between ∧ t = between ++ x :: s := by
  rcases List.append_eq_append_iff.mp same with ⟨between, longer, cut⟩ | ⟨between, longer, cut⟩
  · cases between with
    | nil =>
      obtain ⟨head, tail⟩ := List.cons.inj cut
      exact Or.inl ⟨by rw [longer, List.append_nil], head, tail⟩
    | cons z between =>
      obtain ⟨rfl, tail⟩ := List.cons.inj cut
      exact Or.inr (Or.inl ⟨between, longer, tail⟩)
  · cases between with
    | nil =>
      obtain ⟨head, tail⟩ := List.cons.inj cut
      exact Or.inl ⟨by rw [longer, List.append_nil], head.symm, tail.symm⟩
    | cons z between =>
      obtain ⟨rfl, tail⟩ := List.cons.inj cut
      exact Or.inr (Or.inr ⟨between, longer, tail⟩)

/-- What stands before the first separator, and what stands behind it, can be told apart. -/
theorem append_cons_inj (left : sep ∉ u) (right : sep ∉ v) :
    u ++ sep :: s = v ++ sep :: t ↔ u = v ∧ s = t := by
  constructor
  · intro same
    obtain ⟨front, _, back⟩ | ⟨between, rfl, _⟩ | ⟨between, rfl, _⟩ := append_cons_cases same
    · exact ⟨front, back⟩
    · exact absurd (List.mem_append_right _ List.mem_cons_self) right
    · exact absurd (List.mem_append_right _ List.mem_cons_self) left
  · rintro ⟨rfl, rfl⟩
    rfl

/--
A list without the separator is one piece; another begins with the piece before the first one.
-/
theorem split_cases [DecidableEq α] (sep : α) (text : List α) :
    (sep ∉ text ∧ text.splitOn sep = [text]) ∨ ∃ piece rest, text = piece ++ sep :: rest ∧
      sep ∉ piece ∧ text.splitOn sep = piece :: rest.splitOn sep := by
  by_cases found : sep ∈ text
  · obtain ⟨piece, rest, rfl, before⟩ := List.eq_append_cons_of_mem found
    exact Or.inr ⟨piece, rest, rfl, before,
      List.splitOn_append_cons_self_of_not_mem before rest⟩
  · exact Or.inl ⟨found, List.splitOn_eq_singleton found⟩

/-- Every piece of a later part but its first is a piece of the whole. -/
theorem tail_split_suffix [DecidableEq α] (sep : α) (front back : List α) :
    (back.splitOn sep).tail <:+ ((front ++ back).splitOn sep).tail := by
  induction front with
  | nil => exact List.suffix_rfl
  | cons x front ih =>
    rw [List.cons_append, List.splitOn_cons_eq_if_modifyHead]
    split
    · exact ih.trans (List.tail_suffix _)
    · rw [List.tail_modifyHead]
      exact ih

/-- A part without the separator goes into the first piece. -/
theorem split_append [DecidableEq α] {front : List α} (fresh : sep ∉ front) (back : List α) :
    (front ++ back).splitOn sep = (back.splitOn sep).modifyHead (front ++ ·) := by
  rcases split_cases sep back with ⟨single, split⟩ | ⟨piece, rest, rfl, before, split⟩
  · have none_ : sep ∉ front ++ back := by simp [fresh, single]
    rw [split, List.splitOn_eq_singleton none_]
    rfl
  · have none_ : sep ∉ front ++ piece := by simp [fresh, before]
    rw [split, ← List.append_assoc, List.splitOn_append_cons_self_of_not_mem none_]
    rfl

/-- Everything but the separators is in a piece. -/
theorem mem_split_iff [DecidableEq α] {x : α} (other : x ≠ sep) (text : List α) :
    (∃ piece ∈ text.splitOn sep, x ∈ piece) ↔ x ∈ text := by
  induction length : text.length using Nat.strongRecOn generalizing text with
  | ind n ih =>
    rcases split_cases sep text with ⟨_, split⟩ | ⟨piece, rest, rfl, _, split⟩
    · simp [split]
    · have shorter : rest.length < n := by
        simp only [List.length_append, List.length_cons] at length
        omega
      simp [split, other, ih rest.length shorter rest rfl]

/-- A list without the separator is taken up to it as a whole. -/
theorem takeWhile_fresh [DecidableEq α] {text : List α} (fresh : sep ∉ text) :
    text.takeWhile (· ≠ sep) = text := by
  induction text with
  | nil => rfl
  | cons x text ih =>
    simp only [List.mem_cons, not_or] at fresh
    rw [List.takeWhile_cons_of_pos (by simpa using Ne.symm fresh.1), ih fresh.2]

/-- What is before the first separator is taken up to it. -/
theorem takeWhile_before [DecidableEq α] {front : List α} (fresh : sep ∉ front) (back : List α) :
    (front ++ sep :: back).takeWhile (· ≠ sep) = front := by
  induction front with
  | nil => simp
  | cons x front ih =>
    simp only [List.mem_cons, not_or] at fresh
    rw [List.cons_append, List.takeWhile_cons_of_pos (by simpa using Ne.symm fresh.1), ih fresh.2]

end Separator
