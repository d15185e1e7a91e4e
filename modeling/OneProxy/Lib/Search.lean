import Mathlib.Data.List.Infix

/-! The first place at which one list stands in another. -/

namespace Search

variable {α : Type*} [DecidableEq α]

/-- How far on the first occurrence of a list begins. -/
def find (needle : List α) : List α → Option Nat
  | [] => if needle = [] then some 0 else none
  | x :: rest => if needle <+: x :: rest then some 0 else (find needle rest).map (· + 1)

omit [DecidableEq α] in
/-- A text at the first occurrence of a list. -/
structure First (needle text before after : List α) : Prop where
  text_eq : text = before ++ needle ++ after
  first : ∀ front back, text = front ++ needle ++ back → before.length ≤ front.length

variable {needle text before after item : List α} {c : α}

theorem find_spec (needle text : List α) :
    (∃ before after, First needle text before after ∧ find needle text = some before.length) ∨
      ¬ needle <:+: text ∧ find needle text = none := by
  induction text with
  | nil =>
    by_cases empty : needle = []
    · subst empty
      exact Or.inl ⟨[], [], ⟨rfl, fun _ _ _ => Nat.zero_le _⟩, rfl⟩
    · exact Or.inr ⟨fun inside => empty (List.infix_nil.mp inside), by simp [find, empty]⟩
  | cons x rest ih =>
    by_cases here : needle <+: x :: rest
    · obtain ⟨after, same⟩ := here
      exact Or.inl ⟨[], after, ⟨same.symm, fun _ _ _ => Nat.zero_le _⟩, by
        rw [find, if_pos ⟨after, same⟩]
        rfl⟩
    · -- An occurrence is one in the rest.
      have shift : ∀ front back, x :: rest = front ++ needle ++ back →
          ∃ tail, front = x :: tail ∧ rest = tail ++ needle ++ back := by
        intro front back same
        cases front with
        | nil => exact absurd ⟨back, same.symm⟩ here
        | cons y tail =>
          obtain ⟨rfl, inRest⟩ := List.cons.inj same
          exact ⟨tail, rfl, inRest⟩
      rcases ih with ⟨before, after, first, found⟩ | ⟨absent, found⟩
      · refine Or.inl ⟨x :: before, after, ⟨by rw [first.text_eq]; rfl, ?_⟩, ?_⟩
        · intro front back same
          obtain ⟨tail, rfl, inRest⟩ := shift front back same
          exact Nat.succ_le_succ (first.first tail back inRest)
        · rw [find, if_neg here, found]
          rfl
      · refine Or.inr ⟨?_, by rw [find, if_neg here, found]; rfl⟩
        rintro ⟨front, back, same⟩
        obtain ⟨tail, _, inRest⟩ := shift front back same.symm
        exact absent ⟨tail, back, inRest.symm⟩

omit [DecidableEq α] in
/-- There is one first occurrence. -/
theorem First.unique {before' after' : List α} (one : First needle text before after)
    (other : First needle text before' after') : before = before' ∧ after = after' := by
  have length : before.length = before'.length :=
    Nat.le_antisymm (one.first _ _ other.text_eq) (other.first _ _ one.text_eq)
  have same := one.text_eq.symm.trans other.text_eq
  rw [List.append_assoc, List.append_assoc] at same
  obtain ⟨rfl, tails⟩ := List.append_inj same length
  exact ⟨rfl, List.append_cancel_left tails⟩

theorem First.find (one : First needle text before after) :
    find needle text = some before.length := by
  rcases find_spec needle text with ⟨_, _, other, found⟩ | ⟨absent, _⟩
  · rw [found, (one.unique other).1]
  · exact absurd ⟨before, after, one.text_eq.symm⟩ absent

theorem find_eq_none (absent : ¬ needle <:+: text) : find needle text = none := by
  rcases find_spec needle text with ⟨before, after, one, _⟩ | ⟨_, found⟩
  · exact absurd ⟨before, after, one.text_eq.symm⟩ absent
  · exact found

theorem exists_first (inside : needle <:+: text) :
    ∃ before after, First needle text before after := by
  rcases find_spec needle text with ⟨before, after, one, _⟩ | ⟨absent, _⟩
  · exact ⟨before, after, one⟩
  · exact absurd inside absent

omit [DecidableEq α] in
/-- A list that begins with a character that is not before it. -/
theorem first_of_notMem {rest : List α} (fresh : c ∉ before) :
    First (c :: rest) (before ++ (c :: rest) ++ after) before after := by
  refine ⟨rfl, fun front back same => ?_⟩
  by_contra shorter
  -- The earlier occurrence would begin in the part before.
  have inside : front.length < before.length := by omega
  have at_ := congrArg (·[front.length]?) same
  simp only [List.append_assoc] at at_
  rw [List.getElem?_append_left inside, List.getElem?_append_right (Nat.le_refl _), Nat.sub_self]
    at at_
  have first : before[front.length]? = some c := by simpa using at_
  exact fresh (List.mem_of_getElem? first)

omit [DecidableEq α] in
/-- An occurrence that begins in an item does not go beyond a character that the list lacks. -/
theorem occurs_within {front back more : List α} (lacks : c ∉ needle) (some_ : needle ≠ [])
    (same : item ++ c :: more = front ++ needle ++ back) (le : front.length ≤ item.length) :
    ∃ rest, item = front ++ needle ++ rest := by
  rw [List.append_assoc] at same
  rcases List.append_eq_append_iff.mp same with ⟨x, rfl, cut⟩ | ⟨x, rfl, cut⟩
  · have none_ : x = [] := by
      rw [List.length_append] at le
      exact List.length_eq_zero_iff.mp (by omega)
    subst none_
    obtain ⟨y, needle', rfl⟩ := List.exists_cons_of_ne_nil some_
    obtain ⟨rfl, _⟩ := List.cons.inj cut
    exact absurd List.mem_cons_self lacks
  · rcases List.append_eq_append_iff.mp cut with ⟨y, rfl, _⟩ | ⟨y, rfl, behind⟩
    · exact ⟨y, by rw [List.append_assoc]⟩
    · cases y with
      | nil => exact ⟨[], by simp⟩
      | cons z y =>
        -- The occurrence would go on with the character that it lacks.
        obtain ⟨rfl, _⟩ := List.cons.inj behind
        exact absurd (List.mem_append_right _ List.mem_cons_self) lacks

omit [DecidableEq α] in
/-- An item that ends in a character that the list lacks holds the first occurrence, or has none. -/
theorem First.le_iff {more : List α} (lacks : c ∉ needle) (some_ : needle ≠ [])
    (one : First needle (item ++ c :: more) before after) :
    before.length ≤ item.length ↔ needle <:+: item := by
  constructor
  · intro le
    obtain ⟨rest, same⟩ := occurs_within lacks some_ one.text_eq le
    exact ⟨before, rest, same.symm⟩
  · rintro ⟨front, back, rfl⟩
    have le := one.first front (back ++ c :: more) (by simp)
    rw [List.length_append, List.length_append]
    omega

omit [DecidableEq α] in
/-- The first occurrence in an item is the first one beyond it as well. -/
theorem First.append {more : List α} (lacks : c ∉ needle) (some_ : needle ≠ [])
    (one : First needle item before after) :
    First needle (item ++ c :: more) before (after ++ c :: more) := by
  refine ⟨by rw [one.text_eq]; simp, fun front back same => ?_⟩
  by_cases le : front.length ≤ item.length
  · obtain ⟨rest, within⟩ := occurs_within lacks some_ same le
    exact one.first front rest within
  · have whole := congrArg List.length one.text_eq
    rw [List.length_append, List.length_append] at whole
    omega

omit [DecidableEq α] in
/-- Two different characters stand first behind a part in which they do not stand. -/
theorem first_pair {x y : α} (differ : x ≠ y) (absent : ¬ [x, y] <:+: before) :
    First [x, y] (before ++ [x, y] ++ after) before after := by
  refine ⟨rfl, fun front back same => ?_⟩
  by_contra shorter
  rw [List.append_assoc, List.append_assoc] at same
  rcases List.append_eq_append_iff.mp same with ⟨z, rfl, _⟩ | ⟨z, rfl, cut⟩
  · rw [List.length_append] at shorter
    omega
  · -- The earlier pair would lie in the part, or its second character begin the later one.
    match z with
    | [] => simp at shorter
    | [u] =>
      obtain ⟨_, cut⟩ := List.cons.inj cut
      exact differ (List.cons.inj cut).1.symm
    | u :: v :: z =>
      obtain ⟨rfl, second⟩ := List.cons.inj cut
      obtain ⟨rfl, _⟩ := List.cons.inj second
      exact absent ⟨front, z, by simp⟩

end Search
