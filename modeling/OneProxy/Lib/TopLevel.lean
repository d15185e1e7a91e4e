import Mathlib.Algebra.BigOperators.Group.List.Basic
import Mathlib.Algebra.Ring.Int.Defs
import Mathlib.Tactic.ByContra

/-! Symbols that open and close brackets, and the search for symbols outside of all brackets. -/

namespace TopLevel

variable {α : Type*}

/-- How many brackets a list of symbols leaves open, given what each symbol adds. -/
def depth (weight : α → Int) (l : List α) : Int := (l.map weight).sum

section

variable {weight : α → Int}

@[simp] theorem depth_nil : depth weight [] = 0 := rfl

@[simp] theorem depth_cons (a : α) (l : List α) :
    depth weight (a :: l) = weight a + depth weight l := by
  simp [depth]

@[simp] theorem depth_append (l r : List α) :
    depth weight (l ++ r) = depth weight l + depth weight r := by
  simp [depth]

end

/--
Where the first symbol of a kind stands that is outside of brackets, of which `c` are open before.
-/
def find (weight : α → Int) (hit : α → Prop) [DecidablePred hit] : Int → List α → Option Nat
  | _, [] => none
  | c, a :: l => if c = 0 ∧ hit a then some 0 else (find weight hit (c + weight a) l).map (· + 1)

variable {weight : α → Int} {hit : α → Prop} [DecidablePred hit]

/-- A search goes through one list after the other. -/
theorem find_append (c : Int) (l r : List α) :
    find weight hit c (l ++ r) =
      match find weight hit c l with
      | some k => some k
      | none => (find weight hit (c + depth weight l) r).map (· + l.length) := by
  induction l generalizing c with
  | nil => simp [find]
  | cons a l ih =>
    by_cases here : c = 0 ∧ hit a
    · simp only [List.cons_append, find, if_pos here]
    · simp only [List.cons_append, find, if_neg here, ih (c + weight a)]
      cases found : find weight hit (c + weight a) l with
      | some k => rfl
      | none =>
        simp [Option.map_map, Int.add_assoc, Function.comp_def, Nat.add_assoc]

/-- A search finds nothing if and only if no symbol of the kind stands outside of brackets. -/
theorem find_eq_none_iff {c : Int} {l : List α} :
    find weight hit c l = none ↔
      ∀ before a rest, l = before ++ a :: rest → c + depth weight before = 0 → ¬ hit a := by
  induction l generalizing c with
  | nil => simp [find]
  | cons first l ih =>
    by_cases here : c = 0 ∧ hit first
    · simp only [find, if_pos here, reduceCtorEq, false_iff]
      intro nowhere
      exact nowhere [] first l rfl (by simpa using here.1) here.2
    · simp only [find, if_neg here, Option.map_eq_none_iff, ih]
      constructor
      · -- A symbol outside of brackets is the first one, or stands among the others.
        intro nowhere before a rest split outside
        cases before with
        | nil =>
          obtain ⟨same, _⟩ := List.cons.inj split
          subst same
          exact fun kind => here ⟨by simpa using outside, kind⟩
        | cons b before =>
          obtain ⟨same, tail⟩ := List.cons.inj split
          subst same
          exact nowhere before a rest tail (by simpa [Int.add_assoc] using outside)
      · intro nowhere before a rest split outside
        apply nowhere (first :: before) a rest
        · rw [split, List.cons_append]
        · simpa [Int.add_assoc] using outside

/-- What a search finds stands outside of brackets, and nothing of the kind stands before it. -/
theorem find_eq_some_iff {c : Int} {l : List α} {k : Nat} :
    find weight hit c l = some k ↔
      ∃ before a rest, l = before ++ a :: rest ∧ before.length = k ∧
        find weight hit c before = none ∧ c + depth weight before = 0 ∧ hit a := by
  constructor
  · intro found
    induction l generalizing c k with
    | nil => simp [find] at found
    | cons first l ih =>
      by_cases here : c = 0 ∧ hit first
      · simp only [find, if_pos here, Option.some.injEq] at found
        exact ⟨[], first, l, rfl, found, rfl, by simpa using here.1, here.2⟩
      · simp only [find, if_neg here, Option.map_eq_some_iff] at found
        obtain ⟨place, found, next⟩ := found
        obtain ⟨before, a, rest, split, length, nothing, outside, kind⟩ := ih found
        refine ⟨first :: before, a, rest, by rw [split, List.cons_append], ?_, ?_, ?_, kind⟩
        · rw [List.length_cons, length, next]
        · rw [find, if_neg here, nothing, Option.map_none]
        · simpa [Int.add_assoc] using outside
  · intro ⟨before, a, rest, split, length, nothing, outside, kind⟩
    simp only [split, find_append, nothing, find, outside, kind, and_self, if_true, Option.map_some,
      Nat.zero_add, length]

/-- What is found is in the list. -/
theorem find_lt {c : Int} {l : List α} {k : Nat} (found : find weight hit c l = some k) :
    k < l.length := by
  obtain ⟨before, a, rest, split, length, _⟩ := find_eq_some_iff.mp found
  simp [split, ← length]

end TopLevel
