import Mathlib.Logic.Basic

/-! Two computations that may fail, taken side by side. -/

/--
Where the first computation comes to a result, the second comes to a related one.

The second may come to a result where the first fails, unless `both` are to fail.
-/
def Alongside {α β : Type*} (both : Prop) (R : α → β → Prop) : Option α → Option β → Prop
  | some x, some y => R x y
  | some _, none => False
  | none, some _ => ¬ both
  | none, none => True

namespace Alongside

variable {α β γ δ : Type*} {both : Prop} {R : α → β → Prop} {S : γ → δ → Prop}

theorem of_some {x : α} {y : β} (related : R x y) : Alongside both R (some x) (some y) := related

/-- A failure on both sides. -/
theorem of_none : Alongside both R none none := trivial

/-- One step and then another, on either side. -/
theorem bind {a : Option α} {b : Option β} {f : α → Option γ} {g : β → Option δ}
    (first : Alongside both R a b)
    (rest : ∀ x y, a = some x → R x y → Alongside both S (f x) (g y)) :
    Alongside both S (a.bind f) (b.bind g) := by
  cases a with
  | none =>
    cases b with
    | none => exact of_none
    | some y =>
      rw [Option.bind_none, Option.bind_some]
      cases g y with
      | none => exact of_none
      | some z => exact first
  | some x =>
    cases b with
    | none => exact absurd first not_false
    | some y => exact rest x y rfl first

/-- What follows a step that fails on the first side. -/
theorem none_bind {b : Option β} {g : β → Option δ} (first : Alongside both R none b) :
    Alongside both S none (b.bind g) :=
  @bind α β γ δ both R S none b (fun _ => none) g first fun _ _ found => absurd found (by simp)

/-- A first step whose result on one side is a function of that on the other. -/
theorem bind_map {a : Option α} {b : Option β} {m : α → β} {f : α → Option γ} {g : β → Option δ}
    (first : Alongside both (fun x y => y = m x) a b)
    (rest : ∀ x, a = some x → Alongside both S (f x) (g (m x))) :
    Alongside both S (a.bind f) (b.bind g) :=
  first.bind fun x _ found same => same ▸ rest x found

/-- A first step whose result is the same on either side. -/
theorem bind_same {a b : Option α} {f : α → Option γ} {g : α → Option δ}
    (first : Alongside both (fun x y => y = x) a b)
    (rest : ∀ x, a = some x → Alongside both S (f x) (g x)) :
    Alongside both S (a.bind f) (b.bind g) :=
  first.bind fun x _ found same => same ▸ rest x found

/-- Either side decides the same question. -/
theorem ite {c d : Prop} [Decidable c] [Decidable d] {a a' : Option γ} {b b' : Option δ}
    (same : d ↔ c) (yes : c → Alongside both S a b) (no : ¬ c → Alongside both S a' b') :
    Alongside both S (if c then a else a') (if d then b else b') := by
  by_cases holds : c
  · rw [if_pos holds, if_pos (same.mpr holds)]
    exact yes holds
  · rw [if_neg holds, if_neg (fun other => holds (same.mp other))]
    exact no holds

/-- Related results that are looked at in some way. -/
theorem map {a : Option α} {b : Option β} {f : α → γ} {g : β → δ} (related : Alongside both R a b)
    (same : ∀ x y, R x y → S (f x) (g y)) : Alongside both S (a.map f) (b.map g) := by
  cases a <;> cases b
  · exact of_none
  · exact related
  · exact related
  · exact same _ _ related

/-- The second computation comes to a result if the first one does. -/
theorem exists_of_some {a : Option α} {b : Option β} {x : α} (related : Alongside both R a b)
    (found : a = some x) : ∃ y, b = some y ∧ R x y := by
  subst found
  cases b with
  | none => exact absurd related not_false
  | some y => exact ⟨y, rfl, related⟩

/-- Where both fail alike, a function of the results is the result of a function. -/
theorem eq_map {a : Option α} {b : Option β} {m : α → β}
    (related : Alongside True (fun x y => y = m x) a b) : b = a.map m := by
  cases a <;> cases b
  · rfl
  · exact absurd trivial related
  · exact absurd related not_false
  · exact congrArg some related

end Alongside
