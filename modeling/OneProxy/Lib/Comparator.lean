import Mathlib.Logic.Basic

/-! Comparing by a hand-written `less`, as ordered maps do. -/

namespace Comparator

variable {α : Type*}

/-- The comparison that a `less` amounts to: neither being less means equal. -/
def ofLess (less : α → α → Bool) (a b : α) : Ordering :=
  if less a b then .lt else if less b a then .gt else .eq

/-- A `less` that is a strict total order. -/
structure StrictTotal (less : α → α → Bool) : Prop where
  irrefl : ∀ a, less a a = false
  trans : ∀ a b c, less a b = true → less b c = true → less a c = true
  total : ∀ a b, less a b = false → less b a = false → a = b

variable {less : α → α → Bool}

/-- Of two elements at most one is less. -/
theorem StrictTotal.asymm (order : StrictTotal less) {a b : α} (below : less a b = true) :
    less b a = false := by
  cases above : less b a with
  | false => rfl
  | true =>
    have cycle := order.trans a b a below above
    rw [order.irrefl] at cycle
    cases cycle

/-- Comparing equal means being equal. -/
theorem ofLess_eq (order : StrictTotal less) {a b : α} : ofLess less a b = .eq ↔ a = b := by
  constructor
  · intro equal
    unfold ofLess at equal
    split at equal
    · cases equal
    · split at equal
      · cases equal
      · next below above => exact order.total a b (by simpa using below) (by simpa using above)
  · rintro rfl
    simp [ofLess, order.irrefl]

/-- Not comparing greater means that the other one is not less. -/
theorem ofLess_isLE (order : StrictTotal less) {a b : α} :
    (ofLess less a b).isLE = true ↔ less b a = false := by
  unfold ofLess
  split
  · next below => simp [order.asymm below]
  · split
    · next above => simp [above]
    · next above => simpa using above

/-- Swapping the elements swaps the outcome. -/
theorem ofLess_swap (order : StrictTotal less) (a b : α) :
    ofLess less a b = (ofLess less b a).swap := by
  unfold ofLess
  cases below : less a b with
  | true => simp [order.asymm below]
  | false => cases above : less b a <;> simp

/-- A strict total order gives a comparison that maps can be ordered by. -/
theorem StrictTotal.transCmp (order : StrictTotal less) : Std.TransCmp (ofLess less) where
  eq_swap := ofLess_swap order _ _
  isLE_trans {a b c} first second := by
    rw [ofLess_isLE order] at *
    cases above : less c a with
    | false => rfl
    | true =>
      -- What is not above `b` is below it or is `b` itself.
      cases below : less a b with
      | true =>
        rw [order.trans c a b above below] at second
        cases second
      | false =>
        rw [order.total a b below first, second] at above
        cases above

/-- Such a comparison tells all elements apart. -/
theorem StrictTotal.lawfulEqCmp (order : StrictTotal less) : Std.LawfulEqCmp (ofLess less) where
  compare_self := (ofLess_eq order).mpr rfl
  eq_of_compare := (ofLess_eq order).mp

end Comparator
