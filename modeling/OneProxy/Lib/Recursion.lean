import Mathlib.Tactic.TypeStar

/-! Recursive functions given by one step of them, and when their recursion ends. -/

namespace Recursion

variable {α β : Type*}

/-- So many levels of a recursion, below which `out` answers. -/
def bounded (step : (α → β) → α → β) (out : α → β) : Nat → α → β
  | 0, a => out a
  | depth + 1, a => step (bounded step out depth) a

/-- The recursion returns a value, in which nothing below some depth has a part. -/
def Returns (step : (α → β) → α → β) (a : α) (value : β) : Prop :=
  ∃ depth, ∀ out, bounded step out depth a = value

/-- A step asks only for arguments that are less than its own. -/
def Descends (step : (α → β) → α → β) (measure : α → Nat) : Prop :=
  ∀ f g a, (∀ a', measure a' < measure a → f a' = g a') → step f a = step g a

variable {step : (α → β) → α → β} {measure : α → Nat}

/-- Beyond the measure of an argument, neither the depth nor what lies below it matters. -/
theorem Descends.bounded_eq (descends : Descends step measure) (out out' : α → β) (depth : Nat) :
    ∀ depth' a, measure a < depth → measure a < depth' →
      bounded step out depth a = bounded step out' depth' a := by
  induction depth with
  | zero => exact fun depth' a less => absurd less (Nat.not_lt_zero _)
  | succ depth ih =>
    intro depth' a less less'
    cases depth' with
    | zero => exact absurd less' (Nat.not_lt_zero _)
    | succ depth' =>
      exact descends _ _ a fun a' smaller => ih depth' a' (by omega) (by omega)

/-- A recursion that descends returns what is computed at any depth that is enough. -/
theorem Descends.returns (descends : Descends step measure) (out : α → β) {depth : Nat} {a : α}
    (enough : measure a < depth) : Returns step a (bounded step out depth a) :=
  ⟨depth, fun out' => descends.bounded_eq out' out depth depth a enough enough⟩

end Recursion
