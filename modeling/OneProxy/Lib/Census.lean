import Mathlib.Data.Finset.Card
import Mathlib.Logic.Function.Basic

/-! How many members of a population are in a given condition, as members come, go and change. -/

namespace Census

variable {ι α : Type*}

/-- The number of members whose value satisfies a predicate. -/
def census (members : Finset ι) (value : ι → α) (p : α → Prop) [DecidablePred p] : Nat :=
  (members.filter fun i => p (value i)).card

variable {members : Finset ι} {value : ι → α} {p : α → Prop} [DecidablePred p] {i : ι} {a : α}

@[simp] theorem census_empty : census ∅ value p = 0 := by simp [census]

/-- Only the values of the members are counted. -/
theorem census_congr {other : ι → α} (same : ∀ i ∈ members, (p (value i) ↔ p (other i))) :
    census members value p = census members other p := by
  rw [census, census, Finset.filter_congr same]

/-- Somebody is counted exactly if some member's value satisfies the predicate. -/
theorem census_pos : 0 < census members value p ↔ ∃ i ∈ members, p (value i) := by
  rw [census, Finset.card_pos]
  simp [Finset.Nonempty]

/-- Nobody is counted exactly if no member's value satisfies the predicate. -/
theorem census_eq_zero : census members value p = 0 ↔ ∀ i ∈ members, ¬ p (value i) := by
  rw [census, Finset.card_eq_zero, Finset.filter_eq_empty_iff]

/-- What holds of no fewer members counts no fewer. -/
theorem census_mono {q : α → Prop} [DecidablePred q]
    (weaker : ∀ i ∈ members, p (value i) → q (value i)) :
    census members value p ≤ census members value q := by
  refine Finset.card_le_card fun i member => ?_
  obtain ⟨inside, holds⟩ := Finset.mem_filter.mp member
  exact Finset.mem_filter.mpr ⟨inside, weaker i inside holds⟩

variable [DecidableEq ι]

/-- A member that comes counts if its value satisfies the predicate. -/
theorem census_insert (fresh : i ∉ members) :
    census (insert i members) value p = census members value p + if p (value i) then 1 else 0 := by
  by_cases holds : p (value i)
  · have outside : i ∉ members.filter fun i => p (value i) := fun member =>
      fresh (Finset.mem_filter.mp member).1
    rw [census, Finset.filter_insert, if_pos holds, if_pos holds,
      Finset.card_insert_of_notMem outside, census]
  · rw [census, Finset.filter_insert, if_neg holds, if_neg holds, Nat.add_zero, census]

/-- A member that goes no longer counts. -/
theorem census_erase (member : i ∈ members) :
    census (members.erase i) value p + (if p (value i) then 1 else 0) = census members value p := by
  rw [← census_insert (Finset.notMem_erase i members), Finset.insert_erase member]

/-- A value that changes outside the population changes no count. -/
theorem census_update_outside (outside : i ∉ members) :
    census members (Function.update value i a) p = census members value p := by
  apply census_congr
  intro j member
  have differ : j ≠ i := fun same => outside (same ▸ member)
  rw [Function.update_of_ne differ]

/-- The count moves with the value of one member. -/
theorem census_update (member : i ∈ members) :
    census members (Function.update value i a) p + (if p (value i) then 1 else 0) =
      census members value p + if p a then 1 else 0 := by
  -- The member leaves with its old value and comes back with the new one.
  have there := @census_erase _ _ _ (Function.update value i a) p _ _ _ member
  have before := @census_erase _ _ _ value p _ _ _ member
  rw [census_update_outside (Finset.notMem_erase i members), Function.update_self] at there
  omega

/-- A member that changes in nothing counted leaves the count. -/
theorem census_update_same (member : i ∈ members) (same : p (value i) ↔ p a) :
    census members (Function.update value i a) p = census members value p := by
  have moved := @census_update _ _ _ value p _ _ a _ member
  simp only [same] at moved
  omega

/-- A member that comes to be counted is one more. -/
theorem census_update_gain (member : i ∈ members) (before : ¬ p (value i)) (after : p a) :
    census members (Function.update value i a) p = census members value p + 1 := by
  have moved := @census_update _ _ _ value p _ _ a _ member
  rw [if_neg before, if_pos after] at moved
  exact moved

/-- A member that is no longer counted is one less. -/
theorem census_update_loss (member : i ∈ members) (before : p (value i)) (after : ¬ p a) :
    census members (Function.update value i a) p + 1 = census members value p := by
  have moved := @census_update _ _ _ value p _ _ a _ member
  rw [if_pos before, if_neg after] at moved
  exact moved

end Census
