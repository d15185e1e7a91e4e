import Mathlib.Data.List.Basic
import Mathlib.Data.List.Perm.Basic

/-! Sorting a list, and listing it page by page. -/

namespace SortedListing

open scoped List

variable {α : Type*}

/-- A comparison that sorting can rely on. -/
structure WeakOrder (less : α → α → Bool) : Prop where
  asymm : ∀ a b, less a b = true → less b a = false
  trans : ∀ a b c, less b a = false → less c b = false → less c a = false

/-- A sort that leaves the order of elements open of which neither is less than the other. -/
structure Sorting (α : Type*) where
  run : (α → α → Bool) → List α → List α
  perm : ∀ less l, (run less l).Perm l
  ordered : ∀ less l, WeakOrder less → (run less l).Pairwise fun a b => less b a = false

section Keys

variable (key : α → Nat)

/-- Keys in ascending order. -/
theorem weakOrder_asc : WeakOrder fun a b => decide (key a < key b) := by
  constructor
  · intro a b below
    have below := of_decide_eq_true below
    exact decide_eq_false (by omega)
  · intro a b c first second
    have first := of_decide_eq_false first
    have second := of_decide_eq_false second
    exact decide_eq_false (by omega)

/-- Keys in descending order. -/
theorem weakOrder_desc : WeakOrder fun a b => decide (key a > key b) := by
  constructor
  · intro a b above
    have above := of_decide_eq_true above
    exact decide_eq_false (by omega)
  · intro a b c first second
    have first := of_decide_eq_false first
    have second := of_decide_eq_false second
    exact decide_eq_false (by omega)

end Keys

variable {less : α → α → Bool}

/-- What is not greater comes first. -/
def notGreater (less : α → α → Bool) (a b : α) : Bool := !less b a

/-- Not being greater is transitive. -/
theorem WeakOrder.notGreater_trans (order : WeakOrder less) (a b c : α)
    (first : notGreater less a b = true) (second : notGreater less b c = true) :
    notGreater less a c = true := by
  simp only [notGreater, Bool.not_eq_true'] at first second ⊢
  exact order.trans a b c first second

/-- Of two elements one is not greater. -/
theorem WeakOrder.notGreater_total (order : WeakOrder less) (a b : α) :
    (notGreater less a b || notGreater less b a) = true := by
  simp only [notGreater, Bool.or_eq_true, Bool.not_eq_true']
  cases below : less b a with
  | false => exact Or.inl rfl
  | true => exact Or.inr (order.asymm b a below)

/-- A sort that keeps the order of equal elements. -/
def Sorting.stable : Sorting α where
  run less l := l.mergeSort (notGreater less)
  perm less l := List.mergeSort_perm l _
  ordered less l order := by
    have sorted := List.pairwise_mergeSort order.notGreater_trans order.notGreater_total l
    exact sorted.imp fun {x y} first => by simpa [notGreater] using first

open Classical in
/-- A sort that puts an element before those that are equal to it. -/
noncomputable def Sorting.favouring (a : α) : Sorting α where
  run less l := Sorting.stable.run less (if a ∈ l then a :: l.erase a else l)
  perm less l := by
    refine (Sorting.stable.perm less _).trans ?_
    split
    · next member => exact (List.perm_cons_erase member).symm
    · exact List.Perm.refl l
  ordered less l order := Sorting.stable.ordered less _ order

/-- An element that is not greater than another comes before it in some sort. -/
theorem Sorting.favouring_sublist (order : WeakOrder less) {l : List α} {a b : α} (here : a ∈ l)
    (there : b ∈ l) (differ : b ≠ a) (first : less b a = false) :
    [a, b] <+ (Sorting.favouring a).run less l := by
  classical
  have pair : [a, b] <+ if a ∈ l then a :: l.erase a else l := by
    rw [if_pos here]
    exact (List.singleton_sublist.mpr ((List.mem_erase_of_ne differ).mpr there)).cons_cons a
  exact List.pair_sublist_mergeSort order.notGreater_trans order.notGreater_total
    (by simpa [notGreater] using first) pair

/--
Every sort puts the elements into a given order exactly if that order holds of any two of which the
second one is not less.
-/
theorem ordered_iff (order : WeakOrder less) {R : α → α → Prop} (refl : ∀ a, R a a) (l : List α) :
    (∀ sort : Sorting α, (sort.run less l).Pairwise R) ↔
      ∀ a ∈ l, ∀ b ∈ l, less b a = false → R a b := by
  constructor
  · intro sorted a here b there first
    by_cases same : b = a
    · rw [same]
      exact refl a
    · have pair := (sorted (Sorting.favouring a)).sublist
        (Sorting.favouring_sublist order here there same first)
      exact List.pairwise_pair.mp pair
  · intro agrees sort
    have members : ∀ a ∈ sort.run less l, a ∈ l := fun a member =>
      (sort.perm less l).mem_iff.mp member
    exact (sort.ordered less l order).imp_of_mem fun {a b} here there first =>
      agrees a (members a here) b (members b there) first

/-! ## Pages -/

/-- The pages of one width are the beginning of the list. -/
theorem flatMap_pages (l : List α) (width count : Nat) :
    ((List.range count).flatMap fun k => (l.take ((k + 1) * width)).drop (k * width)) =
      l.take (count * width) := by
  induction count with
  | zero => simp
  | succ count ih =>
    have begins : l.take (count * width) = (l.take ((count + 1) * width)).take (count * width) := by
      rw [List.take_take, Nat.min_eq_left (Nat.mul_le_mul_right width (by omega))]
    -- One more page is taken off behind the ones before.
    rw [List.range_succ, List.flatMap_append, ih, List.flatMap_singleton, begins,
      List.take_append_drop]

/-- The number of pages that hold some elements. -/
def pageCount (size width : Nat) : Nat := (size + width - 1) / width

variable {size width : Nat}

/-- The pages hold all the elements. -/
theorem le_pageCount_mul (some_ : 0 < width) : size ≤ pageCount size width * width := by
  have division := Nat.div_add_mod (size + width - 1) width
  have rest := Nat.mod_lt (size + width - 1) some_
  rw [pageCount, Nat.mul_comm]
  omega

/-- A page has elements if the pages before it are full. -/
theorem lt_pageCount (some_ : 0 < width) {number : Nat} :
    number < pageCount size width ↔ number * width < size := by
  rw [pageCount, ← Nat.succ_le_iff, Nat.le_div_iff_mul_le some_, Nat.succ_mul]
  omega

/-- Without the last one they do not. -/
theorem pageCount_mul_lt : pageCount size width * width < size + width ∨ width = 0 := by
  by_cases none_ : width = 0
  · exact Or.inr none_
  · have most := Nat.div_mul_le_self (size + width - 1) width
    rw [pageCount]
    omega

end SortedListing
