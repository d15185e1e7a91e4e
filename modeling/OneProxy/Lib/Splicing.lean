import Mathlib

/-! Edits of a list, each made where its position was before all of them. -/

namespace Splicing

variable {α : Type*}

/-- A range of positions, and what comes there instead. -/
structure Edit (α : Type*) where
  start : Nat
  stop : Nat
  new : List α

/-- One edit, of a list that has the range. -/
def Edit.apply (e : Edit α) (t : List α) : Option (List α) :=
  if e.start ≤ t.length ∧ e.stop ≤ t.length then some (t.take e.start ++ e.new ++ t.drop e.stop)
  else none

/-- All edits, from the last one to the first one. -/
def applyAll : List (Edit α) → List α → Option (List α)
  | [], t => some t
  | e :: es, t => (applyAll es t).bind e.apply

/-- All edits at once, from a position on. -/
def atOnce (t : List α) : Nat → List (Edit α) → List α
  | i, [] => t.drop i
  | i, e :: es => (t.take e.start).drop i ++ (e.new ++ atOnce t e.stop es)

/-- The ranges are behind each other from a position on, and within the list. -/
def Apart (t : List α) : Nat → List (Edit α) → Prop
  | i, [] => i ≤ t.length
  | i, e :: es => i ≤ e.start ∧ e.start ≤ e.stop ∧ Apart t e.stop es

variable {t r : List α} {i j : Nat} {e : Edit α} {es : List (Edit α)}

theorem Apart.le (apart : Apart t i es) : i ≤ t.length := by
  induction es generalizing i with
  | nil => exact apart
  | cons e es ih => exact Nat.le_trans apart.1 (Nat.le_trans apart.2.1 (ih apart.2.2))

/-- No range begins before. -/
theorem Apart.le_start (apart : Apart t i es) : ∀ e ∈ es, i ≤ e.start := by
  induction es generalizing i with
  | nil => exact fun e member => absurd member List.not_mem_nil
  | cons e es ih =>
    intro other member
    rcases List.mem_cons.mp member with rfl | member
    · exact apart.1
    · exact Nat.le_trans (Nat.le_trans apart.1 apart.2.1) (ih apart.2.2 other member)

/-- Ranges that are not empty begin one after another. -/
theorem Apart.pairwise (apart : Apart t i es) (some_ : ∀ e ∈ es, e.start < e.stop) :
    (es.map (·.start)).Pairwise (· < ·) := by
  induction es generalizing i with
  | nil => exact List.Pairwise.nil
  | cons e es ih =>
    refine List.pairwise_cons.mpr ⟨fun start member => ?_,
      ih apart.2.2 fun e member => some_ e (List.mem_cons_of_mem _ member)⟩
    obtain ⟨later, inside, rfl⟩ := List.mem_map.mp member
    exact Nat.lt_of_lt_of_le (some_ e List.mem_cons_self) (apart.2.2.le_start later inside)

/-- What is before all ranges may be left out. -/
theorem Apart.mono (apart : Apart t i es) (le : j ≤ i) : Apart t j es := by
  cases es with
  | nil => exact Nat.le_trans le apart
  | cons e es => exact ⟨Nat.le_trans le apart.1, apart.2⟩

/-- What stands before all ranges stays there. -/
theorem atOnce_split (apart : Apart t j es) (le : i ≤ j) :
    atOnce t i es = (t.take j).drop i ++ atOnce t j es := by
  cases es with
  | nil =>
    rw [atOnce, atOnce]
    conv_lhs => rw [← List.take_append_drop j t]
    rw [List.drop_append_of_le_length]
    rw [List.length_take]
    exact Nat.le_min.mpr ⟨le, Nat.le_trans le apart⟩
  | cons e es =>
    -- Up to the first range, the text is cut at the place.
    have cut : t.take e.start = t.take j ++ (t.take e.start).drop j := by
      have front : t.take j = (t.take e.start).take j := by
        rw [List.take_take, Nat.min_eq_left apart.1]
      rw [front, List.take_append_drop]
    rw [atOnce, atOnce, ← List.append_assoc _ _ (e.new ++ _)]
    congr 1
    conv_lhs => rw [cut]
    rw [List.drop_append_of_le_length]
    rw [List.length_take]
    exact Nat.le_min.mpr ⟨le, Nat.le_trans le apart.le⟩

/-- Edits that are apart do not get in each other's way. -/
theorem applyAll_eq (apart : Apart t i es) :
    applyAll es t = some (t.take i ++ atOnce t i es) := by
  induction es generalizing i with
  | nil => rw [applyAll, atOnce, List.take_append_drop]
  | cons e es ih =>
    obtain ⟨le, range, rest⟩ := apart
    have within := rest.le
    -- The later edits have left all before the end of this range alone.
    have stopLength : (t.take e.stop).length = e.stop := by
      rw [List.length_take, Nat.min_eq_left within]
    have front : (t.take e.stop ++ atOnce t e.stop es).take e.start = t.take e.start := by
      rw [List.take_append_of_le_length (by omega), List.take_take, Nat.min_eq_left range]
    have back : (t.take e.stop ++ atOnce t e.stop es).drop e.stop = atOnce t e.stop es := by
      rw [List.drop_append_of_le_length (by omega), List.drop_of_length_le (by omega),
        List.nil_append]
    have whole : t.take e.start = t.take i ++ (t.take e.start).drop i := by
      have prefix_ : t.take i = (t.take e.start).take i := by
        rw [List.take_take, Nat.min_eq_left le]
      rw [prefix_, List.take_append_drop]
    rw [applyAll, ih rest, Option.bind_some, Edit.apply, front, back, if_pos, atOnce]
    · conv_lhs => rw [whole]
      simp only [List.append_assoc]
    · rw [List.length_append]
      omega

/-! ## Counting -/

variable [BEq α] {b : α}

/-- An edit adds what is new and takes what was there. -/
theorem count_apply (range : e.start ≤ e.stop) (done : e.apply t = some r) :
    r.count b + ((t.take e.stop).drop e.start).count b = t.count b + e.new.count b := by
  rw [Edit.apply] at done
  split at done
  · have same := Option.some.inj done
    have front : t.take e.start ++ (t.take e.stop).drop e.start = t.take e.stop := by
      have prefix_ : t.take e.start = (t.take e.stop).take e.start := by
        rw [List.take_take, Nat.min_eq_left range]
      rw [prefix_, List.take_append_drop]
    have parts : (t.take e.start).count b + ((t.take e.stop).drop e.start).count b +
        (t.drop e.stop).count b = t.count b := by
      rw [← List.count_append, front, ← List.count_append, List.take_append_drop]
    rw [← same, List.count_append, List.count_append]
    omega
  · exact absurd done (by simp)

/-- Edits add no more than what is new. -/
theorem count_applyAll_le (range : ∀ e ∈ es, e.start ≤ e.stop) (done : applyAll es t = some r) :
    r.count b ≤ t.count b + (es.map (·.new.count b)).sum := by
  -- The last edit is made first.
  induction es generalizing r with
  | nil =>
    rw [applyAll, Option.some.injEq] at done
    rw [done]
    exact Nat.le_add_right _ _
  | cons e es ih =>
    obtain ⟨between, before, last⟩ := Option.bind_eq_some_iff.mp done
    have fewer := ih (fun e member => range e (List.mem_cons_of_mem _ member)) before
    have counted := @count_apply _ _ _ e _ b (range e List.mem_cons_self) last
    rw [List.map_cons, List.sum_cons]
    omega

variable [LawfulBEq α]

/--
Edits are apart if none of what they add is lost.

Each adds so much of one thing that an edit within its range would take some of it.
-/
theorem apart_of_count
    (fits : ∀ e ∈ es, e.start < e.stop ∧ e.stop ≤ t.length ∧
      ∃ n, t.length ≤ n ∧ e.new = List.replicate n b)
    (done : applyAll es t = some r)
    (kept : t.count b + (es.map (·.new.count b)).sum ≤ r.count b) : Apart t 0 es := by
  induction es generalizing r with
  | nil => exact Nat.zero_le _
  | cons e es ih =>
    have range : ∀ e ∈ es, e.start ≤ e.stop := by
      intro e member
      exact Nat.le_of_lt (fits e (List.mem_cons_of_mem _ member)).1
    obtain ⟨some_, within, _⟩ := fits e List.mem_cons_self
    obtain ⟨between, before, last⟩ := Option.bind_eq_some_iff.mp done
    have fewer := count_applyAll_le (b := b) range before
    have counted := @count_apply _ _ _ e _ b (Nat.le_of_lt some_) last
    rw [List.map_cons, List.sum_cons] at kept
    have none_ : ((between.take e.stop).drop e.start).count b = 0 := by omega
    have rest := ih (fun e member => fits e (List.mem_cons_of_mem _ member)) before (by omega)
    refine ⟨Nat.zero_le _, Nat.le_of_lt some_, ?_⟩
    cases es with
    | nil => exact within
    | cons next es =>
      refine ⟨?_, rest.2⟩
      by_contra overlap
      obtain ⟨nextSome, nextWithin, n, long, new⟩ :=
        fits next (List.mem_cons_of_mem _ List.mem_cons_self)
      -- The two ranges have a position in common, and what is new stands there.
      have shape : between = t.take next.start ++
          (List.replicate n b ++ atOnce t next.stop es) := by
        have all := applyAll_eq (rest.mono (Nat.zero_le 0))
        rw [before, atOnce, Option.some.injEq, new, List.take_zero, List.nil_append,
          List.drop_zero] at all
        exact all
      have length : (t.take next.start).length = next.start := by
        rw [List.length_take]
        omega
      have there : between[max e.start next.start]? = some b := by
        rw [shape, List.getElem?_append_right (by omega), length,
          List.getElem?_append_left (by rw [List.length_replicate]; omega),
          List.getElem?_replicate, if_pos (by omega)]
      have taken : b ∈ (between.take e.stop).drop e.start := by
        refine List.mem_of_getElem? (i := max e.start next.start - e.start) ?_
        rw [List.getElem?_drop, List.getElem?_take, if_pos (by omega)]
        rw [← there]
        congr 1
        omega
      exact absurd none_ (Nat.pos_iff_ne_zero.mp (List.count_pos_iff.mpr taken))

end Splicing
