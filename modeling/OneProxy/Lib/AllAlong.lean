import Mathlib.Data.List.Induction
import OneProxy.Lib.Runs

/-! What holds all along a run, as a condition on its steps. -/

namespace Runs

variable {σ ℓ : Type*}

/-- Each step of a run meets a condition on the state before it and the label. -/
def EachStep (next : σ → ℓ → Option σ) (met : σ → ℓ → Prop) : σ → List ℓ → Prop
  | _, [] => True
  | s, l :: labels => met s l ∧ ∀ t, next s l = some t → EachStep next met t labels

/-- What each step keeps that meets the condition holds at the end of the run. -/
theorem EachStep.preserves {next : σ → ℓ → Option σ} {met : σ → ℓ → Prop} {inv : σ → Prop}
    (keeps : ∀ s l t, inv s → met s l → next s l = some t → inv t) {s t : σ} {labels : List ℓ}
    (each : EachStep next met s labels) (ran : exec next s labels = some t) (start : inv s) :
    inv t := by
  induction labels generalizing s with
  | nil =>
    obtain rfl := Option.some.inj ran
    exact start
  | cons l labels ih =>
    obtain ⟨u, moved, rest⟩ := Option.bind_eq_some_iff.mp ran
    exact ih (each.2 u moved) rest (keeps s l u start each.1 moved)

/-- Where a step that fails a condition cannot be made up for, a run that ends well meets it. -/
theorem EachStep.of_end {next : σ → ℓ → Option σ} {met plain : σ → ℓ → Prop} {bad : σ → Prop}
    (fails : ∀ s l t, plain s l → ¬ met s l → next s l = some t → bad t)
    (stays : ∀ s l t, plain s l → bad s → next s l = some t → bad t) {s t : σ} {labels : List ℓ}
    (each : EachStep next plain s labels) (ran : exec next s labels = some t) (good : ¬ bad t) :
    EachStep next met s labels := by
  induction labels generalizing s with
  | nil => trivial
  | cons l labels ih =>
    obtain ⟨u, moved, rest⟩ := Option.bind_eq_some_iff.mp ran
    have later := ih (each.2 u moved) rest
    refine ⟨Classical.byContradiction fun failed => ?_, fun v moved' => ?_⟩
    · -- A step that has gone wrong stays wrong to the end of the run.
      exact good (each.2 u moved |>.preserves (fun s l t wrong met => stays s l t met wrong) rest
        (fails s l u each.1 failed moved))
    · obtain rfl := Option.some.inj (moved.symm.trans moved')
      exact later

/--
A run is good after each of its steps exactly if each step meets its condition, where a step from a
good state leads to a good state exactly if it does.

The invariant is only asked for where the run has been good so far.
-/
theorem allAlong_iff {next : σ → ℓ → Option σ} {good inv : σ → Prop} {met : σ → ℓ → Prop} {s : σ}
    {labels : List ℓ} (start : good s) (kept : inv s)
    (step : ∀ front l t, front ++ [l] <+: labels → exec next s front = some t → good t → inv t →
      ((∃ u, next t l = some u ∧ good u) ↔ met t l))
    (keeps : ∀ front l t u, front ++ [l] <+: labels → exec next s front = some t → good t → inv t →
      met t l → next t l = some u → inv u) :
    (∀ front, front <+: labels → ∃ t, exec next s front = some t ∧ good t) ↔
      ∀ front l, front ++ [l] <+: labels → ∀ t, exec next s front = some t → met t l := by
  induction labels generalizing s with
  | nil =>
    constructor
    · intro _ front l early
      exact absurd (List.prefix_nil.mp early) (by simp)
    · intro _ front early
      rw [List.prefix_nil.mp early]
      exact ⟨s, rfl, start⟩
  | cons l labels ih =>
    have first := step [] l s (by simp) rfl start kept
    -- What is known of the whole run is known of the rest of it, behind the first step.
    have rest : ∀ u, next s l = some u → good u → met s l →
        ((∀ front, front <+: labels → ∃ t, exec next u front = some t ∧ good t) ↔
          ∀ front l', front ++ [l'] <+: labels →
            ∀ t, exec next u front = some t → met t l') := by
      intro u moved goodU metL
      have behind : ∀ {front}, exec next s (l :: front) = exec next u front := by
        intro front
        simp only [exec, moved, Option.bind_some]
      refine ih goodU (keeps [] l s u (by simp) rfl start kept metL moved) ?_ ?_
      · intro front l' t early reached
        exact step (l :: front) l' t (List.cons_prefix_cons.mpr ⟨rfl, early⟩)
          (behind.trans reached)
      · intro front l' t v early reached
        exact keeps (l :: front) l' t v (List.cons_prefix_cons.mpr ⟨rfl, early⟩)
          (behind.trans reached)
    constructor
    · intro along
      obtain ⟨u, moved, goodU⟩ := along [l] (by simp)
      simp only [exec, Option.bind_eq_some_iff] at moved
      obtain ⟨u', moved, same⟩ := moved
      obtain rfl := Option.some.inj same
      have metL : met s l := first.mp ⟨u', moved, goodU⟩
      have later := (rest u' moved goodU metL).mp (by
        intro front early
        obtain ⟨t, reached, goodT⟩ := along (l :: front) (List.cons_prefix_cons.mpr ⟨rfl, early⟩)
        simp only [exec, moved, Option.bind_some] at reached
        exact ⟨t, reached, goodT⟩)
      intro front l' early t reached
      cases front with
      | nil =>
        obtain ⟨rfl, _⟩ := List.cons_prefix_cons.mp early
        obtain rfl := Option.some.inj reached
        exact metL
      | cons head front =>
        obtain ⟨rfl, early'⟩ := List.cons_prefix_cons.mp early
        simp only [exec, moved, Option.bind_some] at reached
        exact later front l' early' t reached
    · intro allMet front early
      have metL : met s l := allMet [] l (by simp) s rfl
      obtain ⟨u, moved, goodU⟩ := first.mpr metL
      have later := (rest u moved goodU metL).mpr (by
        intro front l' early t reached
        refine allMet (l :: front) l' (List.cons_prefix_cons.mpr ⟨rfl, early⟩) t ?_
        simp only [exec, moved, Option.bind_some, reached])
      cases front with
      | nil => exact ⟨s, rfl, start⟩
      | cons head front =>
        obtain ⟨rfl, early'⟩ := List.cons_prefix_cons.mp early
        obtain ⟨t, reached, goodT⟩ := later front early'
        exact ⟨t, by simp only [exec, moved, Option.bind_some, reached], goodT⟩

/--
All states that a list of labels leads through are good exactly if each of its steps meets its
condition, where a step from a good state leads to a good state exactly if it does.

The invariant is only asked for where the run has been good so far. Labels from the first one on
that is not enabled are not asked about.
-/
theorem allReached_iff_of_invariant {next : σ → ℓ → Option σ} {good inv : σ → Prop}
    {met : σ → ℓ → Prop} {s : σ} (start : good s) (kept : inv s)
    (keeps : ∀ t l u, inv t → good t → next t l = some u → good u → inv u)
    (step : ∀ t l u, inv t → good t → next t l = some u → (good u ↔ met t l))
    (labels : List ℓ) :
    (∀ front, front <+: labels → ∀ t, exec next s front = some t → good t) ↔
      ∀ front l, front ++ [l] <+: labels → ∀ t u, exec next s front = some t → next t l = some u →
        met t l := by
  have last : ∀ {front l u}, exec next s (front ++ [l]) = some u ↔
      ∃ t, exec next s front = some t ∧ next t l = some u := by
    intro front l u
    simp only [exec_append, exec, Option.bind_eq_some_iff, Option.some.injEq, exists_eq_right]
  constructor
  · intro along
    have invariant : ∀ front, front <+: labels → ∀ t, exec next s front = some t → inv t := by
      intro front early
      -- The induction is on the labels so far, from the last one back.
      induction front using List.reverseRecOn with
      | nil =>
        intro t reached
        obtain rfl := Option.some.inj reached
        exact kept
      | append_singleton front l ih =>
        intro u reached
        obtain ⟨t, before, moved⟩ := last.mp reached
        have early' := (List.prefix_append front [l]).trans early
        exact keeps t l u (ih early' t before) (along front early' t before) moved
          (along (front ++ [l]) early u reached)
    intro front l early t u reached moved
    have early' := (List.prefix_append front [l]).trans early
    exact (step t l u (invariant front early' t reached) (along front early' t reached) moved).mp
      (along (front ++ [l]) early u (last.mpr ⟨t, reached, moved⟩))
  · intro each
    have both : ∀ front, front <+: labels → ∀ t, exec next s front = some t → inv t ∧ good t := by
      intro front early
      induction front using List.reverseRecOn with
      | nil =>
        intro t reached
        obtain rfl := Option.some.inj reached
        exact ⟨kept, start⟩
      | append_singleton front l ih =>
        intro u reached
        obtain ⟨t, before, moved⟩ := last.mp reached
        obtain ⟨invT, goodT⟩ := ih ((List.prefix_append front [l]).trans early) t before
        have goodU := (step t l u invT goodT moved).mpr (each front l early t u before moved)
        exact ⟨keeps t l u invT goodT moved goodU, goodU⟩
    exact fun front early t reached => (both front early t reached).2

/-- The same without an invariant. -/
theorem allReached_iff {next : σ → ℓ → Option σ} {good : σ → Prop} {met : σ → ℓ → Prop} {s : σ}
    (start : good s) (step : ∀ t l u, good t → next t l = some u → (good u ↔ met t l))
    (labels : List ℓ) :
    (∀ front, front <+: labels → ∀ t, exec next s front = some t → good t) ↔
      ∀ front l, front ++ [l] <+: labels → ∀ t u, exec next s front = some t → next t l = some u →
        met t l :=
  @allReached_iff_of_invariant _ _ next good (fun _ => True) met s start trivial
    (fun _ _ _ _ _ _ _ => trivial) (fun t l u _ => step t l u) labels

end Runs
