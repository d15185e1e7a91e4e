import Mathlib.Logic.Relation

/-! Labelled step systems, their runs, and invariants of every run or of every conditioned run. -/

namespace Runs

/-- A system of states `σ` moved by labelled steps `ℓ`. -/
structure System (σ ℓ : Type*) where
  /-- States a run may begin in. -/
  init : σ → Prop
  /-- `step s l t` says that label `l` can take `s` to `t`. -/
  step : σ → ℓ → σ → Prop

variable {σ ℓ : Type*}

/-- A finite run, listing its labels from the first to the last. -/
inductive Run (S : System σ ℓ) : σ → List ℓ → σ → Prop
  | nil (s : σ) : Run S s [] s
  | snoc {s t u : σ} {labels : List ℓ} {l : ℓ} :
      Run S s labels t → S.step t l u → Run S s (labels ++ [l]) u

/-- A state that some run from an initial state ends in. -/
def Reachable (S : System σ ℓ) (t : σ) : Prop :=
  ∃ s labels, S.init s ∧ Run S s labels t

/-- The runs of a system whose steps all meet a condition on the state before and the label. -/
def System.restrict (S : System σ ℓ) (allowed : σ → ℓ → Prop) : System σ ℓ where
  init := S.init
  step s l t := allowed s l ∧ S.step s l t

/-- A deterministic step function, undefined where the label is not enabled. -/
def System.ofStep (init : σ → Prop) (next : σ → ℓ → Option σ) : System σ ℓ where
  init := init
  step s l t := next s l = some t

/-- What holds at the start of a run and survives each of its steps holds at its end. -/
theorem Run.preserves {S : System σ ℓ} {inv : σ → Prop}
    (step : ∀ s l t, inv s → S.step s l t → inv t) {s t : σ} {labels : List ℓ}
    (run : Run S s labels t) (start : inv s) : inv t := by
  -- The last step of the run is the step the invariant is carried over.
  induction run with
  | nil => exact start
  | snoc _ last ih => exact step _ _ _ ih last

/-- A run may begin one step earlier. -/
theorem Run.cons {S : System σ ℓ} {s t u : σ} {l : ℓ} {labels : List ℓ} (first : S.step s l t)
    (run : Run S t labels u) : Run S s (l :: labels) u := by
  induction run with
  | nil => exact (Run.nil s).snoc first
  | snoc _ last ih => exact ih.snoc last

/-- An inductive invariant holds in every reachable state. -/
theorem Reachable.invariant {S : System σ ℓ} {inv : σ → Prop}
    (start : ∀ s, S.init s → inv s) (step : ∀ s l t, inv s → S.step s l t → inv t)
    {t : σ} (reached : Reachable S t) : inv t := by
  obtain ⟨s, labels, begun, run⟩ := reached
  exact run.preserves step (start s begun)

/-- Initial states are reached by the empty run. -/
theorem Reachable.start {S : System σ ℓ} {s : σ} (begun : S.init s) : Reachable S s :=
  ⟨s, [], begun, .nil s⟩

/-- One more step from a reachable state reaches the next one. -/
theorem Reachable.next {S : System σ ℓ} {s t : σ} {l : ℓ} (reached : Reachable S s)
    (last : S.step s l t) : Reachable S t := by
  obtain ⟨origin, labels, begun, run⟩ := reached
  exact ⟨origin, labels ++ [l], begun, run.snoc last⟩

/-- A conditioned run is a run. -/
theorem Reachable.of_restrict {S : System σ ℓ} {allowed : σ → ℓ → Prop} {t : σ}
    (reached : Reachable (S.restrict allowed) t) : Reachable S t := by
  -- Forgetting the condition leaves the step itself.
  have start : ∀ s, (S.restrict allowed).init s → Reachable S s :=
    fun s begun => Reachable.start begun
  refine reached.invariant start ?_
  intro s l u before last
  exact before.next last.2

/--
An invariant of every run may be assumed while another one is shown for the conditioned runs.

The second invariant is only ever asked for along steps that meet the condition.
-/
theorem Reachable.restrict_invariant {S : System σ ℓ} {allowed : σ → ℓ → Prop}
    {base inv : σ → Prop}
    (always : ∀ t, Reachable S t → base t) (start : ∀ s, S.init s → inv s)
    (step : ∀ s l t, base s → inv s → allowed s l → S.step s l t → inv t)
    {t : σ} (reached : Reachable (S.restrict allowed) t) : inv t := by
  -- Each step needs the unconditioned invariant of the state it leaves.
  have begin : ∀ s, (S.restrict allowed).init s → Reachable S s ∧ inv s :=
    fun s begun => ⟨Reachable.start begun, start s begun⟩
  have keep : ∀ s l u, Reachable S s ∧ inv s → (S.restrict allowed).step s l u →
      Reachable S u ∧ inv u := by
    intro s l u before last
    exact ⟨before.1.next last.2, step s l u (always s before.1) before.2 last.1 last.2⟩
  exact (reached.invariant begin keep).2

/-- A relation that every step of one system keeps with a run of another covers all its runs. -/
theorem Reachable.simulate {τ μ : Type*} {S : System σ ℓ} {T : System τ μ} (related : σ → τ → Prop)
    (start : ∀ s, S.init s → ∃ t, Reachable T t ∧ related s t)
    (step : ∀ s l s' t, Reachable T t → related s t → S.step s l s' →
      ∃ t', Reachable T t' ∧ related s' t')
    {s : σ} (reached : Reachable S s) : ∃ t, Reachable T t ∧ related s t := by
  apply reached.invariant start
  intro s l s' before last
  obtain ⟨t, reached', same⟩ := before
  exact step s l s' t reached' same last

/-- The state a list of labels leads to under a step function, if every label is enabled. -/
def exec (next : σ → ℓ → Option σ) : σ → List ℓ → Option σ
  | s, [] => some s
  | s, l :: labels => (next s l).bind fun t => exec next t labels

/-- Executing two lists of labels in turn. -/
theorem exec_append (next : σ → ℓ → Option σ) (s : σ) (front back : List ℓ) :
    exec next s (front ++ back) = (exec next s front).bind fun t => exec next t back := by
  induction front generalizing s with
  | nil => rfl
  | cons l front ih =>
    simp only [List.cons_append, exec, Option.bind_assoc]
    congr
    funext t
    exact ih t

/-- Executing a list of labels is a run. -/
theorem run_of_exec (init : σ → Prop) {next : σ → ℓ → Option σ} {s t : σ} {labels : List ℓ}
    (done : exec next s labels = some t) : Run (System.ofStep init next) s labels t := by
  -- Each label is one step before the rest of the run.
  induction labels generalizing s with
  | nil =>
    obtain rfl := Option.some.inj done
    exact .nil s
  | cons l labels ih =>
    simp only [exec, Option.bind_eq_some_iff] at done
    obtain ⟨u, first, rest⟩ := done
    exact (ih rest).cons first

/-- One run after another is a run. -/
theorem Run.append {S : System σ ℓ} {s t u : σ} {front back : List ℓ} (first : Run S s front t)
    (second : Run S t back u) : Run S s (front ++ back) u := by
  induction second with
  | nil => simpa using first
  | snoc _ last ih => simpa using ih.snoc last

/-- What is executed from a reachable state is reachable. -/
theorem reachable_of_exec {init : σ → Prop} {next : σ → ℓ → Option σ} {s t : σ}
    {labels : List ℓ} (begun : Reachable (System.ofStep init next) s)
    (done : exec next s labels = some t) : Reachable (System.ofStep init next) t := by
  obtain ⟨origin, before, start, run⟩ := begun
  exact ⟨origin, before ++ labels, start, run.append (run_of_exec init done)⟩

/-- A step function that refuses the labels a condition rules out. -/
def guarded (allowed : σ → ℓ → Prop) [∀ s l, Decidable (allowed s l)] (next : σ → ℓ → Option σ)
    (s : σ) (l : ℓ) : Option σ :=
  if allowed s l then next s l else none

/-- Executing under a refused condition only makes runs that meet the condition. -/
theorem reachable_of_guarded {init : σ → Prop} {next : σ → ℓ → Option σ}
    {allowed : σ → ℓ → Prop} [∀ s l, Decidable (allowed s l)] {t : σ}
    (reached : Reachable (System.ofStep init (guarded allowed next)) t) :
    Reachable ((System.ofStep init next).restrict allowed) t := by
  -- A guarded step that is defined met the condition and is a step of the unguarded function.
  have start : ∀ s, init s → Reachable ((System.ofStep init next).restrict allowed) s :=
    fun s begun => Reachable.start begun
  refine reached.invariant start ?_
  intro s l u before last
  have met : allowed s l ∧ next s l = some u := by
    simpa [System.ofStep, guarded] using last
  exact before.next ⟨met.1, met.2⟩

/-- What is observed at the end of an executed list of labels is observed in a reachable state. -/
theorem exists_reachable (init : σ → Prop) {next : σ → ℓ → Option σ} {s : σ} {labels : List ℓ}
    {α : Type*} {observe : σ → α} {seen : α} (begun : init s)
    (done : (exec next s labels).map observe = some seen) :
    ∃ t, Reachable (System.ofStep init next) t ∧ observe t = seen := by
  obtain ⟨t, executed, same⟩ := Option.map_eq_some_iff.mp done
  have start : Reachable (System.ofStep init next) s := Reachable.start begun
  exact ⟨t, reachable_of_exec start executed, same⟩

/-- The same, for labels that all meet a condition. -/
theorem exists_reachable_guarded (init : σ → Prop) {next : σ → ℓ → Option σ}
    {allowed : σ → ℓ → Prop} [∀ s l, Decidable (allowed s l)] {s : σ} {labels : List ℓ}
    {α : Type*} {observe : σ → α} {seen : α} (begun : init s)
    (done : (exec (guarded allowed next) s labels).map observe = some seen) :
    ∃ t, Reachable ((System.ofStep init next).restrict allowed) t ∧ observe t = seen := by
  obtain ⟨t, reached, same⟩ := exists_reachable init begun done
  exact ⟨t, reachable_of_guarded reached, same⟩

end Runs
