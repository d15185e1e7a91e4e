import OneProxy.Lib.Runs

/-! Systems that take notes of their runs. -/

namespace Runs

variable {σ ℓ η : Type*}

/-- A system together with notes: each step is noted in the state it begins in. -/
def System.traced (S : System σ ℓ) (blank : η) (note : σ → ℓ → η → η) : System (σ × η) ℓ where
  init p := S.init p.1 ∧ p.2 = blank
  step p l q := S.step p.1 l q.1 ∧ q.2 = note p.1 l p.2

variable {S : System σ ℓ} {blank : η} {note : σ → ℓ → η → η}

/-- Taking notes does not add runs. -/
theorem Reachable.of_traced {p : σ × η} (reached : Reachable (S.traced blank note) p) :
    Reachable S p.1 := by
  obtain ⟨start, labels, begun, run⟩ := reached
  refine ⟨start.1, labels, begun.1, ?_⟩
  clear begun
  induction run with
  | nil => exact Run.nil _
  | snoc _ last ih => exact ih.snoc last.1

/-- Every run can be noted. -/
theorem Reachable.traced {s : σ} (reached : Reachable S s) :
    ∃ h, Reachable (S.traced blank note) (s, h) := by
  obtain ⟨start, labels, begun, run⟩ := reached
  induction run with
  | nil => exact ⟨blank, Reachable.start ⟨begun, rfl⟩⟩
  | snoc _ last ih =>
    obtain ⟨h, noted⟩ := ih
    exact ⟨_, noted.next ⟨last, rfl⟩⟩

/-- A step function that takes its notes along. -/
def noteStep (next : σ → ℓ → Option σ) (note : σ → ℓ → η → η) (p : σ × η) (l : ℓ) :
    Option (σ × η) :=
  (next p.1 l).map fun t => (t, note p.1 l p.2)

/-- What is executed with its notes is reachable with its notes. -/
theorem reachable_of_noteStep {init : σ → Prop} {next : σ → ℓ → Option σ} {p q : σ × η}
    {labels : List ℓ} (reached : Reachable ((System.ofStep init next).traced blank note) p)
    (done : exec (noteStep next note) p labels = some q) :
    Reachable ((System.ofStep init next).traced blank note) q := by
  induction labels generalizing p with
  | nil =>
    obtain rfl : p = q := Option.some.inj done
    exact reached
  | cons l labels ih =>
    obtain ⟨mid, first, rest⟩ := Option.bind_eq_some_iff.mp done
    obtain ⟨t, moved, rfl⟩ := Option.map_eq_some_iff.mp first
    have step : ((System.ofStep init next).traced blank note).step p l (t, note p.1 l p.2) :=
      ⟨moved, rfl⟩
    exact ih (reached.next step) rest

end Runs
