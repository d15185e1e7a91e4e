import Mathlib.Algebra.BigOperators.Group.List.Basic
import Mathlib.Algebra.Group.Basic

/-! Counters that the events of a run add to. -/

namespace Ledger

variable {σ ε γ δ A : Type*} [DecidableEq γ] [AddCommMonoid A]

/-- What a list of entries adds to a counter. -/
def amount (entries : List (γ × A)) (counter : γ) : A :=
  (entries.map fun entry => if counter = entry.1 then entry.2 else 0).sum

@[simp] theorem amount_nil (counter : γ) : amount ([] : List (γ × A)) counter = 0 := rfl

@[simp] theorem amount_cons (entry : γ × A) (rest : List (γ × A)) (counter : γ) :
    amount (entry :: rest) counter =
      (if counter = entry.1 then entry.2 else 0) + amount rest counter := by
  simp [amount]

/-- The entries of one family of counters, each named within the whole. -/
def tagged (tag : δ → γ) (entries : List (δ × A)) : List (γ × A) :=
  entries.map fun entry => (tag entry.1, entry.2)

/-- A counter of the family is added what its entries say. -/
theorem amount_tagged [DecidableEq δ] {tag : δ → γ} (injective : Function.Injective tag)
    (entries : List (δ × A)) (counter : δ) :
    amount (tagged tag entries) (tag counter) = amount entries counter := by
  induction entries with
  | nil => rfl
  | cons entry rest ih =>
    have head : tagged tag (entry :: rest) = (tag entry.1, entry.2) :: tagged tag rest := rfl
    rw [head, amount_cons, amount_cons, ih]
    simp only [injective.eq_iff]

/-- Any other counter is added nothing. -/
theorem amount_tagged_outside {tag : δ → γ} {counter : γ} (outside : ∀ d, counter ≠ tag d)
    (entries : List (δ × A)) : amount (tagged tag entries) counter = 0 := by
  induction entries with
  | nil => rfl
  | cons entry rest ih =>
    have head : tagged tag (entry :: rest) = (tag entry.1, entry.2) :: tagged tag rest := rfl
    rw [head, amount_cons, ih, if_neg (outside entry.1), zero_add]

/-- A run of events, as far as each of them can happen. -/
def run (step : σ → ε → Option σ) : σ → List ε → Option σ
  | s, [] => some s
  | s, e :: rest => (step s e).bind fun t => run step t rest

/-- What the events of a run add to a counter, each as it counts in the state before it. -/
def total (step : σ → ε → Option σ) (counts : σ → ε → List (γ × A)) (counter : γ) :
    σ → List ε → A
  | _, [] => 0
  | s, e :: rest =>
    amount (counts s e) counter +
      match step s e with
      | some t => total step counts counter t rest
      | none => 0

variable {step : σ → ε → Option σ} {counts : σ → ε → List (γ × A)} {read : σ → γ → A}

/-- A counter that each event adds to is at the end what it was, and what the run has added. -/
theorem read_run {quiet : ε → Prop}
    (adds : ∀ s e t, quiet e → step s e = some t →
      ∀ c, read t c = read s c + amount (counts s e) c)
    {s t : σ} {events : List ε} (all : ∀ e ∈ events, quiet e) (ran : run step s events = some t)
    (counter : γ) :
    read t counter = read s counter + total step counts counter s events := by
  -- The first event is counted in the state the run begins in.
  induction events generalizing s with
  | nil =>
    obtain rfl : s = t := by simpa [run] using ran
    simp [total]
  | cons e rest ih =>
    obtain ⟨u, first, later⟩ := Option.bind_eq_some_iff.mp ran
    rw [ih (fun e' member => all e' (List.mem_cons_of_mem e member)) later,
      adds s e u (all e List.mem_cons_self) first]
    simp only [total, first]
    exact add_assoc _ _ _

/-- What every event keeps holds at the end of a run. -/
theorem run_preserves {quiet : ε → Prop} {P : σ → Prop}
    (keeps : ∀ s e t, quiet e → step s e = some t → P s → P t) {s t : σ} {events : List ε}
    (all : ∀ e ∈ events, quiet e) (ran : run step s events = some t) (start : P s) : P t := by
  induction events generalizing s with
  | nil =>
    obtain rfl : s = t := by simpa [run] using ran
    exact start
  | cons e rest ih =>
    obtain ⟨u, first, later⟩ := Option.bind_eq_some_iff.mp ran
    exact ih (fun e' member => all e' (List.mem_cons_of_mem e member)) later
      (keeps s e u (all e List.mem_cons_self) first start)

end Ledger
