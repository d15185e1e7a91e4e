import Mathlib

/-! Loads that are shared out: how far they lie above an equal share of a limit. -/

namespace Shares

variable {ι : Type*}

/-- The sum of the loads of some workers. -/
def total (workers : List ι) (load : ι → Nat) : Nat := (workers.map load).sum

/-- By how much they lie above a share, all together. -/
def excess (workers : List ι) (share : Nat) (load : ι → Nat) : Nat :=
  total workers fun worker => load worker - share

variable {workers : List ι} {load : ι → Nat} {worker : ι} {limit : Nat}

/-- One worker's load is part of the sum. -/
theorem le_total (member : worker ∈ workers) : load worker ≤ total workers load :=
  List.le_sum_of_mem (List.mem_map_of_mem member)

/-- What lies above a share makes up for what the shares leave. -/
theorem total_le (workers : List ι) (load : ι → Nat) (share : Nat) :
    total workers load ≤ workers.length * share + excess workers share load := by
  induction workers with
  | nil => exact Nat.zero_le _
  | cons first rest ih =>
    simp only [total, excess, List.map_cons, List.sum_cons, List.length_cons, Nat.succ_mul] at ih ⊢
    omega

/-- The same with equality, where every worker has its share. -/
theorem total_eq {share : Nat} (filled : ∀ worker ∈ workers, share ≤ load worker) :
    total workers load = workers.length * share + excess workers share load := by
  induction workers with
  | nil => simp [total, excess]
  | cons first rest ih =>
    have here := filled first List.mem_cons_self
    have later := ih fun worker member => filled worker (List.mem_cons_of_mem _ member)
    simp only [total, excess, List.map_cons, List.sum_cons, List.length_cons,
      Nat.succ_mul] at later ⊢
    omega

/-- The loads lie above equal shares of a limit by what the division leaves over, at most. -/
def Balanced (workers : List ι) (limit : Nat) (load : ι → Nat) : Prop :=
  excess workers (limit / workers.length) load ≤ limit % workers.length

/-- No loads are balanced. -/
theorem balanced_zero (workers : List ι) (limit : Nat) : Balanced workers limit fun _ => 0 := by
  have none_ : excess workers (limit / workers.length) (fun _ => 0) = 0 := by
    simp [excess, total]
  exact Nat.le_trans (Nat.le_of_eq none_) (Nat.zero_le _)

variable [DecidableEq ι]

/-- One worker has one more. -/
def give (load : ι → Nat) (worker : ι) : ι → Nat := Function.update load worker (load worker + 1)

/-- One worker has one less. -/
def take (load : ι → Nat) (worker : ι) : ι → Nat := Function.update load worker (load worker - 1)

/-- The sum, where one worker's load changes. -/
theorem total_update (distinct : workers.Nodup) (member : worker ∈ workers) (value : Nat) :
    total workers (Function.update load worker value) + load worker =
      total workers load + value := by
  induction workers with
  | nil => exact absurd member List.not_mem_nil
  | cons first rest ih =>
    obtain ⟨fresh, distinct⟩ := List.nodup_cons.mp distinct
    simp only [total, List.map_cons, List.sum_cons] at ih ⊢
    by_cases same : worker = first
    · -- No later worker is the one whose load changes.
      subst same
      have rest_same : rest.map (Function.update load worker value) = rest.map load := by
        apply List.map_congr_left
        intro other later
        exact Function.update_of_ne (ne_of_mem_of_not_mem later fresh) value load
      rw [rest_same, Function.update_self]
      omega
    · have later := ih distinct ((List.mem_cons.mp member).resolve_left same)
      rw [Function.update_of_ne (Ne.symm same)]
      omega

/-- The sum above a share, where one worker's load changes. -/
theorem excess_update (distinct : workers.Nodup) (member : worker ∈ workers) (share value : Nat) :
    excess workers share (Function.update load worker value) + (load worker - share) =
      excess workers share load + (value - share) := by
  have moved : (fun other => Function.update load worker value other - share) =
      Function.update (fun other => load other - share) worker (value - share) := by
    funext other
    by_cases same : other = worker
    · subst same
      rw [Function.update_self, Function.update_self]
    · rw [Function.update_of_ne same, Function.update_of_ne same]
  rw [excess, moved]
  exact total_update distinct member (value - share)

theorem total_give (distinct : workers.Nodup) (member : worker ∈ workers) :
    total workers (give load worker) = total workers load + 1 := by
  have moved := @total_update _ workers load worker _ distinct member (load worker + 1)
  rw [give]
  omega

theorem total_take (distinct : workers.Nodup) (member : worker ∈ workers)
    (busy : 0 < load worker) : total workers (take load worker) + 1 = total workers load := by
  have moved := @total_update _ workers load worker _ distinct member (load worker - 1)
  rw [take]
  omega

/-- While a worker is below its share, the limit is not reached. -/
theorem Balanced.total_lt (balanced : Balanced workers limit load) (distinct : workers.Nodup)
    (member : worker ∈ workers) (below : load worker < limit / workers.length) :
    total workers load < limit := by
  -- With one more load the excess is the same, and the sum still fits.
  have same := @excess_update _ workers load worker _ distinct member (limit / workers.length)
    (load worker + 1)
  have fits := total_le workers (give load worker) (limit / workers.length)
  have parts := Nat.div_add_mod limit workers.length
  rw [total_give distinct member, give] at fits
  rw [Balanced] at balanced
  omega

/-- A worker below its share may have one more. -/
theorem Balanced.give_below (balanced : Balanced workers limit load) (distinct : workers.Nodup)
    (member : worker ∈ workers) (below : load worker < limit / workers.length) :
    Balanced workers limit (give load worker) := by
  have same := @excess_update _ workers load worker _ distinct member (limit / workers.length)
    (load worker + 1)
  rw [Balanced] at balanced ⊢
  rw [give]
  omega

/-- A worker with the least load may have one more, while the limit is not reached. -/
theorem Balanced.give_least (balanced : Balanced workers limit load) (distinct : workers.Nodup)
    (member : worker ∈ workers) (least : ∀ other ∈ workers, load worker ≤ load other)
    (below : total workers load < limit) : Balanced workers limit (give load worker) := by
  by_cases filled : limit / workers.length ≤ load worker
  · -- Everyone has a share, so that not all of what is left over is used up.
    have parts := Nat.div_add_mod limit workers.length
    have whole := @total_eq _ workers load (limit / workers.length)
      fun other there => Nat.le_trans filled (least other there)
    have more := @excess_update _ workers load worker _ distinct member (limit / workers.length)
      (load worker + 1)
    rw [Balanced, give]
    omega
  · exact balanced.give_below distinct member (Nat.lt_of_not_le filled)

/-- A worker may always have one less. -/
theorem Balanced.take (balanced : Balanced workers limit load) (distinct : workers.Nodup)
    (member : worker ∈ workers) : Balanced workers limit (take load worker) := by
  have less := @excess_update _ workers load worker _ distinct member (limit / workers.length)
    (load worker - 1)
  rw [Balanced] at balanced ⊢
  rw [Shares.take]
  omega

end Shares
