import OneProxy.Monitor.CaptureOrder

/-! How long frames are dealt in turn, and which thread a port belongs to. -/

namespace OneProxy.Monitor

open Runs

variable {σ : Type}

/-- The number of frames from which on the counter is negative. -/
def halfRange : Nat := 0x80000000

/-- A counter that is negative finds a thread only where nothing is left over. -/
theorem superMonitorAt_neg {smsize : Nat} (threads : smsize ≠ 0) (n : Nat) :
    superMonitorAt smsize (-(n : Int)) = if smsize ∣ n then some 0 else none := by
  have turn : (-(n : Int)).tmod smsize = -((n % smsize : Nat) : Int) := by
    rw [Int.neg_tmod, Int.tmod_eq_emod_of_nonneg (Int.natCast_nonneg n), Int.natCast_emod]
  rw [superMonitorAt, if_neg threads, turn]
  by_cases divides : smsize ∣ n
  · rw [if_pos divides, Nat.mod_eq_zero_of_dvd divides]
    rfl
  · -- What is left over has the sign of the counter.
    have some_ := Nat.pos_of_ne_zero (mt Nat.dvd_of_mod_eq_zero divides)
    rw [if_neg divides, if_neg (by omega)]

/-- The first negative counter. -/
theorem dealtTo_halfRange {smsize : Nat} (threads : smsize ≠ 0) :
    dealtTo smsize halfRange = if smsize ∣ halfRange then some 0 else none := by
  have index : indexAfter halfRange = -((halfRange : Nat) : Int) := by decide
  rw [dealtTo, index, superMonitorAt_neg threads]

/-- No number of threads but one survives the first negative counter and the next. -/
theorem dealtTo_beyond {smsize : Nat} (several : 2 ≤ smsize) (divides : smsize ∣ halfRange) :
    dealtTo smsize (halfRange + 1) = none := by
  have index : indexAfter (halfRange + 1) = -((halfRange - 1 : Nat) : Int) := by decide
  have differ : ¬ smsize ∣ halfRange - 1 := by
    intro before
    have one := (Nat.dvd_sub_iff_right (by decide) divides).mp before
    have small := Nat.le_of_dvd (by decide) one
    omega
  rw [dealtTo, index, superMonitorAt_neg (by omega), if_neg differ]

/-- The numbers of frames after which the next one is dealt in turn. -/
def InTurn (smsize captured : Nat) : Prop :=
  smsize = 1 ∨ captured < halfRange ∨ captured = halfRange ∧ smsize ∣ halfRange

/-- The numbers of frames that can be captured at all. -/
def Capturable (smsize captured : Nat) : Prop :=
  smsize = 1 ∨ captured ≤ halfRange ∨ captured = halfRange + 1 ∧ smsize ∣ halfRange

/-- Among the numbers that can be captured, those after which a frame is dealt are those in turn. -/
theorem dealtTo_isSome {smsize captured : Nat} (threads : smsize ≠ 0)
    (can : Capturable smsize captured) : (dealtTo smsize captured).isSome ↔
      InTurn smsize captured := by
  by_cases single : smsize = 1
  · subst single
    simp [dealtTo_one, InTurn]
  · rcases Nat.lt_trichotomy captured halfRange with below | rfl | above
    · rw [dealtTo_of_small threads below]
      exact iff_of_true rfl (Or.inr (Or.inl below))
    · rw [dealtTo_halfRange threads]
      by_cases divides : smsize ∣ halfRange
      · rw [if_pos divides]
        exact iff_of_true rfl (Or.inr (Or.inr ⟨rfl, divides⟩))
      · rw [if_neg divides]
        refine iff_of_false (by simp) ?_
        rintro (one | below | ⟨_, divides'⟩)
        · exact single one
        · exact absurd below (Nat.lt_irrefl _)
        · exact divides divides'
    · -- Only the frame after the first negative counter is left, and it finds no thread.
      rcases can with one | le | ⟨rfl, divides⟩
      · exact absurd one single
      · omega
      · rw [dealtTo_beyond (by omega) divides]
        refine iff_of_false (by simp) ?_
        rintro (one | below | ⟨same, _⟩)
        · exact single one
        · omega
        · omega

/-- A frame that is dealt is dealt in turn. -/
theorem dealtTo_inTurn {smsize captured : Nat} (threads : smsize ≠ 0)
    (turn : InTurn smsize captured) : dealtTo smsize captured = some (captured % smsize) := by
  rcases turn with rfl | below | ⟨rfl, divides⟩
  · rw [dealtTo_one, Nat.mod_one]
  · exact dealtTo_of_small threads below
  · rw [dealtTo_halfRange threads, if_pos divides, Nat.mod_eq_zero_of_dvd divides]

/-- After a frame that is dealt, one more can have been captured. -/
theorem InTurn.next {smsize captured : Nat} (turn : InTurn smsize captured) :
    Capturable smsize (captured + 1) := by
  rcases turn with one | below | ⟨rfl, divides⟩
  · exact Or.inl one
  · exact Or.inr (Or.inl below)
  · exact Or.inr (Or.inr ⟨rfl, divides⟩)

namespace MonitorManager

/-- What a step captures. -/
theorem captured_step {cfg : MonitorConfig σ} {mm mm' : MonitorManager σ} {l : MonitorStep}
    (counted : mm.Counted) (done : mm.step cfg l = some mm') : mm'.captured = mm.captured ∨
      mm'.captured.length = mm.captured.length + 1 ∧
        (dealtTo cfg.smsize mm.captured.length).isSome := by
  cases l with
  | monitorData task =>
    obtain ⟨n, dealt, rfl⟩ := Option.map_eq_some_iff.mp done
    have length : ∀ number,
        (({ mm with index := nextIndex mm.index, captured := mm.captured ++ [task] }).pushTask n
          number task).captured.length = mm.captured.length + 1 := by
      intro number
      rw [pushTask]
      split <;> simp [setSuper]
    refine Or.inr ⟨length _, ?_⟩
    rw [dealtTo, ← (counted : mm.index = _), dealt]
    rfl
  -- No other thread captures anything.
  | getTaskFromList n =>
    simp only [MonitorManager.step] at done
    split at done
    · obtain rfl := Option.some.inj done
      exact Or.inl rfl
    · simp at done
  | handleTask n =>
    simp only [MonitorManager.step] at done
    split at done
    · simp at done
    · split at done
      · obtain rfl := Option.some.inj done
        exact Or.inl rfl
      · obtain rfl := Option.some.inj done
        exact Or.inl rfl
      · simp at done
  | handleTaskData n =>
    obtain ⟨same, _⟩ := step_handleTaskData done
    exact Or.inl (congrArg FanOut.State.received same)

/-- In every run the counter counts, and no more frames are captured than can be. -/
theorem capturable_of_reachable {cfg : MonitorConfig σ} {mm : MonitorManager σ}
    (threads : cfg.smsize ≠ 0) (reached : Reachable (monitorRuns cfg) mm) :
    mm.Counted ∧ Capturable cfg.smsize mm.captured.length := by
  -- The invariant is the counter's value together with the bound on the frames.
  apply reached.invariant
  · intro start begun
    subst begun
    have counted : (new : MonitorManager σ).Counted := by
      simp [Counted, indexAfter, new]
    exact ⟨counted, Or.inr (Or.inl (Nat.zero_le _))⟩
  · intro before l after inv done
    refine ⟨inv.1.step done, ?_⟩
    rcases captured_step inv.1 done with same | ⟨grown, dealt⟩
    · rw [same]
      exact inv.2
    · rw [grown]
      exact ((dealtTo_isSome threads inv.2).mp dealt).next

end MonitorManager

open MonitorManager

/-- The next frame goes to the thread whose turn it is, and every port belongs to a thread. -/
structure Distributed (cfg : MonitorConfig σ) (mm : MonitorManager σ) : Prop where
  superMonitor : ∃ n < cfg.smsize, superMonitorAt cfg.smsize mm.index = some n ∧
    n = mm.captured.length % cfg.smsize
  parseData : ∀ port : UInt16, cfg.capture.parseDataSize ≠ 0 →
    ∃ pd < cfg.capture.parseDataSize, cfg.capture.getParseData port.toNat = some pd

/-- A port belongs to one of the threads. -/
theorem getParseData_lt (cfg : CaptureConfig) (some_ : cfg.parseDataSize ≠ 0) (port : Nat) :
    ∃ pd < cfg.parseDataSize, cfg.getParseData port = some pd := by
  have positive : cfg.parseDataSize > 0 := Nat.pos_of_ne_zero some_
  exact ⟨port % cfg.parseDataSize, Nat.mod_lt _ positive, if_pos positive⟩

/-- In every state that is reached, the next frame is dealt in turn exactly up to the wrap. -/
theorem monitorData_distributed_iff (cfg : MonitorConfig σ) (threads : 1 ≤ cfg.smsize)
    (mm : MonitorManager σ) (reached : Reachable (monitorRuns cfg) mm) :
    Distributed cfg mm ↔ InTurn cfg.smsize mm.captured.length := by
  have some_ : cfg.smsize ≠ 0 := by omega
  obtain ⟨counted, can⟩ := capturable_of_reachable some_ reached
  have index : superMonitorAt cfg.smsize mm.index = dealtTo cfg.smsize mm.captured.length :=
    congrArg (superMonitorAt cfg.smsize) counted
  constructor
  · rintro ⟨⟨n, _, dealt, _⟩, _⟩
    rw [index] at dealt
    exact (dealtTo_isSome some_ can).mp (Option.isSome_of_eq_some dealt)
  · intro turn
    refine ⟨⟨_, Nat.mod_lt _ threads, ?_, rfl⟩, fun port parse => getParseData_lt _ parse _⟩
    rw [index, dealtTo_inTurn some_ turn]

/-- As many frames as up to the wrap are captured in some run. -/
theorem exists_captured (cfg : MonitorConfig σ) (threads : cfg.smsize ≠ 0) (task : TaskT) {n : Nat}
    (le : n ≤ halfRange) : ∃ mm, Reachable (monitorRuns cfg) mm ∧ mm.captured.length = n := by
  induction n with
  | zero => exact ⟨new, Reachable.start rfl, rfl⟩
  | succ n ih =>
    obtain ⟨mm, reached, rfl⟩ := ih (by omega)
    obtain ⟨counted, _⟩ := capturable_of_reachable threads reached
    have dealt : superMonitorAt cfg.smsize mm.index = some (mm.captured.length % cfg.smsize) :=
      (congrArg (superMonitorAt cfg.smsize) counted).trans (dealtTo_of_small threads (by exact le))
    -- The capture thread can always go on.
    obtain ⟨mm', done⟩ : ∃ mm', mm.step cfg (.monitorData task) = some mm' :=
      ⟨_, congrArg (Option.map _) dealt⟩
    refine ⟨mm', reached.next done, ?_⟩
    rcases captured_step counted done with same | ⟨grown, _⟩
    · obtain ⟨other, _, rfl⟩ := Option.map_eq_some_iff.mp done
      rw [pushTask] at same
      split at same <;> exact absurd same (by simp [setSuper])
    · exact grown

/-- The first frame is dealt in turn. -/
theorem monitorData_distributed_new : Distributed twoThreads new :=
  (monitorData_distributed_iff twoThreads (by decide) new (Reachable.start rfl)).mpr
    (Or.inr (Or.inl (by decide)))

/-- Three threads. -/
def threeThreads : MonitorConfig Unit := ⟨oneHost, oneProtocol, 3⟩

/-- With three threads, the first frame after the wrap finds none. -/
theorem threeThreads_not_distributed : ∃ mm, Reachable (monitorRuns threeThreads) mm ∧
    mm.captured.length = 0x80000000 ∧ superMonitorAt threeThreads.smsize mm.index = none ∧
      ¬ Distributed threeThreads mm := by
  obtain ⟨mm, reached, captured⟩ :=
    exists_captured threeThreads (by decide) (oneByte 0x18) (Nat.le_refl halfRange)
  obtain ⟨counted, _⟩ := capturable_of_reachable (by decide) reached
  have lost : superMonitorAt threeThreads.smsize mm.index = none := by
    have index : mm.index = indexAfter halfRange := captured ▸ counted
    rw [index]
    exact (dealtTo_halfRange (by decide)).trans (if_neg (by decide))
  refine ⟨mm, reached, captured, lost, ?_⟩
  rintro ⟨⟨n, _, dealt, _⟩, _⟩
  exact absurd (lost.symm.trans dealt) (by simp)

end OneProxy.Monitor
