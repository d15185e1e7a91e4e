import OneProxy.Monitor.MonitorManager
import OneProxy.Monitor.Payload

/-! When the packets of a connection enter the list of their `ParseData` in the order of capture. -/

namespace OneProxy.Monitor

open Runs

variable {σ : Type}

/-- The counter after a number of frames. -/
def indexAfter (captured : Nat) : Int := (captured : Int).bmod intSize

theorem nextIndex_indexAfter (captured : Nat) :
    nextIndex (indexAfter captured) = indexAfter (captured + 1) := by
  rw [nextIndex, indexAfter, Int.bmod_add_bmod, indexAfter, Nat.cast_succ]

/-- The number of the `SuperMonitor` that a frame is dealt to. -/
def dealtTo (smsize captured : Nat) : Option Nat := superMonitorAt smsize (indexAfter captured)

/-- Up to the largest `int`, frames are dealt in turn. -/
theorem dealtTo_of_small {smsize captured : Nat} (threads : smsize ≠ 0)
    (small : captured < 0x80000000) : dealtTo smsize captured = some (captured % smsize) := by
  have index : indexAfter captured = captured := by
    rw [indexAfter, Int.bmod_def, intSize]
    omega
  have turn : (captured : Int).tmod smsize = ((captured % smsize : Nat) : Int) := by
    rw [Int.tmod_eq_emod_of_nonneg (Int.natCast_nonneg captured), Int.natCast_emod]
  rw [dealtTo, superMonitorAt, if_neg threads, index, turn, if_pos (Int.natCast_nonneg _),
    Int.toNat_natCast]

/-- A single thread gets every frame, whatever the counter is. -/
theorem dealtTo_one (captured : Nat) : dealtTo 1 captured = some 0 := by
  simp [dealtTo, superMonitorAt]

/-- The capture threads as a fan-out: frames are dealt in turn, and tasks are entered by port. -/
def capturePlan (cfg : MonitorConfig σ) : FanOut.Plan Nat Nat TaskT TaskDataT where
  deal captured := dealtTo cfg.smsize captured
  admits task := task.len ≠ 0
  result task :=
    match handleTask cfg.capture task with
    | .freed => some none
    | .queued pd taskData => some (some (pd, taskData))
    | .overrun => none

/-- The program as the fan-out sees it. -/
def MonitorManager.fanOut (mm : MonitorManager σ) : FanOut.State Nat Nat TaskT TaskDataT where
  received := mm.captured
  queue n := (mm.superMonitorVec n).taskList
  hand n := (mm.superMonitorVec n).task
  log n := (mm.parseDataVec n).entered

/-- The counter counts the captured frames. -/
def MonitorManager.Counted (mm : MonitorManager σ) : Prop :=
  mm.index = indexAfter mm.captured.length

namespace MonitorManager

/-- Replacing the state of a `SuperMonitor`, seen from the fan-out. -/
theorem fanOut_setSuper (mm : MonitorManager σ) (n : Nat) (sm : SuperMonitor) :
    (mm.setSuper n sm).fanOut = { mm.fanOut with
      queue := Function.update mm.fanOut.queue n sm.taskList
      hand := Function.update mm.fanOut.hand n sm.task } := by
  simp only [fanOut, setSuper, FanOut.State.mk.injEq, true_and, and_true]
  constructor
  · funext other
    by_cases same : other = n
    · subst same
      simp
    · simp [same]
  · funext other
    by_cases same : other = n
    · subst same
      simp
    · simp [same]

/-- Adding a task to the list of a `ParseData`, seen from the fan-out. -/
theorem fanOut_pushTaskData (mm : MonitorManager σ) (pd number : Nat) (taskData : TaskDataT) :
    (mm.pushTaskData pd number taskData).fanOut =
      mm.fanOut.enter number (some (pd, taskData)) := by
  simp only [fanOut, pushTaskData, FanOut.State.enter, FanOut.State.mk.injEq, true_and]
  funext other
  by_cases same : other = pd
  · subst same
    simp
  · simp [same]

/-- What a captured frame changes is what receiving it changes. -/
theorem step_monitorData {cfg : MonitorConfig σ} {mm : MonitorManager σ} (counted : mm.Counted)
    (task : TaskT) :
    (mm.step cfg (.monitorData task)).map fanOut =
      FanOut.next (capturePlan cfg) mm.fanOut (.receive task) := by
  have same : superMonitorAt cfg.smsize mm.index =
      (capturePlan cfg).deal mm.fanOut.received.length := congrArg _ counted
  simp only [step, same, FanOut.next, Option.map_map]
  congr 1
  funext n
  by_cases empty : task.len = 0
  · simp [pushTask, fanOut, capturePlan, empty]
  · simp only [Function.comp_apply, pushTask, if_neg empty, fanOut_setSuper]
    simp [fanOut, capturePlan, empty, FanOut.State.enqueue]

/-- Taking a task from a list is the same step for both. -/
theorem step_getTaskFromList (cfg : MonitorConfig σ) (mm : MonitorManager σ) (n : Nat) :
    (mm.step cfg (.getTaskFromList n)).map fanOut =
      FanOut.next (capturePlan cfg) mm.fanOut (.take n) := by
  simp only [step, FanOut.next, fanOut]
  cases held : (mm.superMonitorVec n).task with
  | some task => simp
  | none =>
    cases waiting : (mm.superMonitorVec n).taskList with
    | nil => simp
    | cons task rest =>
      simp only [Option.map_some, Option.some.injEq]
      exact fanOut_setSuper mm n ⟨rest, some task⟩

/-- Handling a task is finishing it. -/
theorem step_handleTask (cfg : MonitorConfig σ) (mm : MonitorManager σ) (n : Nat) :
    (mm.step cfg (.handleTask n)).map fanOut =
      FanOut.next (capturePlan cfg) mm.fanOut (.finish n) := by
  -- A manager whose task is done is the same lane with an empty hand.
  have idle : ∀ sm : SuperMonitor, sm = mm.superMonitorVec n →
      (mm.setSuper n { sm with task := none }).fanOut =
        { mm.fanOut with hand := Function.update mm.fanOut.hand n none } := by
    intro sm same
    have unchanged : mm.fanOut.queue n = sm.taskList := by rw [same]; rfl
    rw [fanOut_setSuper, ← unchanged, Function.update_eq_self]
  simp only [step, FanOut.next]
  cases held : (mm.superMonitorVec n).task with
  | none => simp [fanOut, held]
  | some pair =>
    obtain ⟨number, task⟩ := pair
    have held' : mm.fanOut.hand n = some (number, task) := held
    simp only [held', capturePlan]
    cases ended : Monitor.handleTask cfg.capture task with
    | freed => simp [idle _ rfl, FanOut.State.enter]
    | queued pd taskData => simp [fanOut_pushTaskData, idle _ rfl]
    | overrun => simp

/-- What a `ParseData` does changes nothing for the fan-out. -/
theorem step_handleTaskData {cfg : MonitorConfig σ} {mm mm' : MonitorManager σ} {n : Nat}
    (done : mm.step cfg (.handleTaskData n) = some mm') :
    mm'.fanOut = mm.fanOut ∧ mm'.index = mm.index := by
  simp only [step] at done
  split at done
  · simp at done
  · rename_i number taskData rest waiting
    obtain ⟨⟨data, handled⟩, _, same⟩ := Option.map_eq_some_iff.mp done
    subst same
    refine ⟨?_, rfl⟩
    simp only [fanOut, FanOut.State.mk.injEq, true_and]
    funext other
    by_cases same : other = n
    · subst same
      simp
    · simp [same]

/-- The counter goes on counting. -/
theorem Counted.step {cfg : MonitorConfig σ} {mm mm' : MonitorManager σ} {l : MonitorStep}
    (counted : mm.Counted) (done : mm.step cfg l = some mm') : mm'.Counted := by
  -- Only the capture of a frame moves the counter.
  cases l with
  | monitorData task =>
    obtain ⟨n, _, same⟩ := Option.map_eq_some_iff.mp done
    have next : nextIndex mm.index = indexAfter (mm.captured ++ [task]).length := by
      rw [counted, nextIndex_indexAfter, List.length_append, List.length_singleton]
    subst same
    simp only [pushTask]
    split
    · exact next
    · exact next
  | getTaskFromList n =>
    simp only [MonitorManager.step] at done
    split at done
    · simp only [Option.some.injEq] at done
      exact done ▸ counted
    · simp at done
  | handleTask n =>
    simp only [MonitorManager.step] at done
    split at done
    · simp at done
    · split at done
      · simp only [Option.some.injEq] at done
        exact done ▸ counted
      · simp only [Option.some.injEq] at done
        exact done ▸ counted
      · simp at done
  | handleTaskData n =>
    obtain ⟨same, index⟩ := step_handleTaskData done
    have captured : mm'.captured = mm.captured := congrArg FanOut.State.received same
    rw [Counted, index, captured]
    exact counted

end MonitorManager

open MonitorManager

/-- Every run of the program is a run of the fan-out. -/
theorem fanOut_of_reachable {cfg : MonitorConfig σ} {mm : MonitorManager σ}
    (reached : Reachable (monitorRuns cfg) mm) :
    mm.Counted ∧ Reachable (FanOut.runs (capturePlan cfg)) mm.fanOut := by
  apply reached.invariant
  · intro start begun
    subst begun
    have counted : (new : MonitorManager σ).Counted := by
      simp [Counted, indexAfter, new]
    exact ⟨counted, Reachable.start rfl⟩
  · intro before l after ⟨counted, reached⟩ done
    refine ⟨counted.step done, ?_⟩
    -- Only the steps of a `ParseData` are not steps of the fan-out.
    cases l with
    | monitorData task =>
      apply FanOut.reachable_next (.receive task) reached
      rw [← step_monitorData counted, done, Option.map_some]
    | getTaskFromList n =>
      apply FanOut.reachable_next (.take n) reached
      rw [← step_getTaskFromList cfg, done, Option.map_some]
    | handleTask n =>
      apply FanOut.reachable_next (.finish n) reached
      rw [← step_handleTask cfg, done, Option.map_some]
    | handleTaskData n => exact (step_handleTaskData done).1 ▸ reached

/-- Every run of the fan-out is one of the program, in which no `ParseData` works. -/
theorem reachable_of_fanOut {cfg : MonitorConfig σ} {s : FanOut.State Nat Nat TaskT TaskDataT}
    (reached : Reachable (FanOut.runs (capturePlan cfg)) s) :
    ∃ mm, Reachable (monitorRuns cfg) mm ∧ s = mm.fanOut := by
  apply reached.simulate fun s mm => s = MonitorManager.fanOut mm
  · intro start begun
    exact ⟨new, Reachable.start rfl, begun⟩
  · intro before l after mm reached' same done
    subst same
    -- The label of the fan-out names the thread that makes the step.
    have step : ∃ l', (mm.step cfg l').map fanOut = some after := by
      cases l with
      | receive task =>
        exact ⟨.monitorData task,
          (step_monitorData (fanOut_of_reachable reached').1 task).trans done⟩
      | take n => exact ⟨.getTaskFromList n, (step_getTaskFromList cfg mm n).trans done⟩
      | finish n => exact ⟨.handleTask n, (step_handleTask cfg mm n).trans done⟩
    obtain ⟨l', moved⟩ := step
    obtain ⟨mm', next, same⟩ := Option.map_eq_some_iff.mp moved
    exact ⟨mm', reached'.next (l := l') next, same.symm⟩

/-- In every list the tasks of one connection entered in the order their frames were captured. -/
def CaptureOrder (mm : MonitorManager σ) : Prop :=
  ∀ n, (mm.parseDataVec n).entered.Pairwise fun first second =>
    first.2.SameConnection second.2 → first.1 < second.1

/-- A frame that can come to a `ParseData`: no frame before it stops the capture or its thread. -/
structure Enters (cfg : MonitorConfig σ) (packets : List TaskT) (number n : Nat)
    (taskData : TaskDataT) : Prop where
  queued : ∃ task, packets[number]? = some task ∧ task.len ≠ 0 ∧
    handleTask cfg.capture task = .queued n taskData
  dealt : ∀ earlier ≤ number, (dealtTo cfg.smsize earlier).isSome
  passed : ∀ earlier ≤ number, dealtTo cfg.smsize earlier = dealtTo cfg.smsize number →
    ∀ task, packets[earlier]? = some task → task.len ≠ 0 → handleTask cfg.capture task ≠ .overrun

/-- Frames of one connection for one `ParseData` are all dealt to one `SuperMonitor`. -/
def OneSuperMonitor (cfg : MonitorConfig σ) (packets : List TaskT) : Prop :=
  ∀ first second n taskData taskData', first < second →
    Enters cfg packets first n taskData → Enters cfg packets second n taskData' →
    taskData.SameConnection taskData' → dealtTo cfg.smsize first = dealtTo cfg.smsize second

/-- With a single thread there is nothing to go wrong. -/
theorem oneSuperMonitor_of_one {cfg : MonitorConfig σ} (one : cfg.smsize = 1)
    (packets : List TaskT) : OneSuperMonitor cfg packets := by
  intro first second n taskData taskData' _ _ _ _
  rw [one, dealtTo_one, dealtTo_one]

/-- Belonging to one connection does not depend on the order. -/
theorem SameConnection.symm (p q : TaskDataT) (same : p.SameConnection q) : q.SameConnection p := by
  obtain ⟨protocol, ends⟩ := same
  refine ⟨protocol.symm, ?_⟩
  rcases ends with forward | backward
  · exact Or.inl forward.symm
  · refine Or.inr ?_
    rw [backward, Prod.swap_swap]

/-- The frames that can come to a `ParseData` are those that can enter a log. -/
theorem enters_iff {cfg : MonitorConfig σ} {packets : List TaskT} {number n : Nat}
    {taskData : TaskDataT} :
    FanOut.Enters (capturePlan cfg) packets number n taskData ↔
      Enters cfg packets number n taskData := by
  have result : ∀ task, (capturePlan cfg).result task = some (some (n, taskData)) ↔
      handleTask cfg.capture task = .queued n taskData := by
    intro task
    simp only [capturePlan]
    cases handleTask cfg.capture task <;> simp
  have stays : ∀ task, ((capturePlan cfg).result task).isSome ↔
      handleTask cfg.capture task ≠ .overrun := by
    intro task
    simp only [capturePlan]
    cases handleTask cfg.capture task <;> simp
  -- The two speak of the same frames, the lanes and the result being read off the source.
  constructor
  · intro ⟨⟨task, found, admitted, done⟩, dealt, passed⟩
    refine ⟨⟨task, found, by simpa [capturePlan] using admitted, (result task).mp done⟩, dealt, ?_⟩
    intro earlier before lane task there kept
    exact (stays task).mp
      (passed earlier before lane task there (by simpa [capturePlan] using kept))
  · intro ⟨⟨task, found, admitted, done⟩, dealt, passed⟩
    refine ⟨⟨task, found, by simpa [capturePlan] using admitted, (result task).mpr done⟩, dealt, ?_⟩
    intro earlier before lane task there kept
    exact (stays task).mpr
      (passed earlier before lane task there (by simpa [capturePlan] using kept))

/--
When the order of capture is kept, in every run over a sequence of frames.

With one thread it always is; with more it depends on which threads the frames fall to.
-/
theorem captureOrder_iff (cfg : MonitorConfig σ) (packets : List TaskT) :
    (∀ mm, Reachable (monitorRuns cfg) mm → mm.captured <+: packets → CaptureOrder mm) ↔
      OneSuperMonitor cfg packets := by
  have fanOut := FanOut.inOrder_iff_oneLane (capturePlan cfg) SameConnection.symm packets
  constructor
  · intro ordered first second n taskData taskData' less entersFirst entersSecond same
    apply fanOut.mp ?_ first second n taskData taskData' less (enters_iff.mpr entersFirst)
      (enters_iff.mpr entersSecond) same
    intro s reached received
    obtain ⟨mm, reached', same⟩ := reachable_of_fanOut reached
    subst same
    exact ordered mm reached' received
  · intro lane mm reached received
    apply fanOut.mpr ?_ mm.fanOut (fanOut_of_reachable reached).2 received
    intro first second n taskData taskData' less entersFirst entersSecond same
    exact lane first second n taskData taskData' less (enters_iff.mp entersFirst)
      (enters_iff.mp entersSecond) same

/-- Two `SuperMonitor` threads before one `ParseData`. -/
def twoThreads : MonitorConfig Unit := ⟨oneHost, oneProtocol, 2⟩

/-- Two frames of one connection can overtake one another between two threads. -/
theorem captureOrder_lost :
    ∃ mm, Reachable (monitorRuns twoThreads) mm ∧
      mm.captured <+: [oneByte 0x18, oneByte 0x18] ∧ ¬ CaptureOrder mm := by
  have ends : handleTask oneHost (oneByte 0x18) =
      .queued (oneHost.remotePort (oneByte 0x18) % oneHost.parseDataSize)
        ((oneByte 0x18).taskData (oneHost.localPort (oneByte 0x18))
          ((oneByte 0x18).len - (oneByte 0x18).dataPos)) := by
    have kept : ¬ ((oneByte 0x18).thFlags = thAck ∨ oneHost.parseDataSize = 0) := by decide
    rw [@handleTask_segment oneHost (oneByte 0x18) 3306 (isSegment_oneByte 0x18) (by decide)
      (Or.inr ⟨by decide, by decide⟩), if_neg kept]
  -- Both frames are the same, and each can come to the only `ParseData`.
  have same : ∀ (number : Nat) (task : TaskT),
      [oneByte 0x18, oneByte 0x18][number]? = some task → task = oneByte 0x18 := by
    intro number task found
    have member := List.mem_of_getElem? found
    simpa using member
  have enters : ∀ number < 2, Enters twoThreads [oneByte 0x18, oneByte 0x18] number
      (oneHost.remotePort (oneByte 0x18) % oneHost.parseDataSize)
      ((oneByte 0x18).taskData (oneHost.localPort (oneByte 0x18))
        ((oneByte 0x18).len - (oneByte 0x18).dataPos)) := by
    intro number small
    constructor
    · refine ⟨oneByte 0x18, ?_, by decide, ends⟩
      interval_cases number <;> rfl
    · intro earlier before
      have dealt : dealtTo 2 earlier = some (earlier % 2) := dealtTo_of_small (by decide) (by omega)
      exact Option.isSome_of_eq_some dealt
    · intro earlier _ _ task found _
      rw [same earlier task found]
      intro overrun
      have impossible := ends.symm.trans overrun
      simp at impossible
  have apart : (capturePlan twoThreads).deal 0 ≠ (capturePlan twoThreads).deal 1 := by
    have first : dealtTo 2 0 = some (0 % 2) := dealtTo_of_small (by decide) (by decide)
    have second : dealtTo 2 1 = some (1 % 2) := dealtTo_of_small (by decide) (by decide)
    intro equal
    have clash : dealtTo 2 0 = dealtTo 2 1 := equal
    rw [first, second] at clash
    simp at clash
  have joined : TaskDataT.SameConnection
      ((oneByte 0x18).taskData (oneHost.localPort (oneByte 0x18))
        ((oneByte 0x18).len - (oneByte 0x18).dataPos))
      ((oneByte 0x18).taskData (oneHost.localPort (oneByte 0x18))
        ((oneByte 0x18).len - (oneByte 0x18).dataPos)) := ⟨rfl, Or.inl rfl⟩
  obtain ⟨s, reached, received, disorder⟩ := FanOut.exists_disorder (by decide : 0 < 1)
    (enters_iff.mpr (enters 0 (by decide))) (enters_iff.mpr (enters 1 (by decide))) joined apart
  obtain ⟨mm, reached', same⟩ := reachable_of_fanOut reached
  subst same
  exact ⟨mm, reached', received, disorder⟩

end OneProxy.Monitor
