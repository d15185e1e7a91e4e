import OneProxy.Monitor.ParseDataLaws
import OneProxy.Lib.FanOut

/-!
The capture thread, the `SuperMonitor` threads it deals to, and the `ParseData` threads behind.
-/

namespace OneProxy.Monitor

open Runs

variable {σ : Type}

/-- What one instance of the program is configured with. -/
structure MonitorConfig (σ : Type) where
  capture : CaptureConfig
  parse : ParseConfig σ
  /-- `m_superMonitorVec.size()`. -/
  smsize : Nat

/-- A `SuperMonitor` thread; frames are numbered in the order they were captured. -/
structure SuperMonitor where
  taskList : List (Nat × TaskT)
  /-- The task taken from the list and not yet handled. -/
  task : Option (Nat × TaskT)

/-- A `ParseData` thread, with everything that ever entered its list. -/
structure ParseThread (σ : Type) where
  taskDataList : List (Nat × TaskDataT)
  entered : List (Nat × TaskDataT)
  data : ParseData σ

/-- All threads, the counter that frames are dealt by, and the frames captured so far. -/
structure MonitorManager (σ : Type) where
  /-- The static `int index`. -/
  index : Int
  superMonitorVec : Nat → SuperMonitor
  parseDataVec : Nat → ParseThread σ
  captured : List TaskT

/-- A step of one of the threads. -/
inductive MonitorStep
  /-- The capture thread gives a frame to `monitorData`. -/
  | monitorData (task : TaskT)
  /-- A `SuperMonitor` takes the first task from its list. -/
  | getTaskFromList (sm : Nat)
  /-- It handles the task and adds what comes of it to the list of a `ParseData`. -/
  | handleTask (sm : Nat)
  /-- A `ParseData` takes the first task from its list and handles it. -/
  | handleTaskData (pd : Nat)

/--
`index % smsize` as `at` accepts it: without a thread or with a negative value nothing is found.
-/
def superMonitorAt (smsize : Nat) (index : Int) : Option Nat :=
  if smsize = 0 then none
  else if 0 ≤ index.tmod smsize then some (index.tmod smsize).toNat
  else none

/-- The number of values of an `int`. -/
def intSize : Nat := 4294967296

/-- `index++`, which wraps around. -/
def nextIndex (index : Int) : Int := (index + 1).bmod intSize

namespace MonitorManager

/-- The program before the first frame. -/
def new : MonitorManager σ := ⟨0, fun _ => ⟨[], none⟩, fun _ => ⟨[], [], .new⟩, []⟩

/-- Replaces the state of one `SuperMonitor`. -/
def setSuper (mm : MonitorManager σ) (n : Nat) (sm : SuperMonitor) : MonitorManager σ :=
  { mm with superMonitorVec := Function.update mm.superMonitorVec n sm }

/-- `SuperMonitor::monitorData`: an empty frame is not kept. -/
def pushTask (mm : MonitorManager σ) (n : Nat) (number : Nat) (task : TaskT) : MonitorManager σ :=
  if task.len = 0 then mm
  else
    let sm := mm.superMonitorVec n
    mm.setSuper n { sm with taskList := sm.taskList ++ [(number, task)] }

/-- `add_taskData`. -/
def pushTaskData (mm : MonitorManager σ) (pd : Nat) (number : Nat) (taskData : TaskDataT) :
    MonitorManager σ :=
  let thread := mm.parseDataVec pd
  { mm with parseDataVec := Function.update mm.parseDataVec pd { thread with
      taskDataList := thread.taskDataList ++ [(number, taskData)]
      entered := thread.entered ++ [(number, taskData)] } }

/-- One step, if the thread can make it. -/
def step (cfg : MonitorConfig σ) (mm : MonitorManager σ) : MonitorStep → Option (MonitorManager σ)
  | .monitorData task =>
    (superMonitorAt cfg.smsize mm.index).map fun n =>
      ({ mm with index := nextIndex mm.index, captured := mm.captured ++ [task] }).pushTask n
        mm.captured.length task
  | .getTaskFromList n =>
    match (mm.superMonitorVec n).task, (mm.superMonitorVec n).taskList with
    | none, task :: rest => some (mm.setSuper n ⟨rest, some task⟩)
    | _, _ => none
  | .handleTask n =>
    let sm := mm.superMonitorVec n
    match sm.task with
    | none => none
    | some (number, task) =>
      let mm := mm.setSuper n { sm with task := none }
      match Monitor.handleTask cfg.capture task with
      | .freed => some mm
      | .queued pd taskData => some (mm.pushTaskData pd number taskData)
      | .overrun => none
  | .handleTaskData n =>
    let thread := mm.parseDataVec n
    match thread.taskDataList with
    | [] => none
    | (_, taskData) :: rest =>
      (Monitor.handleTaskData cfg.parse thread.data taskData).map fun (data, _) =>
        { mm with
          parseDataVec := Function.update mm.parseDataVec n
            { thread with taskDataList := rest, data := data } }

end MonitorManager

/-- The runs of the program, under any schedule of its threads. -/
def monitorRuns (cfg : MonitorConfig σ) : System (MonitorManager σ) MonitorStep :=
  .ofStep (· = MonitorManager.new) (MonitorManager.step cfg)

end OneProxy.Monitor
