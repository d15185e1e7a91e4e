import OneProxy.Lib.Runs
import OneProxy.Util.MutexLock

/-! A worker thread with its list of tasks, the threads that add to it, and those that stop it. -/

namespace OneProxy

open Runs

/-- The threads that share a list of tasks. -/
inductive Party
  | worker
  | producer (n : Nat)
  | stopper (n : Nat)
  deriving DecidableEq

/-- Where a worker is in its loop. -/
inductive WorkerPc (α : Type)
  | initChildThread
  /-- The two tests of the `while`: of the flag, and if it is set of the list. -/
  | testStop
  | testMore
  /-- The test of the list inside the loop. -/
  | testTask
  | takeLock
  | take
  | takeUnlock (task : Option α)
  | handle (task : α)
  | waitLock
  | wait
  /-- In `wait_mutexCond`: blocked, or woken and about to take the mutex again. -/
  | blocked
  | waitUnlock
  | finished
  | aborted
  deriving DecidableEq

/-- Where a thread is that adds a task. -/
inductive ProducerPc (α : Type)
  | idle
  | lock (task : α)
  | push (task : α)
  | signal
  | unlock
  deriving DecidableEq

/-- Where a thread is in `set_stop`, once it has set the flag. -/
inductive StopperPc
  | idle
  | lock
  | signal
  | unlock
  deriving DecidableEq

/-- What the worker loops, and the functions that feed them, differ in. -/
structure WorkLoop (α : Type) where
  /-- The thread begins with `init_childThread`. -/
  initsChildThread : Bool
  /-- The tasks that are added; others are dropped. -/
  accepts : α → Bool
  /-- The handler asserts that there was a task to take. -/
  assertsTask : Bool

/-- `ThreadTask::start`, fed by `ThreadTask::add_taskData`. -/
def threadTaskStart {α : Type} : WorkLoop α := ⟨true, fun _ => true, false⟩

/-- `ParseData::start`, fed by `ParseData::add_taskData`. -/
def parseDataStart {α : Type} : WorkLoop α := ⟨false, fun _ => true, true⟩

/-- `SuperMonitor::start`, fed by `SuperMonitor::monitorData`, which drops packets without bytes. -/
def superMonitorStart {α : Type} (len : α → UInt32) : WorkLoop α :=
  ⟨false, fun packet => ¬ len packet ≤ 0, false⟩

/-- The worker with its list and its flag, and the other threads. -/
structure TaskQueue (α : Type) where
  lock : MutexLock Party
  dataList : List α
  isStop : Bool
  worker : WorkerPc α
  producers : Nat → ProducerPc α
  stoppers : Nat → StopperPc

/-- The next step of one of the threads. -/
inductive QueueLabel (α : Type)
  /-- `init_childThread` returns. -/
  | initChildThread (ret : Int)
  | worker
  /-- The worker stops waiting without a signal. -/
  | wakeUp
  /-- A thread begins to add a task. -/
  | addTaskData (n : Nat) (task : α)
  | producer (n : Nat)
  /-- A thread sets the flag. -/
  | setStop (n : Nat)
  | stopper (n : Nat)

namespace TaskQueue

variable {α : Type}

/-- A worker that is about to start. -/
def new (loop : WorkLoop α) : TaskQueue α :=
  ⟨.new, [], false, if loop.initsChildThread then .initChildThread else .testStop,
    fun _ => .idle, fun _ => .idle⟩

/-- Moves the worker on. -/
def goto (q : TaskQueue α) (pc : WorkerPc α) : TaskQueue α := { q with worker := pc }

/-- Moves a producer on. -/
def setProducer (q : TaskQueue α) (n : Nat) (pc : ProducerPc α) : TaskQueue α :=
  { q with producers := Function.update q.producers n pc }

/-- Moves a stopper on. -/
def setStopper (q : TaskQueue α) (n : Nat) (pc : StopperPc) : TaskQueue α :=
  { q with stoppers := Function.update q.stoppers n pc }

/-- A step of the worker. -/
def workerStep (loop : WorkLoop α) (q : TaskQueue α) : WorkerPc α → Option (TaskQueue α)
  | .initChildThread => none
  | .testStop => some (q.goto (if q.isStop = false then .testTask else .testMore))
  | .testMore => some (q.goto (if q.dataList.isEmpty then .finished else .testTask))
  | .testTask => some (q.goto (if q.dataList.isEmpty then .waitLock else .takeLock))
  | .takeLock => (q.lock.lock .worker).map fun lock => { q with lock := lock, worker := .take }
  | .take =>
    match q.dataList with
    | task :: rest => some { q with dataList := rest, worker := .takeUnlock (some task) }
    | [] => some (q.goto (.takeUnlock none))
  | .takeUnlock task => (q.lock.unlock .worker).map fun lock =>
      { q with lock := lock, worker := match task with
        | some task => .handle task
        | none => if loop.assertsTask then .aborted else .testStop }
  | .handle _ => some (q.goto .testStop)
  | .waitLock => (q.lock.lock .worker).map fun lock => { q with lock := lock, worker := .wait }
  | .wait => (q.lock.waitMutexCond .worker).map fun lock =>
      { q with lock := lock, worker := .blocked }
  | .blocked =>
    if .worker ∈ q.lock.waiting then none
    else (q.lock.lock .worker).map fun lock => { q with lock := lock, worker := .waitUnlock }
  | .waitUnlock => (q.lock.unlock .worker).map fun lock =>
      { q with lock := lock, worker := .testStop }
  | .finished | .aborted => none

/-- A step of a thread that adds a task. -/
def producerStep (q : TaskQueue α) (n : Nat) : ProducerPc α → Option (TaskQueue α)
  | .idle => none
  | .lock task => (q.lock.lock (.producer n)).map fun lock =>
      { q with lock := lock }.setProducer n (.push task)
  | .push task => some ({ q with dataList := q.dataList ++ [task] }.setProducer n .signal)
  | .signal => some ({ q with lock := q.lock.signalMutexCond }.setProducer n .unlock)
  | .unlock => (q.lock.unlock (.producer n)).map fun lock =>
      { q with lock := lock }.setProducer n .idle

/-- A step of a thread in `set_stop`. -/
def stopperStep (q : TaskQueue α) (n : Nat) : StopperPc → Option (TaskQueue α)
  | .idle => none
  | .lock => (q.lock.lock (.stopper n)).map fun lock =>
      { q with lock := lock }.setStopper n .signal
  | .signal => some ({ q with lock := q.lock.signalMutexCond }.setStopper n .unlock)
  | .unlock => (q.lock.unlock (.stopper n)).map fun lock =>
      { q with lock := lock }.setStopper n .idle

/-- What a step leaves, if the thread can take it. -/
def next (loop : WorkLoop α) (q : TaskQueue α) : QueueLabel α → Option (TaskQueue α)
  | .initChildThread ret =>
    match q.worker with
    | .initChildThread => some (q.goto (if ret = 0 then .testStop else .finished))
    | _ => none
  | .worker => q.workerStep loop q.worker
  | .wakeUp => some { q with lock := q.lock.wakeUp .worker }
  | .addTaskData n task =>
    match q.producers n with
    | .idle => some (if loop.accepts task then q.setProducer n (.lock task) else q)
    | _ => none
  | .producer n => q.producerStep n (q.producers n)
  | .setStop n =>
    match q.stoppers n with
    | .idle => some ({ q with isStop := true }.setStopper n .lock)
    | _ => none
  | .stopper n => q.stopperStep n (q.stoppers n)

/-- All interleavings of a worker and the threads around it. -/
def system (loop : WorkLoop α) : System (TaskQueue α) (QueueLabel α) :=
  .ofStep (· = .new loop) (next loop)

end TaskQueue

end OneProxy
