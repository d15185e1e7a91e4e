import Mathlib.Logic.Function.Basic

/-! A mutex with its condition variable, as `MutexLock` combines them. -/

namespace OneProxy

/-- `MutexLock`: the thread that holds the mutex, and those blocked on the condition variable. -/
structure MutexLock (ι : Type) where
  holder : Option ι
  waiting : List ι

namespace MutexLock

variable {ι : Type} [DecidableEq ι]

/-- The constructor. -/
def new : MutexLock ι := ⟨none, []⟩

/-- `lock`, which goes on once nobody holds the mutex. -/
def lock (m : MutexLock ι) (i : ι) : Option (MutexLock ι) :=
  if m.holder = none then some { m with holder := some i } else none

/-- `unlock`. -/
def unlock (m : MutexLock ι) (i : ι) : Option (MutexLock ι) :=
  if m.holder = some i then some { m with holder := none } else none

/-- `wait_mutexCond` up to the wait itself, during which the mutex is free. -/
def waitMutexCond (m : MutexLock ι) (i : ι) : Option (MutexLock ι) :=
  if m.holder = some i then some ⟨none, m.waiting ++ [i]⟩ else none

/-- `signal_mutexCond`: wakes a thread that waits already, and is lost if there is none. -/
def signalMutexCond (m : MutexLock ι) : MutexLock ι := { m with waiting := m.waiting.tail }

/-- A thread may also stop waiting by itself. -/
def wakeUp (m : MutexLock ι) (i : ι) : MutexLock ι := { m with waiting := m.waiting.erase i }

end MutexLock

end OneProxy
