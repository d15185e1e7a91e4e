import OneProxy.Lib.AllAlong
import OneProxy.Util.ThreadTask

/-! Wake-ups of the worker: which of its waits can be in vain. -/

namespace OneProxy

open Runs

variable {α : Type}

/-- The steps of a worker between `lock` and `unlock`. -/
def WorkerPc.Critical : WorkerPc α → Prop
  | take | takeUnlock _ | wait | waitUnlock => True
  | _ => False

/-- The steps of a producer between `lock` and `unlock`. -/
def ProducerPc.Critical : ProducerPc α → Prop
  | push _ | signal | unlock => True
  | _ => False

/-- The steps of a stopper between `lock` and `unlock`. -/
def StopperPc.Critical : StopperPc → Prop
  | signal | unlock => True
  | _ => False

namespace TaskQueue

variable {loop : WorkLoop α} {q q' : TaskQueue α}

/-! ## The mutex -/

/-- A thread is between `lock` and `unlock`. -/
def Critical (q : TaskQueue α) : Party → Prop
  | .worker => q.worker.Critical
  | .producer n => (q.producers n).Critical
  | .stopper n => (q.stoppers n).Critical

/-- Who is between `lock` and `unlock` holds the mutex, and only a blocked worker waits. -/
structure Sound (q : TaskQueue α) : Prop where
  critical : ∀ p, q.Critical p → q.lock.holder = some p
  waiting : q.lock.waiting = [] ∨ (q.lock.waiting = [.worker] ∧ q.worker = .blocked)

theorem sound_new (loop : WorkLoop α) : Sound (new loop) := by
  constructor
  · intro p inside
    cases p with
    | worker =>
      simp only [Critical, new] at inside
      split at inside <;> exact inside.elim
    | producer n => exact inside.elim
    | stopper n => exact inside.elim
  · exact Or.inl rfl

/-- How the holder of the mutex changes when one thread moves. -/
inductive Moves (q q' : TaskQueue α) (p : Party) : Prop
  | stays : q'.lock.holder = q.lock.holder → (q'.Critical p → q.Critical p) → Moves q q' p
  | enters : q.lock.holder = none → q'.lock.holder = some p → Moves q q' p
  | leaves : q.lock.holder = some p → ¬ q'.Critical p → Moves q q' p

/-- One thread that moves leaves the others where they were. -/
theorem critical_of_moves {p : Party} (inside : ∀ p, q.Critical p → q.lock.holder = some p)
    (others : ∀ p', p' ≠ p → q'.Critical p' → q.Critical p') (moves : Moves q q' p) :
    ∀ p', q'.Critical p' → q'.lock.holder = some p' := by
  intro p' here
  by_cases self : p' = p
  · subst self
    cases moves with
    | stays same back => exact same ▸ inside p' (back here)
    | enters _ held => exact held
    | leaves _ outside => exact absurd here outside
  · have held := inside p' (others p' self here)
    cases moves with
    | stays same _ => exact same ▸ held
    | enters free _ => simp [free] at held
    | leaves mine _ => exact absurd (Option.some.inj (held.symm.trans mine)) self

/-- What the operations of the mutex say of its holder, and of those that wait. -/
theorem lock_spec {m m' : MutexLock Party} {p : Party} (done : m.lock p = some m') :
    m.holder = none ∧ m' = { m with holder := some p } := by
  unfold MutexLock.lock at done
  split at done
  · next free => exact ⟨free, (Option.some.inj done).symm⟩
  · exact absurd done (by simp)

theorem unlock_spec {m m' : MutexLock Party} {p : Party} (done : m.unlock p = some m') :
    m.holder = some p ∧ m' = { m with holder := none } := by
  unfold MutexLock.unlock at done
  split at done
  · next held => exact ⟨held, (Option.some.inj done).symm⟩
  · exact absurd done (by simp)

theorem waitMutexCond_spec {m m' : MutexLock Party} {p : Party}
    (done : m.waitMutexCond p = some m') :
    m.holder = some p ∧ m' = ⟨none, m.waiting ++ [p]⟩ := by
  unfold MutexLock.waitMutexCond at done
  split at done
  · next held => exact ⟨held, (Option.some.inj done).symm⟩
  · exact absurd done (by simp)

/-- A producer that moves leaves the other threads where they were. -/
theorem others_setProducer {n : Nat} {pc : ProducerPc α} {lock : MutexLock Party} {tasks : List α} :
    ∀ p', p' ≠ .producer n →
      ({ q with lock := lock, dataList := tasks }.setProducer n pc).Critical p' →
        q.Critical p' := by
  intro p' other inside
  cases p' with
  | producer k =>
    have differ : k ≠ n := fun same => other (same ▸ rfl)
    simpa [Critical, setProducer, Function.update_of_ne differ] using inside
  | _ => exact inside

/-- A stopper that moves leaves the other threads where they were. -/
theorem others_setStopper {n : Nat} {pc : StopperPc} {lock : MutexLock Party} {isStop : Bool} :
    ∀ p', p' ≠ .stopper n →
      ({ q with lock := lock, isStop := isStop }.setStopper n pc).Critical p' → q.Critical p' := by
  intro p' other inside
  cases p' with
  | stopper k =>
    have differ : k ≠ n := fun same => other (same ▸ rfl)
    simpa [Critical, setStopper, Function.update_of_ne differ] using inside
  | _ => exact inside

/-- A worker that moves leaves the other threads where they were. -/
theorem others_goto {pc : WorkerPc α} {lock : MutexLock Party} {tasks : List α} :
    ∀ p', p' ≠ .worker →
      Critical { q with lock := lock, dataList := tasks, worker := pc } p' → q.Critical p' := by
  intro p' other inside
  cases p' with
  | worker => exact absurd rfl other
  | _ => exact inside

/-- A worker that is not blocked has nobody waiting. -/
theorem Sound.waiting_nil (sound : Sound q) (awake : q.worker ≠ .blocked) :
    q.lock.waiting = [] := by
  rcases sound.waiting with none | ⟨_, blocked⟩
  · exact none
  · exact absurd blocked awake

/-- The worker's steps keep the mutex sound. -/
theorem sound_workerStep (sound : Sound q) (moved : q.workerStep loop q.worker = some q') :
    Sound q' := by
  have inside := sound.critical
  -- By where the worker is; it holds the mutex between its lock and its unlock, and while it does
  -- not wait.
  cases pc : q.worker with
  | initChildThread => simp [workerStep, pc] at moved
  | finished => simp [workerStep, pc] at moved
  | aborted => simp [workerStep, pc] at moved
  | testStop | testMore | testTask =>
    simp only [workerStep, pc, Option.some.injEq] at moved
    subst moved
    refine ⟨critical_of_moves inside others_goto (.stays rfl ?_),
      Or.inl (sound.waiting_nil (by simp [pc]))⟩
    simp only [Critical, goto]
    split <;> exact False.elim
  | handle task =>
    simp only [workerStep, pc, Option.some.injEq] at moved
    subst moved
    exact ⟨critical_of_moves inside others_goto (.stays rfl False.elim),
      Or.inl (sound.waiting_nil (by simp [pc]))⟩
  | take =>
    simp only [workerStep, pc] at moved
    have mine : q.Critical .worker := by simp [Critical, pc, WorkerPc.Critical]
    split at moved <;> obtain rfl := Option.some.inj moved <;>
      exact ⟨critical_of_moves inside others_goto (.stays rfl fun _ => mine),
        Or.inl (sound.waiting_nil (by simp [pc]))⟩
  | takeLock | waitLock =>
    simp only [workerStep, pc] at moved
    obtain ⟨lock, locked, rfl⟩ := Option.map_eq_some_iff.mp moved
    obtain ⟨free, rfl⟩ := lock_spec locked
    exact ⟨critical_of_moves inside others_goto (.enters free rfl),
      Or.inl (sound.waiting_nil (by simp [pc]))⟩
  | takeUnlock task =>
    simp only [workerStep, pc] at moved
    obtain ⟨lock, unlocked, rfl⟩ := Option.map_eq_some_iff.mp moved
    obtain ⟨mine, rfl⟩ := unlock_spec unlocked
    refine ⟨critical_of_moves inside others_goto (.leaves mine ?_),
      Or.inl (sound.waiting_nil (by simp [pc]))⟩
    cases task with
    | some task => exact False.elim
    | none =>
      simp only [Critical]
      split <;> exact False.elim
  | wait =>
    simp only [workerStep, pc] at moved
    obtain ⟨lock, waited, rfl⟩ := Option.map_eq_some_iff.mp moved
    obtain ⟨mine, rfl⟩ := waitMutexCond_spec waited
    refine ⟨critical_of_moves inside others_goto (.leaves mine False.elim), Or.inr ⟨?_, rfl⟩⟩
    rw [sound.waiting_nil (by simp [pc])]
    rfl
  | blocked =>
    simp only [workerStep, pc] at moved
    split at moved
    · exact absurd moved (by simp)
    · next woken =>
      obtain ⟨lock, locked, rfl⟩ := Option.map_eq_some_iff.mp moved
      obtain ⟨free, rfl⟩ := lock_spec locked
      refine ⟨critical_of_moves inside others_goto (.enters free rfl), Or.inl ?_⟩
      rcases sound.waiting with none | ⟨some, _⟩
      · exact none
      · exact absurd (by simp [some]) woken
  | waitUnlock =>
    simp only [workerStep, pc] at moved
    obtain ⟨lock, unlocked, rfl⟩ := Option.map_eq_some_iff.mp moved
    obtain ⟨mine, rfl⟩ := unlock_spec unlocked
    exact ⟨critical_of_moves inside others_goto (.leaves mine False.elim),
      Or.inl (sound.waiting_nil (by simp [pc]))⟩

/-- A signal leaves nobody waiting. -/
theorem Sound.signalled (sound : Sound q) : q.lock.signalMutexCond.waiting = [] := by
  rcases sound.waiting with none | ⟨some, _⟩
  · simp [MutexLock.signalMutexCond, none]
  · simp [MutexLock.signalMutexCond, some]

/-- A producer's steps keep the mutex sound. -/
theorem sound_producerStep {n : Nat} (sound : Sound q)
    (moved : q.producerStep n (q.producers n) = some q') : Sound q' := by
  have inside := sound.critical
  -- A producer that goes on to a place outside has left.
  have outside : ∀ {lock : MutexLock Party} {tasks : List α} {pc : ProducerPc α}, ¬ pc.Critical →
      ¬ ({ q with lock := lock, dataList := tasks }.setProducer n pc).Critical (.producer n) := by
    intro lock tasks pc plain here
    simp only [Critical, setProducer, Function.update_self] at here
    exact plain here
  cases pc : q.producers n with
  | idle => simp [producerStep, pc] at moved
  | lock task =>
    simp only [producerStep, pc] at moved
    obtain ⟨lock, locked, rfl⟩ := Option.map_eq_some_iff.mp moved
    obtain ⟨free, rfl⟩ := lock_spec locked
    exact ⟨critical_of_moves inside others_setProducer (.enters free rfl), sound.waiting⟩
  | push task =>
    obtain rfl := Option.some.inj ((congrArg (producerStep q n) pc.symm).trans moved)
    have mine : q.Critical (.producer n) := by simp [Critical, pc, ProducerPc.Critical]
    exact ⟨critical_of_moves inside others_setProducer (.stays rfl fun _ => mine), sound.waiting⟩
  | signal =>
    obtain rfl := Option.some.inj ((congrArg (producerStep q n) pc.symm).trans moved)
    have mine : q.Critical (.producer n) := by simp [Critical, pc, ProducerPc.Critical]
    exact ⟨critical_of_moves inside others_setProducer (.stays rfl fun _ => mine),
      Or.inl sound.signalled⟩
  | unlock =>
    simp only [producerStep, pc] at moved
    obtain ⟨lock, unlocked, rfl⟩ := Option.map_eq_some_iff.mp moved
    obtain ⟨mine, rfl⟩ := unlock_spec unlocked
    exact ⟨critical_of_moves inside others_setProducer (.leaves mine (outside False.elim)),
      sound.waiting⟩

/-- A stopper's steps keep the mutex sound. -/
theorem sound_stopperStep {n : Nat} (sound : Sound q)
    (moved : q.stopperStep n (q.stoppers n) = some q') : Sound q' := by
  -- By where the stopper is.
  have inside := sound.critical
  cases pc : q.stoppers n with
  | idle => simp [stopperStep, pc] at moved
  | lock =>
    simp only [stopperStep, pc] at moved
    obtain ⟨lock, locked, rfl⟩ := Option.map_eq_some_iff.mp moved
    obtain ⟨free, rfl⟩ := lock_spec locked
    exact ⟨critical_of_moves inside others_setStopper (.enters free rfl), sound.waiting⟩
  | signal =>
    obtain rfl := Option.some.inj ((congrArg (stopperStep q n) pc.symm).trans moved)
    have mine : q.Critical (.stopper n) := by simp [Critical, pc, StopperPc.Critical]
    exact ⟨critical_of_moves inside others_setStopper (.stays rfl fun _ => mine),
      Or.inl sound.signalled⟩
  | unlock =>
    simp only [stopperStep, pc] at moved
    obtain ⟨lock, unlocked, rfl⟩ := Option.map_eq_some_iff.mp moved
    obtain ⟨mine, rfl⟩ := unlock_spec unlocked
    refine ⟨critical_of_moves inside others_setStopper (.leaves mine ?_), sound.waiting⟩
    simp [Critical, setStopper, StopperPc.Critical]

/-- Every step keeps the mutex sound. -/
theorem sound_next {label : QueueLabel α} (sound : Sound q) (moved : next loop q label = some q') :
    Sound q' := by
  have inside := sound.critical
  cases label with
  | worker => exact sound_workerStep sound moved
  | producer n => exact sound_producerStep sound moved
  | stopper n => exact sound_stopperStep sound moved
  | initChildThread ret =>
    simp only [next] at moved
    split at moved
    · next begins =>
      obtain rfl := Option.some.inj moved
      refine ⟨critical_of_moves inside others_goto (.stays rfl ?_),
        Or.inl (sound.waiting_nil (by simp [begins]))⟩
      simp only [Critical, goto]
      split <;> exact False.elim
    · exact absurd moved (by simp)
  -- No more than one thread waits, so that one wake-up is enough.
  | wakeUp =>
    obtain rfl := Option.some.inj moved
    refine ⟨inside, ?_⟩
    rcases sound.waiting with none | ⟨some, _⟩
    · exact Or.inl (by simp [MutexLock.wakeUp, none])
    · exact Or.inl (by simp [MutexLock.wakeUp, some])
  | addTaskData n task =>
    simp only [next] at moved
    split at moved
    · next idle =>
      obtain rfl := Option.some.inj moved
      split
      · refine ⟨critical_of_moves inside others_setProducer (.stays rfl ?_), sound.waiting⟩
        simp only [Critical, setProducer, Function.update_self]
        exact False.elim
      · exact sound
    · exact absurd moved (by simp)
  | setStop n =>
    simp only [next] at moved
    split at moved
    · next idle =>
      obtain rfl := Option.some.inj moved
      refine ⟨critical_of_moves inside others_setStopper (.stays rfl ?_), sound.waiting⟩
      simp only [Critical, setStopper, Function.update_self]
      exact False.elim
    · exact absurd moved (by simp)

/-! ## The signals -/

/-- There is something to do for the worker. -/
def HasWork (q : TaskQueue α) : Prop := q.dataList ≠ [] ∨ q.isStop = true

/-- A producer has added its task, and not yet signalled. -/
def ProducerDue (q : TaskQueue α) : Prop := ∃ n, q.producers n = .signal

/-- A stopper has set the flag, and not yet signalled. -/
def StopperDue (q : TaskQueue α) : Prop := ∃ n, q.stoppers n = .lock ∨ q.stoppers n = .signal

/-- The worker is blocked with something to do, and no signal is pending for it. -/
def LostWakeUp (q : TaskQueue α) : Prop :=
  .worker ∈ q.lock.waiting ∧ q.HasWork ∧ ¬ (q.ProducerDue ∨ q.StopperDue)

/-- Nothing has been added or set that is not still to be signalled. -/
def InTime (q : TaskQueue α) : Prop := ¬ q.HasWork ∨ q.StopperDue

/-- No wake-up is lost by a step that takes away no signal, and adds no work and no wait. -/
theorem LostWakeUp.before (lost : q'.LostWakeUp)
    (waits : .worker ∈ q'.lock.waiting → .worker ∈ q.lock.waiting)
    (work : q'.HasWork → q.HasWork)
    (due : q.ProducerDue ∨ q.StopperDue → q'.ProducerDue ∨ q'.StopperDue) : q.LostWakeUp :=
  ⟨waits lost.1, work lost.2.1, fun pending => lost.2.2 (due pending)⟩

/-- A worker waits by its one step to do so. -/
theorem wait_of_blocked (moved : q.workerStep loop q.worker = some q')
    (blocked : q'.worker = .blocked) : q.worker = .wait := by
  -- No other step of the worker leaves it blocked.
  cases pc : q.worker with
  | wait => rfl
  | initChildThread | finished | aborted => simp [workerStep, pc] at moved
  | testStop | testMore | testTask =>
    simp only [workerStep, pc, Option.some.injEq] at moved
    subst moved
    simp only [goto] at blocked
    split at blocked <;> simp at blocked
  | handle task =>
    simp only [workerStep, pc, Option.some.injEq] at moved
    subst moved
    simp [goto] at blocked
  | take =>
    simp only [workerStep, pc] at moved
    split at moved <;> obtain rfl := Option.some.inj moved <;> simp [goto] at blocked
  | takeUnlock task =>
    simp only [workerStep, pc] at moved
    obtain ⟨lock, _, rfl⟩ := Option.map_eq_some_iff.mp moved
    cases task with
    | some task => simp at blocked
    | none =>
      simp only at blocked
      split at blocked <;> simp at blocked
  | blocked =>
    simp only [workerStep, pc] at moved
    split at moved
    · exact absurd moved (by simp)
    · obtain ⟨lock, _, rfl⟩ := Option.map_eq_some_iff.mp moved
      simp at blocked
  | takeLock | waitLock | waitUnlock =>
    simp only [workerStep, pc] at moved
    obtain ⟨lock, _, rfl⟩ := Option.map_eq_some_iff.mp moved
    simp at blocked

/-- A producer that is not about to signal can move on while other signals are pending. -/
theorem due_setProducer {n : Nat} {pc : ProducerPc α} {lock : MutexLock Party}
    (plain : q.producers n ≠ .signal) (due : q.ProducerDue ∨ q.StopperDue) :
    ({ q with lock := lock }.setProducer n pc).ProducerDue ∨
      ({ q with lock := lock }.setProducer n pc).StopperDue := by
  rcases due with ⟨k, signal⟩ | stopper
  · have differ : k ≠ n := fun same => plain (same ▸ signal)
    exact Or.inl ⟨k, by simpa [setProducer, differ] using signal⟩
  · exact Or.inr stopper

/-- So can a stopper. -/
theorem due_setStopper {n : Nat} {pc : StopperPc} {lock : MutexLock Party}
    (due : q.ProducerDue ∨ q.StopperDue)
    (still : q.stoppers n = .lock ∨ q.stoppers n = .signal → pc = .signal) :
    ({ q with lock := lock }.setStopper n pc).ProducerDue ∨
      ({ q with lock := lock }.setStopper n pc).StopperDue := by
  rcases due with producer | ⟨k, waits⟩
  · exact Or.inl producer
  · refine Or.inr ⟨k, ?_⟩
    by_cases same : k = n
    · subst same
      exact Or.inr (by simpa [setStopper] using still waits)
    · simpa [setStopper, same] using waits

/-- No step loses a wake-up but the one by which the worker begins to wait. -/
theorem not_lost_next {label : QueueLabel α} (sound : Sound q) (kept : ¬ q.LostWakeUp)
    (moved : next loop q label = some q') (other : label = .worker → q.worker ≠ .wait) :
    ¬ q'.LostWakeUp := by
  intro lost
  have sound' := sound_next sound moved
  have awake : ¬ q'.lock.waiting = [] := fun none => by simpa [none] using lost.1
  cases label with
  | worker =>
    -- Who is not blocked does not wait.
    rcases sound'.waiting with none | ⟨_, blocked⟩
    · exact awake none
    · exact other rfl (wait_of_blocked moved blocked)
  | initChildThread ret =>
    simp only [next] at moved
    split at moved
    · obtain rfl := Option.some.inj moved
      exact kept (lost.before id id id)
    · exact absurd moved (by simp)
  | wakeUp =>
    obtain rfl := Option.some.inj moved
    exact kept (lost.before List.mem_of_mem_erase id id)
  | addTaskData n task =>
    simp only [next] at moved
    split at moved
    · next idle =>
      obtain rfl := Option.some.inj moved
      split at lost
      · have plain : q.producers n ≠ .signal := by simp [idle]
        exact kept (lost.before id id fun due => @due_setProducer _ q n _ q.lock plain due)
      · exact kept lost
    · exact absurd moved (by simp)
  | setStop n =>
    simp only [next] at moved
    split at moved
    · obtain rfl := Option.some.inj moved
      exact lost.2.2 (Or.inr ⟨n, by simp [setStopper]⟩)
    · exact absurd moved (by simp)
  | producer n =>
    simp only [next] at moved
    cases pc : q.producers n with
    | idle => simp [producerStep, pc] at moved
    | lock task =>
      simp only [producerStep, pc] at moved
      obtain ⟨lock, locked, rfl⟩ := Option.map_eq_some_iff.mp moved
      obtain ⟨_, rfl⟩ := lock_spec locked
      exact kept (lost.before id id (due_setProducer (by simp [pc])))
    | push task =>
      simp only [producerStep, pc, Option.some.injEq] at moved
      subst moved
      exact lost.2.2 (Or.inl ⟨n, by simp [setProducer]⟩)
    | signal =>
      simp only [producerStep, pc, Option.some.injEq] at moved
      subst moved
      exact awake sound.signalled
    | unlock =>
      simp only [producerStep, pc] at moved
      obtain ⟨lock, unlocked, rfl⟩ := Option.map_eq_some_iff.mp moved
      obtain ⟨_, rfl⟩ := unlock_spec unlocked
      exact kept (lost.before id id (due_setProducer (by simp [pc])))
  | stopper n =>
    simp only [next] at moved
    cases pc : q.stoppers n with
    | idle => simp [stopperStep, pc] at moved
    | lock =>
      simp only [stopperStep, pc] at moved
      obtain ⟨lock, locked, rfl⟩ := Option.map_eq_some_iff.mp moved
      obtain ⟨_, rfl⟩ := lock_spec locked
      exact kept (lost.before id id fun due => due_setStopper due fun _ => rfl)
    | signal =>
      simp only [stopperStep, pc, Option.some.injEq] at moved
      subst moved
      exact awake sound.signalled
    | unlock =>
      simp only [stopperStep, pc] at moved
      obtain ⟨lock, unlocked, rfl⟩ := Option.map_eq_some_iff.mp moved
      obtain ⟨_, rfl⟩ := unlock_spec unlocked
      exact kept (lost.before id id fun due => due_setStopper due (by simp [pc]))

/-- The step by which the worker begins to wait loses no wake-up exactly if it is in time. -/
theorem not_lost_wait_iff (sound : Sound q) (waits : q.worker = .wait)
    (moved : next loop q .worker = some q') : ¬ q'.LostWakeUp ↔ q.InTime := by
  simp only [next, workerStep, waits] at moved
  obtain ⟨lock, waited, rfl⟩ := Option.map_eq_some_iff.mp moved
  obtain ⟨mine, rfl⟩ := waitMutexCond_spec waited
  -- The worker holds the mutex, so no producer is about to signal.
  have undue : ¬ q.ProducerDue := by
    rintro ⟨n, signal⟩
    have held := sound.critical (.producer n) (by simp [Critical, signal, ProducerPc.Critical])
    simp [mine] at held
  constructor
  · intro kept
    by_contra late
    refine kept ⟨by simp, ?_, ?_⟩
    · exact not_not.mp fun none => late (Or.inl none)
    · rintro (producer | stopper)
      · exact undue producer
      · exact late (Or.inr stopper)
  · rintro (none | stopper) ⟨_, work, due⟩
    · exact none work
    · exact due (Or.inr stopper)

theorem not_lost_new (loop : WorkLoop α) : ¬ (new loop).LostWakeUp := by
  rintro ⟨waits, _⟩
  exact absurd waits (by simp [new, MutexLock.new])

/-- In no state of an interleaving is a wake-up lost. -/
def KeepsWakeUps (loop : WorkLoop α) (labels : List (QueueLabel α)) : Prop :=
  ∀ front, front <+: labels → ∃ q, exec (next loop) (new loop) front = some q ∧ ¬ q.LostWakeUp

/-- Whenever the worker begins to wait, it does so in time. -/
def WaitsInTime (loop : WorkLoop α) (labels : List (QueueLabel α)) : Prop :=
  ∀ front l, front ++ [l] <+: labels → ∀ q, exec (next loop) (new loop) front = some q →
    l = .worker → q.worker = .wait → q.InTime

/--
In an interleaving the worker is never blocked with a task or the flag set and no signal pending
exactly if, whenever it begins to wait, its list is empty and the flag is clear, or a thread that
has set the flag is still to signal.
-/
theorem no_lost_wakeUp_iff {labels : List (QueueLabel α)} {last : TaskQueue α}
    (ran : exec (next loop) (new loop) labels = some last) :
    KeepsWakeUps loop labels ↔ WaitsInTime loop labels := by
  -- Each prefix of the run is a run.
  have goesOn : ∀ front, front <+: labels → ∃ q, exec (next loop) (new loop) front = some q := by
    rintro front ⟨back, rfl⟩
    rw [exec_append] at ran
    obtain ⟨q, reached, _⟩ := Option.bind_eq_some_iff.mp ran
    exact ⟨q, reached⟩
  have last_step : ∀ front l q, front ++ [l] <+: labels →
      exec (next loop) (new loop) front = some q → ∃ q', next loop q l = some q' := by
    intro front l q early reached
    obtain ⟨q', whole⟩ := goesOn _ early
    rw [exec_append, reached] at whole
    simp only [Option.bind_some, exec, Option.bind_eq_some_iff, Option.some.injEq,
      exists_eq_right] at whole
    exact ⟨q', whole⟩
  refine allAlong_iff (not_lost_new loop) (sound_new loop) ?_ ?_
  · intro front l q early reached kept sound
    obtain ⟨q', moved⟩ := last_step front l q early reached
    constructor
    · rintro ⟨u, moved', kept'⟩ rfl waits
      exact (not_lost_wait_iff sound waits moved').mp kept'
    · intro inTime
      refine ⟨q', moved, ?_⟩
      by_cases waits : l = .worker ∧ q.worker = .wait
      · obtain ⟨rfl, waits⟩ := waits
        exact (not_lost_wait_iff sound waits moved).mpr (inTime rfl waits)
      · exact not_lost_next sound kept moved fun worker wait => waits ⟨worker, wait⟩
  · intro front l q u _ _ _ sound _ moved
    exact sound_next sound moved

/-- A worker that waits before anything is added or set. -/
def idleWait : List (QueueLabel Unit) := [.worker, .worker, .worker, .worker]

/-- It loses no wake-up. -/
theorem no_lost_wakeUp_idle :
    ∃ last, exec (next parseDataStart) (new parseDataStart) idleWait = some last ∧
      (KeepsWakeUps parseDataStart idleWait ↔ WaitsInTime parseDataStart idleWait) :=
  ⟨_, rfl, no_lost_wakeUp_iff rfl⟩

/-- A task is added, with its signal, between the worker's test of the list and its wait. -/
def signalBeforeWait (loop : WorkLoop α) (task : α) : List (QueueLabel α) :=
  (if loop.initsChildThread then [.initChildThread 0] else []) ++
    [.worker, .worker, .addTaskData 0 task, .producer 0, .producer 0, .producer 0, .producer 0,
      .worker, .worker]

/-- The worker is blocked with a task, after one thread has added it. -/
def blockedWithTask (loop : WorkLoop Unit) : TaskQueue Unit :=
  let added := ((((new loop).setProducer 0 (.lock ())).setProducer 0 (.push ())).setProducer 0
    .signal).setProducer 0 .unlock
  { added.setProducer 0 .idle with lock := ⟨none, [.worker]⟩, dataList := [()], worker := .blocked }

/-- The worker ends up blocked with a task, and nobody will signal. -/
def BlocksWithTask (loop : WorkLoop Unit) : Prop :=
  exec (next loop) (new loop) (signalBeforeWait loop ()) = some (blockedWithTask loop) ∧
    (blockedWithTask loop).LostWakeUp

theorem lostWakeUp_blockedWithTask (loop : WorkLoop Unit) : (blockedWithTask loop).LostWakeUp := by
  refine ⟨by simp [blockedWithTask], by simp [blockedWithTask, HasWork], ?_⟩
  simp [ProducerDue, StopperDue, blockedWithTask, setProducer, new]

/-- So end up all three workers. -/
theorem signal_before_wait_lost : BlocksWithTask threadTaskStart ∧ BlocksWithTask parseDataStart ∧
    BlocksWithTask (superMonitorStart fun _ => 1) :=
  ⟨⟨rfl, lostWakeUp_blockedWithTask _⟩, ⟨rfl, lostWakeUp_blockedWithTask _⟩,
    ⟨rfl, lostWakeUp_blockedWithTask _⟩⟩

end TaskQueue

end OneProxy
