import OneProxy.Handoff.DispatchLaws
import OneProxy.Lib.AllAlong
import OneProxy.Lib.Shares

/-! Whether more connections are admitted than the limit, where each hand-off is done at once. -/

namespace OneProxy

open Runs Shares

/-- A server with workers. -/
structure Staffed extends Server where
  staffed : threadMap ≠ []

/-- An accepted socket. -/
structure ClientTask where
  ns : Address
  /-- It reaches its worker, and `add_task` takes it. -/
  taken : Bool

/-- The readings of the loads while nothing else happens. -/
def steady (load : ThreadId → Nat) : Loads := fun ct =>
  ⟨UInt32.ofNat (load ct), UInt32.ofNat (load ct), UInt32.ofNat (load ct)⟩

/-- `get_threadTaskNum` of a worker with some connections. -/
def getThreadTaskNum (load : ThreadId → Nat) (ct : ThreadId) : UInt32 := UInt32.ofNat (load ct)

/-- `get_allThreadTaskSize`. -/
def getAllThreadTaskSize (srv : Server) (load : ThreadId → Nat) : UInt32 :=
  srv.threadMap.foldl (fun sumTask ct => sumTask + getThreadTaskNum load ct) 0

/-- `write_socketPair`, and what the worker makes of it. -/
def handOff (load : ThreadId → Nat) (ct : ThreadId) (task : ClientTask) : ThreadId → Nat :=
  if task.taken then give load ct else load

/-- The first loop of `alloc_task` for one worker, which ends early where the queue does. -/
def fillThread (numPerThread : UInt32) (ct : ThreadId) :
    (ThreadId → Nat) → List ClientTask → (ThreadId → Nat) × List ClientTask
  | load, [] => (load, [])
  | load, task :: queue =>
    if getThreadTaskNum load ct < numPerThread then
      fillThread numPerThread ct (handOff load ct task) queue
    else (load, task :: queue)

/-- The second loop of `alloc_task`. -/
def drainQueue (srv : Server) :
    (ThreadId → Nat) → List ClientTask → (ThreadId → Nat) × List ClientTask
  | load, [] => (load, [])
  | load, task :: queue =>
    match getMinTaskThread srv (steady load) with
    | none => (load, task :: queue)
    | some ct => drainQueue srv (handOff load ct task) queue

/-- The connections of the workers, and the sockets that wait for one. -/
structure Admission where
  load : ThreadId → Nat
  taskQueue : List ClientTask

/-- What happens to them. -/
inductive AdmissionStep
  | accept (task : ClientTask)
  /-- A turn of the manager thread in `start_child`. -/
  | startChild
  /-- A connection of a worker ends. -/
  | finish (ct : ThreadId)

namespace Admission

/-- Before anything is accepted. -/
def initial : Admission := ⟨fun _ => 0, []⟩

/-- `alloc_task`. -/
def allocTask (srv : Server) (s : Admission) : Admission :=
  if s.taskQueue.length ≤ 0 then s
  else
    let numPerThread := UInt32.ofNat (srv.maxConnectNum.toNat / srv.threadMap.length)
    let filled := srv.threadMap.foldl
      (fun rest ct => fillThread numPerThread ct rest.1 rest.2) (s.load, s.taskQueue)
    let drained := drainQueue srv filled.1 filled.2
    ⟨drained.1, drained.2⟩

/-- The accepted sockets that are open. -/
def opened (srv : Server) (s : Admission) : Nat := total srv.threadMap s.load + s.taskQueue.length

/-- What a step leaves. -/
def next (srv : Server) (s : Admission) : AdmissionStep → Option Admission
  | .accept task =>
    -- Open sockets have different descriptors, which are not negative as an `int`.
    if s.opened srv < 0x80000000 then
      if s.taskQueue.length > 0 then some { s with taskQueue := s.taskQueue ++ [task] }
      else
        match getMinTaskThread srv (steady s.load) with
        | some ct => some { s with load := handOff s.load ct task }
        | none => some { s with taskQueue := s.taskQueue ++ [task] }
    else none
  | .startChild =>
    if s.taskQueue.length > 0 ∧ getAllThreadTaskSize srv s.load < srv.maxConnectNum then
      some (s.allocTask srv)
    else some s
  | .finish ct =>
    if ct ∈ srv.threadMap ∧ 0 < s.load ct then some { s with load := take s.load ct } else none

/-- The limit is kept, and below it no socket has to wait. -/
structure Admits (srv : Server) (s : Admission) : Prop where
  total_le : (srv.threadMap.map fun ct => (getThreadTaskNum s.load ct).toNat).sum ≤
    srv.maxConnectNum.toNat
  moves : (srv.threadMap.map fun ct => (getThreadTaskNum s.load ct).toNat).sum <
      srv.maxConnectNum.toNat →
    s.taskQueue ≠ [] → (s.allocTask srv).taskQueue.length < s.taskQueue.length

/-- The queued sockets that will be taken. -/
def taking (queue : List ClientTask) : Nat := queue.countP (·.taken)

/-- A socket that is handed on at once fits below the limit, and so does a queue that is drained. -/
def Fits (srv : Server) (s : Admission) : AdmissionStep → Prop
  | .accept task =>
    s.taskQueue = [] → task.taken → total srv.threadMap s.load < srv.maxConnectNum.toNat
  | .startChild => total srv.threadMap s.load < srv.maxConnectNum.toNat →
      total srv.threadMap s.load + taking s.taskQueue ≤ srv.maxConnectNum.toNat
  | .finish _ => True

/-- There are no more open sockets than descriptors. -/
def Bounded (srv : Server) (s : Admission) : Prop := s.opened srv ≤ 0x80000000

end Admission

/-! ## The choice of a worker -/

section Choice

variable {srv : Server} {load : ThreadId → Nat}

/-- The walk adds up the loads. -/
theorem minTaskStep_sum (threads : List ThreadId) (start : Option ThreadId × UInt32 × UInt32) :
    (threads.foldl (minTaskStep (steady load)) start).2.2 =
      threads.foldl (fun sumTask ct => sumTask + getThreadTaskNum load ct) start.2.2 := by
  induction threads generalizing start with
  | nil => rfl
  | cons first rest ih =>
    rw [List.foldl_cons, List.foldl_cons, ih]
    obtain ⟨thread, minTask, sumTask⟩ := start
    simp only [minTaskStep]
    split
    · rfl
    · split <;> rfl

/-- Once a worker is kept, there is one at the end. -/
theorem minTaskStep_isSome (threads : List ThreadId) (start : Option ThreadId × UInt32 × UInt32)
    (kept : start.1.isSome) : (threads.foldl (minTaskStep (steady load)) start).1.isSome := by
  induction threads generalizing start with
  | nil => exact kept
  | cons first rest ih =>
    rw [List.foldl_cons]
    apply ih
    obtain ⟨thread, minTask, sumTask⟩ := start
    simp only [minTaskStep]
    split
    · rfl
    · split
      · rfl
      · exact kept

/-- A worker is chosen as long as the limit is not exceeded. -/
theorem getMinTaskThread_isSome (staffed : srv.threadMap ≠ []) :
    (getMinTaskThread srv (steady load)).isSome ↔
      getAllThreadTaskSize srv load ≤ srv.maxConnectNum := by
  have sum := @minTaskStep_sum load srv.threadMap (none, 0xffffffff, 0)
  have some_ : (srv.threadMap.foldl (minTaskStep (steady load))
      (none, 0xffffffff, 0)).1.isSome := by
    obtain ⟨first, rest, same⟩ := List.exists_cons_of_ne_nil staffed
    rw [same, List.foldl_cons]
    exact minTaskStep_isSome rest _ (by simp [minTaskStep])
  rw [getMinTaskThread, getAllThreadTaskSize]
  simp only [sum]
  split
  · next above =>
    exact iff_of_false Bool.false_ne_true (UInt32.not_le.mpr above)
  · next fits =>
    exact iff_of_true some_ (UInt32.not_lt.mp fits)

/-- A load that fits into 32 bits is read as it is. -/
theorem toNat_load {count : Nat} (small : count < 0x100000000) :
    (UInt32.ofNat count).toNat = count := by
  rw [UInt32.toNat_ofNat']
  exact Nat.mod_eq_of_lt small

/-- The worker that is kept has the least load so far. -/
theorem minTaskStep_least (threads : List ThreadId) (kept : ThreadId) (sumTask : UInt32)
    (small : ∀ ct ∈ kept :: threads, load ct < 0xffffffff) :
    ∃ ct sum, threads.foldl (minTaskStep (steady load))
        (some kept, UInt32.ofNat (load kept), sumTask) = (some ct, UInt32.ofNat (load ct), sum) ∧
      ∀ other ∈ kept :: threads, load ct ≤ load other := by
  -- The induction is on the workers; the one that is kept so far goes along.
  induction threads generalizing kept sumTask with
  | nil => exact ⟨kept, sumTask, rfl, fun other member => by
      rw [List.mem_singleton.mp member]⟩
  | cons first rest ih =>
    have smallKept := small kept List.mem_cons_self
    have smallFirst := small first (List.mem_cons_of_mem _ List.mem_cons_self)
    -- No load is the number that stands for no worker yet.
    have known : ¬ UInt32.ofNat (load kept) = 0xffffffff := by
      intro same
      have value := congrArg UInt32.toNat same
      rw [toNat_load (by omega)] at value
      exact absurd value (Nat.ne_of_lt smallKept)
    have compared : UInt32.ofNat (load first) < UInt32.ofNat (load kept) ↔
        load first < load kept := by
      rw [UInt32.lt_iff_toNat_lt, toNat_load (by omega), toNat_load (by omega)]
    simp only [List.foldl_cons, minTaskStep, steady, if_neg known, compared] at ih ⊢
    split
    · next less =>
      obtain ⟨ct, sum, done, least⟩ := ih first (sumTask + UInt32.ofNat (load first))
        fun other member => small other (List.mem_cons_of_mem _ member)
      refine ⟨ct, sum, done, fun other member => ?_⟩
      rcases List.mem_cons.mp member with rfl | later
      · exact Nat.le_trans (least first List.mem_cons_self) (Nat.le_of_lt less)
      · exact least other later
    · next more =>
      obtain ⟨ct, sum, done, least⟩ := ih kept (sumTask + UInt32.ofNat (load first)) (by
        intro other member
        rcases List.mem_cons.mp member with rfl | later
        · exact smallKept
        · exact small other (List.mem_cons_of_mem _ (List.mem_cons_of_mem _ later)))
      refine ⟨ct, sum, done, fun other member => ?_⟩
      have atKept := least kept List.mem_cons_self
      rcases List.mem_cons.mp member with rfl | later
      · exact atKept
      · rcases List.mem_cons.mp later with rfl | later
        · exact Nat.le_trans atKept (Nat.le_of_not_lt more)
        · exact least other (List.mem_cons_of_mem _ later)

/-- The chosen worker has the least load. -/
theorem getMinTaskThread_least {ct : ThreadId}
    (small : ∀ other ∈ srv.threadMap, load other < 0xffffffff)
    (found : getMinTaskThread srv (steady load) = some ct) :
    ∀ other ∈ srv.threadMap, load ct ≤ load other := by
  obtain ⟨first, rest, same⟩ := List.exists_cons_of_ne_nil
    (List.ne_nil_of_mem (getMinTaskThread_mem found))
  rw [getMinTaskThread, same, List.foldl_cons] at found
  rw [same] at small ⊢
  obtain ⟨kept, sum, done, least⟩ :=
    minTaskStep_least rest first (0 + UInt32.ofNat (load first)) small
  have begun : minTaskStep (steady load) (none, 0xffffffff, 0) first =
      (some first, UInt32.ofNat (load first), 0 + UInt32.ofNat (load first)) := rfl
  rw [begun, done] at found
  dsimp only at found
  split at found
  · cases found
  · obtain rfl := Option.some.inj found
    exact least

/-- The sum of the loads, as it is added up with 32 bits. -/
theorem toNat_getAllThreadTaskSize :
    (getAllThreadTaskSize srv load).toNat =
      (srv.threadMap.map fun ct => (getThreadTaskNum load ct).toNat).sum % 0x100000000 := by
  have general : ∀ (threads : List ThreadId) (start : UInt32),
      (threads.foldl (fun sumTask ct => sumTask + getThreadTaskNum load ct) start).toNat =
        (start.toNat + (threads.map fun ct => (getThreadTaskNum load ct).toNat).sum) %
          0x100000000 := by
    intro threads
    induction threads with
    | nil =>
      intro start
      have below := start.toNat_lt
      rw [List.foldl_nil, List.map_nil, List.sum_nil, Nat.add_zero, Nat.mod_eq_of_lt below]
    | cons first rest ih =>
      intro start
      rw [List.foldl_cons, ih, UInt32.toNat_add, List.map_cons, List.sum_cons]
      omega
  rw [getAllThreadTaskSize, general]
  exact congrArg (· % 0x100000000) (Nat.zero_add _)

end Choice

namespace Admission

variable {srv : Staffed} {load : ThreadId → Nat} {ct : ThreadId} {task : ClientTask}
  {queue : List ClientTask} {s after : Admission}

/-! ## What a hand-off leaves -/

/-- As many sockets are opened as before, or one less. -/
theorem total_handOff (member : ct ∈ srv.threadMap) :
    total srv.threadMap (handOff load ct task) =
      total srv.threadMap load + if task.taken then 1 else 0 := by
  rw [handOff]
  split
  · exact total_give srv.keys member
  · rfl

/-- The first loop for one worker opens no socket, and hands the queue on from its front. -/
theorem fillThread_le (numPerThread : UInt32) (member : ct ∈ srv.threadMap) :
    total srv.threadMap (fillThread numPerThread ct load queue).1 +
        (fillThread numPerThread ct load queue).2.length ≤
      total srv.threadMap load + queue.length ∧
    ((fillThread numPerThread ct load queue).2.length < queue.length ∨
      fillThread numPerThread ct load queue = (load, queue)) := by
  induction queue generalizing load with
  | nil => exact ⟨Nat.le_refl _, .inr rfl⟩
  | cons task queue ih =>
    rw [fillThread]
    split
    · have rest := @ih (handOff load ct task)
      have more := @total_handOff srv load ct task member
      -- Once a socket is handed on, the queue never gets back its length.
      have shorter : (fillThread numPerThread ct (handOff load ct task) queue).2.length ≤
          queue.length := by
        rcases rest.2 with less | same
        · exact Nat.le_of_lt less
        · rw [same]
      have first := rest.1
      rw [more] at first
      simp only [List.length_cons]
      refine ⟨?_, .inl (by omega)⟩
      split at first <;> omega
    · exact ⟨Nat.le_refl _, .inr rfl⟩

/-- So does the second loop. -/
theorem drainQueue_le :
    total srv.threadMap (drainQueue srv.toServer load queue).1 +
        (drainQueue srv.toServer load queue).2.length ≤
      total srv.threadMap load + queue.length := by
  induction queue generalizing load with
  | nil => exact Nat.le_refl _
  | cons task queue ih =>
    rw [drainQueue]
    cases found : getMinTaskThread srv.toServer (steady load) with
    | none => exact Nat.le_refl _
    | some ct =>
      have rest := @ih (handOff load ct task)
      rw [total_handOff (getMinTaskThread_mem found)] at rest
      simp only [List.length_cons]
      split at rest <;> omega

/-- It only takes from the queue. -/
theorem drainQueue_length_le : (drainQueue srv.toServer load queue).2.length ≤ queue.length := by
  induction queue generalizing load with
  | nil => exact Nat.le_refl _
  | cons task queue ih =>
    rw [drainQueue]
    cases getMinTaskThread srv.toServer (steady load) with
    | none => exact Nat.le_refl _
    | some ct => exact Nat.le_trans ih (Nat.le_succ _)

/-- The first loop for some workers. -/
def fillThreads (numPerThread : UInt32) (threads : List ThreadId) (load : ThreadId → Nat)
    (queue : List ClientTask) : (ThreadId → Nat) × List ClientTask :=
  threads.foldl (fun rest ct => fillThread numPerThread ct rest.1 rest.2) (load, queue)

theorem fillThreads_le (numPerThread : UInt32) {threads : List ThreadId}
    (members : ∀ ct ∈ threads, ct ∈ srv.threadMap) :
    total srv.threadMap (fillThreads numPerThread threads load queue).1 +
        (fillThreads numPerThread threads load queue).2.length ≤
      total srv.threadMap load + queue.length ∧
    ((fillThreads numPerThread threads load queue).2.length < queue.length ∨
      fillThreads numPerThread threads load queue = (load, queue)) := by
  induction threads generalizing load queue with
  | nil => exact ⟨Nat.le_refl _, .inr rfl⟩
  | cons ct rest ih =>
    have here := @fillThread_le srv load ct queue numPerThread (members ct List.mem_cons_self)
    have later := @ih (fillThread numPerThread ct load queue).1
      (fillThread numPerThread ct load queue).2
      fun other member => members other (List.mem_cons_of_mem _ member)
    have unfolded : fillThreads numPerThread (ct :: rest) load queue =
        fillThreads numPerThread rest (fillThread numPerThread ct load queue).1
          (fillThread numPerThread ct load queue).2 := rfl
    rw [unfolded]
    refine ⟨Nat.le_trans later.1 here.1, ?_⟩
    rcases here.2 with less | same
    · rcases later.2 with less' | same'
      · exact .inl (Nat.lt_trans less' less)
      · rw [same']
        exact .inl less
    · rw [same] at later ⊢
      exact later.2

/-- `alloc_task` with a queue, as the two loops. -/
theorem allocTask_eq (waits : s.taskQueue ≠ []) :
    s.allocTask srv.toServer =
      let filled := fillThreads (UInt32.ofNat (srv.maxConnectNum.toNat / srv.threadMap.length))
        srv.threadMap s.load s.taskQueue
      ⟨(drainQueue srv.toServer filled.1 filled.2).1,
          (drainQueue srv.toServer filled.1 filled.2).2⟩ := by
  have some_ : ¬ s.taskQueue.length ≤ 0 := by
    rw [Nat.le_zero, List.length_eq_zero_iff]
    exact waits
  rw [allocTask, if_neg some_]
  rfl

/-- It opens no socket. -/
theorem opened_allocTask :
    (s.allocTask srv.toServer).opened srv.toServer ≤ s.opened srv.toServer := by
  by_cases waits : s.taskQueue = []
  · rw [allocTask, if_pos (by rw [waits]; exact Nat.le_refl _)]
  · rw [allocTask_eq waits]
    exact Nat.le_trans drainQueue_le (@fillThreads_le srv s.load s.taskQueue _ _ fun _ => id).1

/-- Below the limit a waiting socket is handed on. -/
theorem allocTask_shorter (below : (srv.threadMap.map fun ct =>
      (getThreadTaskNum s.load ct).toNat).sum < srv.maxConnectNum.toNat)
    (waits : s.taskQueue ≠ []) :
    (s.allocTask srv.toServer).taskQueue.length < s.taskQueue.length := by
  rw [allocTask_eq waits]
  rcases (@fillThreads_le srv s.load s.taskQueue
    (UInt32.ofNat (srv.maxConnectNum.toNat / srv.threadMap.length)) srv.threadMap
        fun _ => id).2 with
    less | same
  · exact Nat.lt_of_le_of_lt drainQueue_length_le less
  · -- The first loop has done nothing, and the second one finds a worker.
    obtain ⟨task, queue, more⟩ := List.exists_cons_of_ne_nil waits
    have bound := srv.maxConnectNum.toNat_lt
    have fits : getAllThreadTaskSize srv.toServer s.load ≤ srv.maxConnectNum := by
      rw [UInt32.le_iff_toNat_le, toNat_getAllThreadTaskSize, Nat.mod_eq_of_lt (by omega)]
      exact Nat.le_of_lt below
    obtain ⟨ct, found⟩ :=
      Option.isSome_iff_exists.mp ((getMinTaskThread_isSome srv.staffed).mpr fits)
    simp only [same]
    rw [more, drainQueue, found]
    exact Nat.lt_succ_of_le drainQueue_length_le

/-! ## The limit -/

/-- One more socket may wait, where there is a descriptor for it. -/
theorem bounded_push (room : s.opened srv.toServer < 0x80000000) :
    Bounded srv.toServer { s with taskQueue := s.taskQueue ++ [task] } := by
  rw [opened] at room
  show total srv.threadMap s.load + (s.taskQueue ++ [task]).length ≤ 0x80000000
  rw [List.length_append, List.length_singleton]
  omega

/-- No step opens more sockets than there are descriptors. -/
theorem Bounded.next (bounded : s.Bounded srv.toServer) {step : AdmissionStep}
    (moved : s.next srv.toServer step = some after) : after.Bounded srv.toServer := by
  -- By the step: an accept opens a socket, a turn of the manager hands on, and a finish closes.
  cases step with
  | accept task =>
    simp only [Admission.next] at moved
    split at moved
    · next room =>
      split at moved
      · obtain rfl := Option.some.inj moved
        exact bounded_push room
      · cases found : getMinTaskThread srv.toServer (steady s.load) with
        | none =>
          rw [found] at moved
          obtain rfl := Option.some.inj moved
          exact bounded_push room
        | some ct =>
          rw [found] at moved
          obtain rfl := Option.some.inj moved
          have more := @total_handOff srv s.load ct task (getMinTaskThread_mem found)
          rw [opened] at room
          show total srv.threadMap (OneProxy.handOff s.load ct task) +
            s.taskQueue.length ≤ 0x80000000
          split at more <;> omega
    · cases moved
  | startChild =>
    simp only [Admission.next] at moved
    split at moved
    · obtain rfl := Option.some.inj moved
      exact Nat.le_trans opened_allocTask bounded
    · obtain rfl := Option.some.inj moved
      exact bounded
  | finish ct =>
    simp only [Admission.next] at moved
    split at moved
    · next busy =>
      obtain rfl := Option.some.inj moved
      have less := total_take srv.keys busy.1 busy.2
      rw [Bounded, opened] at bounded ⊢
      simp only
      omega
    · cases moved

/-- The load of a worker is far below what 32 bits can hold. -/
theorem Bounded.small (bounded : s.Bounded srv.toServer) :
    ∀ ct ∈ srv.threadMap, s.load ct < 0xffffffff := by
  intro ct member
  have part := @le_total _ srv.threadMap s.load ct member
  rw [Bounded, opened] at bounded
  omega

/-- The loads are read as they are. -/
theorem Bounded.sum_eq (bounded : s.Bounded srv.toServer) :
    (srv.threadMap.map fun ct => (getThreadTaskNum s.load ct).toNat).sum =
      total srv.threadMap s.load := by
  rw [total]
  congr 1
  apply List.map_congr_left
  intro ct member
  have small := bounded.small ct member
  exact toNat_load (by omega)

/-- The sum of them is read as it is. -/
theorem Bounded.toNat_size (bounded : s.Bounded srv.toServer) :
    (getAllThreadTaskSize srv.toServer s.load).toNat = total srv.threadMap s.load := by
  rw [toNat_getAllThreadTaskSize, bounded.sum_eq]
  rw [Bounded, opened] at bounded
  exact Nat.mod_eq_of_lt (by omega)

/-- A worker is chosen exactly as long as the limit is kept. -/
theorem Bounded.isSome_iff (bounded : s.Bounded srv.toServer) :
    (getMinTaskThread srv.toServer (steady s.load)).isSome ↔
      total srv.threadMap s.load ≤ srv.maxConnectNum.toNat := by
  rw [getMinTaskThread_isSome srv.staffed, UInt32.le_iff_toNat_le, bounded.toNat_size]

/-- The limit is kept, with the loads in balance. -/
structure Sound (srv : Staffed) (s : Admission) : Prop where
  bounded : s.Bounded srv.toServer
  balanced : Balanced srv.threadMap srv.maxConnectNum.toNat s.load
  total_le : total srv.threadMap s.load ≤ srv.maxConnectNum.toNat

/-- One socket of the queue goes to a worker that has room for it. -/
theorem Sound.handOff (sound : Sound srv ⟨load, task :: queue⟩) (member : ct ∈ srv.threadMap)
    (room : task.taken → total srv.threadMap load < srv.maxConnectNum.toNat ∧
      Balanced srv.threadMap srv.maxConnectNum.toNat (give load ct)) :
    Sound srv ⟨handOff load ct task, queue⟩ ∧
      total srv.threadMap (OneProxy.handOff load ct task) + taking queue =
        total srv.threadMap load + taking (task :: queue) := by
  -- Only a socket that the worker takes is counted by its load.
  have more := @total_handOff srv load ct task member
  have bounded := sound.bounded
  rw [Bounded, opened] at bounded
  simp only [List.length_cons] at bounded
  rw [taking, taking, List.countP_cons]
  refine ⟨⟨?_, ?_, ?_⟩, ?_⟩
  · rw [Bounded, opened]
    simp only
    split at more <;> omega
  · show Balanced _ _ (OneProxy.handOff load ct task)
    rw [OneProxy.handOff]
    split
    · next taken => exact (room taken).2
    · exact sound.balanced
  · show total _ (OneProxy.handOff load ct task) ≤ _
    have before : total srv.threadMap load ≤ srv.maxConnectNum.toNat := sound.total_le
    rw [more]
    split
    · next taken => exact (room taken).1
    · exact before
  · rw [more]
    split <;> omega

/-- The first loop for one worker stays below the limit. -/
theorem Sound.fillThread (sound : Sound srv ⟨load, queue⟩) (member : ct ∈ srv.threadMap)
    {numPerThread : UInt32}
    (share : numPerThread.toNat = srv.maxConnectNum.toNat / srv.threadMap.length) :
    Sound srv ⟨(fillThread numPerThread ct load queue).1,
      (fillThread numPerThread ct load queue).2⟩ ∧
      total srv.threadMap (OneProxy.fillThread numPerThread ct load queue).1 +
          taking (OneProxy.fillThread numPerThread ct load queue).2 =
        total srv.threadMap load + taking queue := by
  induction queue generalizing load with
  | nil => exact ⟨sound, rfl⟩
  | cons task queue ih =>
    rw [OneProxy.fillThread]
    split
    · next below =>
      have small := sound.bounded.small ct member
      -- The loop runs only below the worker's share, which leaves room below the limit.
      have under : load ct < srv.maxConnectNum.toNat / srv.threadMap.length := by
        rw [UInt32.lt_iff_toNat_lt, getThreadTaskNum, toNat_load (by
          exact Nat.lt_trans small (by decide)), share] at below
        exact below
      obtain ⟨after, same⟩ := sound.handOff member fun _ =>
        ⟨sound.balanced.total_lt srv.keys member under,
          sound.balanced.give_below srv.keys member under⟩
      obtain ⟨later, same'⟩ := ih after
      exact ⟨later, same'.trans same⟩
    · exact ⟨sound, rfl⟩

/-- So does the first loop for all of them. -/
theorem Sound.fillThreads (sound : Sound srv ⟨load, queue⟩) {threads : List ThreadId}
    (members : ∀ ct ∈ threads, ct ∈ srv.threadMap) {numPerThread : UInt32}
    (share : numPerThread.toNat = srv.maxConnectNum.toNat / srv.threadMap.length) :
    Sound srv ⟨(fillThreads numPerThread threads load queue).1,
        (fillThreads numPerThread threads load queue).2⟩ ∧
      total srv.threadMap (Admission.fillThreads numPerThread threads load queue).1 +
          taking (Admission.fillThreads numPerThread threads load queue).2 =
        total srv.threadMap load + taking queue := by
  induction threads generalizing load queue with
  | nil => exact ⟨sound, rfl⟩
  | cons ct rest ih =>
    obtain ⟨here, same⟩ := sound.fillThread (members ct List.mem_cons_self) share
    obtain ⟨later, same'⟩ := ih here fun other member =>
      members other (List.mem_cons_of_mem _ member)
    exact ⟨later, same'.trans same⟩

/-- The second loop keeps to the limit exactly if there is room for all that are taken. -/
theorem Sound.drainQueue_iff (sound : Sound srv ⟨load, queue⟩) :
    (total srv.threadMap (drainQueue srv.toServer load queue).1 ≤ srv.maxConnectNum.toNat ↔
        total srv.threadMap load + taking queue ≤ srv.maxConnectNum.toNat) ∧
      (total srv.threadMap load + taking queue ≤ srv.maxConnectNum.toNat →
        Sound srv ⟨(drainQueue srv.toServer load queue).1,
          (drainQueue srv.toServer load queue).2⟩) := by
  induction queue generalizing load with
  | nil => exact ⟨Iff.rfl, fun _ => sound⟩
  | cons task queue ih =>
    have within : total srv.threadMap load ≤ srv.maxConnectNum.toNat := sound.total_le
    obtain ⟨ct, found⟩ := Option.isSome_iff_exists.mp (sound.bounded.isSome_iff.mpr within)
    have member := getMinTaskThread_mem found
    have least := getMinTaskThread_least sound.bounded.small found
    rw [drainQueue, found]
    simp only
    by_cases full : task.taken ∧ total srv.threadMap load = srv.maxConnectNum.toNat
    · -- One connection too many is handed on, and then no more.
      have more := @total_handOff srv load ct task member
      rw [if_pos full.1] at more
      have above : ¬ total srv.threadMap load + taking (task :: queue) ≤
          srv.maxConnectNum.toNat := by
        rw [taking, List.countP_cons, if_pos full.1]
        omega
      have bounded : Bounded srv.toServer ⟨OneProxy.handOff load ct task, queue⟩ := by
        have before := sound.bounded
        rw [Bounded, opened] at before ⊢
        simp only [List.length_cons] at before ⊢
        omega
      have ended : drainQueue srv.toServer (OneProxy.handOff load ct task) queue =
          (OneProxy.handOff load ct task, queue) := by
        cases queue with
        | nil => rfl
        | cons next queue =>
          have none_ : getMinTaskThread srv.toServer (steady (OneProxy.handOff load ct task)) =
              none := by
            rw [← Option.not_isSome_iff_eq_none]
            intro some_
            have fits := bounded.isSome_iff.mp some_
            simp only at fits
            omega
          rw [drainQueue, none_]
      rw [ended]
      exact ⟨iff_of_false (by simp only; omega) above, fun fits => absurd fits above⟩
    · obtain ⟨after, same⟩ := sound.handOff member fun taken => by
        have below : total srv.threadMap load < srv.maxConnectNum.toNat :=
          Nat.lt_of_le_of_ne within fun equal => full ⟨taken, equal⟩
        exact ⟨below, sound.balanced.give_least srv.keys member least below⟩
      rw [← same]
      exact ih after

/-! ## Runs -/

/-- While the limit is kept in balance, the code admits what the limit allows. -/
theorem Bounded.admits (bounded : s.Bounded srv.toServer)
    (total_le : total srv.threadMap s.load ≤ srv.maxConnectNum.toNat) : s.Admits srv.toServer :=
  ⟨bounded.sum_eq.trans_le total_le, allocTask_shorter⟩

/-- An accept keeps to the limit exactly if there is room for a socket that is handed on. -/
theorem Sound.accept_iff (sound : Sound srv s)
    (moved : s.next srv.toServer (.accept task) = some after) :
    (total srv.threadMap after.load ≤ srv.maxConnectNum.toNat ↔
      s.Fits srv.toServer (.accept task)) ∧
      (s.Fits srv.toServer (.accept task) →
        Balanced srv.threadMap srv.maxConnectNum.toNat after.load) := by
  obtain ⟨ct, found⟩ := Option.isSome_iff_exists.mp (sound.bounded.isSome_iff.mpr sound.total_le)
  have member := getMinTaskThread_mem found
  have least := getMinTaskThread_least sound.bounded.small found
  have more := @total_handOff srv s.load ct task member
  have within := sound.total_le
  simp only [Admission.next] at moved
  split at moved
  · split at moved
    · next waits =>
      obtain rfl := Option.some.inj moved
      have fits : s.Fits srv.toServer (.accept task) := fun empty =>
        absurd waits (by simp [empty])
      exact ⟨iff_of_true within fits, fun _ => sound.balanced⟩
    · next waits =>
      -- Nothing waits, so the worker with the least load gets the socket.
      have empty : s.taskQueue = [] := by
        rw [← List.length_eq_zero_iff]
        omega
      rw [found] at moved
      obtain rfl := Option.some.inj moved
      simp only [Fits, empty, forall_const]
      by_cases taken : task.taken
      · simp only [taken, if_true, forall_const] at more ⊢
        rw [more]
        refine ⟨Iff.rfl, fun below => ?_⟩
        rw [OneProxy.handOff, if_pos taken]
        exact sound.balanced.give_least srv.keys member least below
      · rw [if_neg taken, Nat.add_zero] at more
        rw [more, OneProxy.handOff, if_neg taken]
        exact ⟨iff_of_true within fun wrong => absurd wrong taken, fun _ => sound.balanced⟩
  · cases moved

/-- A turn of the manager keeps to the limit exactly if there is room for all that are taken. -/
theorem Sound.startChild_iff (sound : Sound srv s)
    (moved : s.next srv.toServer .startChild = some after) :
    (total srv.threadMap after.load ≤ srv.maxConnectNum.toNat ↔ s.Fits srv.toServer .startChild) ∧
      (s.Fits srv.toServer .startChild →
        Balanced srv.threadMap srv.maxConnectNum.toNat after.load) := by
  have within := sound.total_le
  simp only [Admission.next, UInt32.lt_iff_toNat_lt, sound.bounded.toNat_size] at moved
  split at moved
  · next turns =>
    obtain rfl := Option.some.inj moved
    have waits : s.taskQueue ≠ [] := List.length_pos_iff.mp turns.1
    have share : (UInt32.ofNat (srv.maxConnectNum.toNat / srv.threadMap.length)).toNat =
        srv.maxConnectNum.toNat / srv.threadMap.length :=
      toNat_load (Nat.lt_of_le_of_lt (Nat.div_le_self _ _) srv.maxConnectNum.toNat_lt)
    -- The first loop keeps to the shares, so it is the second that may go beyond the limit.
    obtain ⟨filled, same⟩ := @Sound.fillThreads srv s.load s.taskQueue sound srv.threadMap
      (fun _ => id) _ share
    obtain ⟨drained, after⟩ := filled.drainQueue_iff
    rw [allocTask_eq waits, Fits]
    simp only [turns.2, forall_const]
    rw [← same]
    exact ⟨drained, fun fits => (after fits).balanced⟩
  · next rests =>
    obtain rfl := Option.some.inj moved
    have fits : s.Fits srv.toServer .startChild := by
      intro below
      have empty : s.taskQueue = [] := by
        rw [← List.length_eq_zero_iff]
        omega
      rw [empty]
      exact within
    exact ⟨iff_of_true within fits, fun _ => sound.balanced⟩

/-- Each step keeps to the limit exactly if its sockets fit. -/
theorem Sound.next_iff (sound : Sound srv s) {step : AdmissionStep}
    (moved : s.next srv.toServer step = some after) :
    (total srv.threadMap after.load ≤ srv.maxConnectNum.toNat ↔ s.Fits srv.toServer step) ∧
      (s.Fits srv.toServer step → Balanced srv.threadMap srv.maxConnectNum.toNat after.load) := by
  cases step with
  | accept task => exact sound.accept_iff moved
  | startChild => exact sound.startChild_iff moved
  | finish ct =>
    have within := sound.total_le
    simp only [Admission.next] at moved
    split at moved
    · next busy =>
      obtain rfl := Option.some.inj moved
      have less := total_take srv.keys busy.1 busy.2
      refine ⟨iff_of_true ?_ trivial, fun _ => sound.balanced.take srv.keys busy.1⟩
      show total srv.threadMap (take s.load ct) ≤ _
      omega
    · cases moved

/--
All along a run, the limit is kept and a socket is handed on below it, exactly if each socket that
is handed on at once, and each queue that is drained, fits below the limit.
-/
theorem admits_allAlong_iff (srv : Staffed) (steps : List AdmissionStep) :
    (∀ front, front <+: steps → ∀ s, exec (next srv.toServer) initial front = some s →
        s.Admits srv.toServer) ↔
      ∀ front step, front ++ [step] <+: steps → ∀ s after,
        exec (next srv.toServer) initial front = some s → s.next srv.toServer step = some after →
          s.Fits srv.toServer step := by
  have zero : total srv.threadMap (fun _ => 0) = 0 := by simp [total]
  have start : Sound srv initial := by
    refine ⟨?_, balanced_zero _ _, ?_⟩
    · rw [Bounded, opened]
      exact Nat.le_trans (Nat.le_of_eq zero) (Nat.zero_le _)
    · exact Nat.le_trans (Nat.le_of_eq zero) (Nat.zero_le _)
  -- Below the bound of the descriptors no sum wraps around.
  have admits_iff : ∀ s : Admission, s.Bounded srv.toServer →
      (s.Admits srv.toServer ↔ total srv.threadMap s.load ≤ srv.maxConnectNum.toNat) :=
    fun s bounded => ⟨fun admits => bounded.sum_eq.symm.trans_le admits.total_le, bounded.admits⟩
  refine allReached_iff_of_invariant ((admits_iff initial start.bounded).mpr start.total_le) start
    (fun s step after sound _ moved admits => ?_) (fun s step after sound _ moved => ?_) steps
  · have bounded := sound.bounded.next moved
    have total_le := (admits_iff after bounded).mp admits
    obtain ⟨exactly, balanced⟩ := sound.next_iff moved
    exact ⟨bounded, balanced (exactly.mp total_le), total_le⟩
  · exact (admits_iff after (sound.bounded.next moved)).trans (sound.next_iff moved).1

/-- A single worker is listed once. -/
theorem nodup_worker : ([1] : List ThreadId).Nodup := List.nodup_singleton 1

/-- A single worker is a worker. -/
theorem staffed_worker : ([1] : List ThreadId) ≠ [] := List.cons_ne_nil _ _

/-- One worker, and a limit of one connection. -/
def oneWorker : Staffed where
  maxConnectNum := 1
  threadMap := [1]
  object _ := .new [] 0
  keys := nodup_worker
  staffed := staffed_worker

/-- A second connection is admitted although the limit is reached. -/
theorem secondAccept_admitted : ¬ ∀ srv : Staffed, ∀ steps : List AdmissionStep,
    ∀ front, front <+: steps → ∀ s, exec (next srv.toServer) initial front = some s →
      s.Admits srv.toServer := by
  intro always
  obtain ⟨s, reached, two⟩ : ∃ s, exec (next oneWorker.toServer) initial
      [.accept ⟨1, true⟩, .accept ⟨2, true⟩] = some s ∧ s.load 1 = 2 := ⟨_, rfl, rfl⟩
  have total_le := (always oneWorker _ _ (List.prefix_refl _) s reached).total_le
  simp only [oneWorker, List.map_cons, List.map_nil, List.sum_singleton, getThreadTaskNum,
    two] at total_le
  exact absurd total_le (by decide)

end Admission

end OneProxy
