import Mathlib
import OneProxy.Lib.Runs
import OneProxy.NetworkSocket
import OneProxy.Handoff.ReadClientSocket

/-! Accept threads, the connection manager and the workers, handing accepted sockets over. -/

namespace OneProxy

open Runs

/-- The key of a worker thread in the thread map. -/
abbrev ThreadId := UInt64

/-- The first eight bytes of a `NetworkSocket` object, which are its first two members. -/
def objectBytes (ns : NetworkSocket) : Bytes :=
  LittleEndian.write 4 ns.fd.toNat ++ LittleEndian.write 4 ns.port.toNat

/-- What stays the same while sockets are handed over. -/
structure Server where
  maxConnectNum : UInt32
  /-- The workers, in the order the thread map is walked. -/
  threadMap : List ThreadId
  /-- The objects that accepted pointers point at. -/
  object : Address → NetworkSocket
  keys : threadMap.Nodup

/--
The values three readings of `get_threadTaskNum` give, which other threads may change between.
-/
structure TaskNum where
  summed : UInt32
  compared : UInt32
  stored : UInt32

/-- The load of each worker, as one evaluation sees it. -/
abbrev Loads := ThreadId → TaskNum

/-- One turn of the walk: the worker kept so far, its tasks, and the sum of all tasks. -/
def minTaskStep (load : Loads) (kept : Option ThreadId × UInt32 × UInt32) (ct : ThreadId) :
    Option ThreadId × UInt32 × UInt32 :=
  let (thread, minTask, sumTask) := kept
  let sumTask := sumTask + (load ct).summed
  -- The largest number stands for no worker at all.
  if minTask = 0xffffffff then (some ct, (load ct).stored, sumTask)
  else if (load ct).compared < minTask then (some ct, (load ct).stored, sumTask)
  else (thread, minTask, sumTask)

/-- The worker with the fewest tasks, or none where the limit is exceeded. -/
def getMinTaskThread (srv : Server) (load : Loads) : Option ThreadId :=
  let (thread, _, sumTask) := srv.threadMap.foldl (minTaskStep load) (none, 0xffffffff, 0)
  if sumTask > srv.maxConnectNum then none else thread

/-- Where a call of `accept_clientRequest` stands. -/
inductive AcceptCall
  | entered (clientSocket : Address)
  | queueing (clientSocket : Address)
  | choosing (clientSocket : Address)
  | writing (clientSocket : Address) (ct : ThreadId)
  deriving DecidableEq

/-- The socket an accept call is about. -/
def AcceptCall.clientSocket : AcceptCall → Address
  | .entered p | .queueing p | .choosing p | .writing p _ => p

/-- The worker an accept call has chosen. -/
def AcceptCall.target : AcceptCall → List ThreadId
  | .writing _ ct => [ct]
  | _ => []

/-- Where the manager thread stands in `alloc_task`, or that it is outside of it. -/
inductive AllocPc
  | outside
  -- The first loop, with the workers still to be walked.
  | perThread (rest : List ThreadId)
  | perThreadSize (ct : ThreadId) (rest : List ThreadId)
  | perThreadLock (ct : ThreadId) (rest : List ThreadId)
  | perThreadWrite (ns : Address) (ct : ThreadId) (rest : List ThreadId)
  -- The second loop.
  | drain
  | drainChoose
  | drainLock (ct : ThreadId)
  | drainWrite (ns : Address) (ct : ThreadId)

namespace AllocPc

/-- The socket `alloc_task` has taken from the queue and not yet written. -/
def held : AllocPc → List Address
  | .perThreadWrite ns _ _ | .drainWrite ns _ => [ns]
  | _ => []

/-- The workers `alloc_task` may still write to. -/
def threads : AllocPc → List ThreadId
  | .perThread rest => rest
  | .perThreadSize ct rest | .perThreadLock ct rest | .perThreadWrite _ ct rest => ct :: rest
  | .drainLock ct | .drainWrite _ ct => [ct]
  | _ => []

/-- The first loop writes to the socket pair while it holds the queue's mutex. -/
def locked : AllocPc → Bool
  | .perThreadWrite _ _ _ => true
  | _ => false

end AllocPc

/-- One write to a worker's socket pair. -/
structure Write where
  ct : ThreadId
  /-- The socket the write is made for. -/
  socket : Address
  bytes : Bytes

/-- The shared state, and the history of what was accepted and written. -/
structure Handoff where
  taskQueue : List Address
  /-- Bytes written to each worker's socket pair and not yet read. -/
  channel : ThreadId → Bytes
  /-- What `FIONREAD` has reported to a worker that has not yet called `recv`. -/
  reported : ThreadId → Option Nat
  accepting : List AcceptCall
  manager : AllocPc
  /-- The sockets each worker has given to `add_task`. -/
  added : ThreadId → List Address
  accepted : List Address
  writes : List Write

/-- The accepted sockets that no write has been made for. -/
def Handoff.inFlight (s : Handoff) : List Address :=
  s.accepting.map AcceptCall.clientSocket ++ s.taskQueue ++ s.manager.held

/-- `write_socketPair`: the bytes go to the end of the worker's stream at once. -/
def Handoff.writeSocketPair (s : Handoff) (ct : ThreadId) (ns : Address) (bytes : Bytes) :
    Handoff :=
  { s with
    channel := Function.update s.channel ct (s.channel ct ++ bytes)
    writes := s.writes ++ [⟨ct, ns, bytes⟩] }

/-- One thing a thread does. -/
inductive HandoffLabel
  /-- An accept thread enters `accept_clientRequest` with a socket it has just made. -/
  | accept (clientSocket : Address)
  /-- A call of `accept_clientRequest` goes on. -/
  | acceptStep (call : AcceptCall) (load : Loads)
  /-- The manager thread goes on in `alloc_task`. -/
  | allocTask (load : Loads)
  /-- A worker is told how much there is to read, always some whole writes. -/
  | ready (ct : ThreadId) (dataLen : Nat)
  /-- A worker goes through the rest of `read_clientSocket`. -/
  | receive (ct : ThreadId) (fuel : Nat) (call : ReadCall)

/-- A step of `accept_clientRequest`, with the call's next place if it has one. -/
def acceptClientRequest (srv : Server) (s : Handoff) (load : Loads) :
    AcceptCall → Option (Handoff × List AcceptCall)
  | .entered p =>
    if s.taskQueue.length > 0 then some (s, [.queueing p]) else some (s, [.choosing p])
  | .queueing p =>
    -- `add_task` has to wait for the mutex.
    if s.manager.locked then none else some ({ s with taskQueue := s.taskQueue ++ [p] }, [])
  | .choosing p =>
    match getMinTaskThread srv load with
    | some ct => some (s, [.writing p ct])
    | none => some (s, [.queueing p])
  | .writing p ct => some (s.writeSocketPair ct p (pointerBytes p), [])

/-- A step of `alloc_task`. -/
def allocTask (srv : Server) (s : Handoff) (load : Loads) : Option Handoff :=
  match s.manager with
  | .outside =>
    if s.taskQueue.length ≤ 0 then some s
    else if srv.threadMap.length = 0 then none
    else some { s with manager := .perThread srv.threadMap }
  | .perThread [] => some { s with manager := .drain }
  | .perThread (ct :: rest) =>
    let numPerThread := UInt32.ofNat (srv.maxConnectNum.toNat / srv.threadMap.length)
    if (load ct).compared < numPerThread then some { s with manager := .perThreadSize ct rest }
    else some { s with manager := .perThread rest }
  | .perThreadSize ct rest =>
    if s.taskQueue.length ≤ 0 then some { s with manager := .outside }
    else some { s with manager := .perThreadLock ct rest }
  | .perThreadLock ct rest =>
    match s.taskQueue with
    | ns :: queue => some { s with taskQueue := queue, manager := .perThreadWrite ns ct rest }
    | [] => some { s with manager := .perThread (ct :: rest) }
  | .perThreadWrite ns ct rest =>
    -- `write_socketPair(ns, sizeof(ns))`: the bytes are those the pointer points at.
    some { s.writeSocketPair ct ns (objectBytes (srv.object ns)) with
      manager := .perThread (ct :: rest) }
  | .drain =>
    if s.taskQueue.length = 0 then some { s with manager := .outside }
    else some { s with manager := .drainChoose }
  | .drainChoose =>
    match getMinTaskThread srv load with
    | none => some { s with manager := .outside }
    | some ct => some { s with manager := .drainLock ct }
  | .drainLock ct =>
    match s.taskQueue with
    | ns :: queue => some { s with taskQueue := queue, manager := .drainWrite ns ct }
    | [] => some { s with manager := .drain }
  | .drainWrite ns ct =>
    -- A null pointer is not written; the bytes are again those pointed at.
    if ns = 0 then some { s with manager := .drain }
    else some { s.writeSocketPair ct ns (objectBytes (srv.object ns)) with manager := .drain }

/-- One step of the whole hand-over. -/
def handoffStep (srv : Server) (s : Handoff) : HandoffLabel → Option Handoff
  | .accept p =>
    if p = 0 then none
    else some { s with accepting := .entered p :: s.accepting, accepted := s.accepted ++ [p] }
  | .acceptStep call load => do
    if call ∉ s.accepting then none
    let (s, next) ← acceptClientRequest srv s load call
    some { s with accepting := next ++ s.accepting.erase call }
  | .allocTask load => allocTask srv s load
  | .ready ct dataLen =>
    if dataLen ≤ (s.channel ct).length ∧ 8 ∣ dataLen ∧ dataLen < 0x80000000 ∧
        s.reported ct = none then
      some { s with reported := Function.update s.reported ct (some dataLen) }
    else none
  | .receive ct fuel call => do
    let dataLen ← s.reported ct
    if call.fionread ≠ some (UInt32.ofNat dataLen) ∨
        call.recv ≠ some ((s.channel ct).take dataLen) then none
    let added ← readClientSocket fuel call
    some { s with
      channel := Function.update s.channel ct ((s.channel ct).drop dataLen)
      reported := Function.update s.reported ct none
      added := Function.update s.added ct (s.added ct ++ added) }

/-- Before anything is accepted. -/
def Handoff.initial : Handoff where
  taskQueue := []
  channel _ := []
  reported _ := none
  accepting := []
  manager := .outside
  added _ := []
  accepted := []
  writes := []

/-- All interleavings of the threads. -/
def handoffSystem (srv : Server) : System Handoff HandoffLabel :=
  .ofStep (· = .initial) (handoffStep srv)

/-- The step does not write a queued socket, or writes one whose object begins with its address. -/
def WritesAddress (srv : Server) (s : Handoff) : HandoffLabel → Prop
  | .allocTask _ => ∀ ns ∈ s.manager.held, objectBytes (srv.object ns) = pointerBytes ns
  | _ => True

instance (srv : Server) (s : Handoff) (l : HandoffLabel) : Decidable (WritesAddress srv s l) :=
  match l with
  | .allocTask _ =>
    List.decidableBAll (fun ns => objectBytes (srv.object ns) = pointerBytes ns) s.manager.held
  | .accept _ | .acceptStep _ _ | .ready _ _ | .receive _ _ _ => .isTrue trivial

/--
Every accepted socket is handed to exactly one worker, as the pointer it was accepted as.

What a worker has added and what its stream still holds are the sockets written to it, in order.
-/
structure HandedOff (srv : Server) (s : Handoff) : Prop where
  bytes : ∀ w ∈ s.writes, w.bytes = pointerBytes w.socket
  ordered : ∀ ct, s.added ct ++ pointerFormat.decodeAll (s.channel ct) =
    (s.writes.filter (·.ct = ct)).map Write.socket
  once : ∀ p, s.accepted.count p = s.inFlight.count p +
    (srv.threadMap.map fun ct =>
      (s.added ct).count p + (pointerFormat.decodeAll (s.channel ct)).count p).sum
  -- A worker that has been told of bytes comes to the end of its call, and adds their pointers.
  returns : ∀ ct dataLen, s.reported ct = some dataLen → ∀ call : ReadCall,
    call.fionread = some (UInt32.ofNat dataLen) → call.recv = some ((s.channel ct).take dataLen) →
      call.Returns (pointerFormat.decodeAll ((s.channel ct).take dataLen))

end OneProxy
