import OneProxy.Session.Lifetime

/-! The counters of a worker's connections, and what they count. -/

namespace OneProxy

open Runs

/-- `ClientTaskStat`. -/
structure ClientTaskStat where
  wait : UInt32
  doing : UInt32
  fail : UInt32
  deriving DecidableEq

namespace ClientTaskStat

variable (stat : ClientTaskStat)

/-- `recv_connection`. -/
def recvConnection : ClientTaskStat := { stat with wait := stat.wait + 1 }

/-- `close_connection`. -/
def closeConnection : ClientTaskStat := { stat with doing := stat.doing - 1 }

/-- `doing_connection`. -/
def doingConnection : ClientTaskStat :=
  { stat with wait := stat.wait - 1, doing := stat.doing + 1 }

/-- `done_connection`. -/
def doneConnection : ClientTaskStat := { stat with doing := stat.doing - 1 }

/-- `doing_failConnection`. -/
def doingFailConnection : ClientTaskStat :=
  { stat with doing := stat.doing - 1, fail := stat.fail + 1 }

/-- `retry_failConnection`. -/
def retryFailConnection : ClientTaskStat :=
  { stat with fail := stat.fail - 1, doing := stat.doing + 1 }

/-- `sum_connection`. -/
def sumConnection : UInt32 := stat.wait + stat.doing + stat.fail

end ClientTaskStat

/-- A thread with its counters. -/
structure CountedWorker where
  worker : Worker
  taskStat : ClientTaskStat

/-- What happens next, with the failure of `add_task` among it. -/
inductive TaskLabel
  | worker (label : WorkerLabel)
  /-- A received socket cannot be watched, and is closed. -/
  | addTaskFailed

namespace Worker

/-- What a step makes of the counters. -/
def taskCalls (times : Nat) (w : Worker) (stat : ClientTaskStat) : WorkerLabel → ClientTaskStat
  -- `read_clientSocket` counts a socket as received after `add_task` has counted it as handled.
  | .addTask .. => stat.doingConnection.recvConnection
  | .retryFailedConnection _ => stat.retryFailConnection
  | .go =>
    match w.frames with
    | .getServerFailed c :: _ =>
      if w.retries times c then stat.doingFailConnection else stat
    | .finishedConnection c _ :: _ =>
      if (w.conn c).sock.curclins.isSome then stat.doneConnection else stat
    | _ => stat
  | _ => stat

/-- The connections whose client's socket is open. -/
def clients (w : Worker) : List ConnId :=
  w.connectList.filter fun c => (w.conn c).sock.curclins.isSome

end Worker

namespace CountedWorker

/-- One step of the thread, or the failure of `add_task`. -/
def step (times : Nat) (cw : CountedWorker) : TaskLabel → Option CountedWorker
  | .worker label => (cw.worker.step times label).map fun w =>
      ⟨w, cw.worker.taskCalls times cw.taskStat label⟩
  | .addTaskFailed =>
    if cw.worker.frames = [] then
      some { cw with taskStat := cw.taskStat.closeConnection.recvConnection }
    else none

/-- All runs of a thread with its counters. -/
def system (times : Nat) : System CountedWorker TaskLabel :=
  .ofStep (fun cw => ∃ dataBase now, cw = ⟨.initial dataBase now, ⟨0, 0, 0⟩⟩) (step times)

/--
The counters are the numbers of connections in their phases.

Between handlers no connection waits to be added; one that is to be tried again has a pending timer.
-/
structure Counted (cw : CountedWorker) : Prop where
  wait : cw.taskStat.wait.toNat = 0
  doing : cw.taskStat.doing.toNat =
    (cw.worker.clients.filter (· ∉ cw.worker.timers)).length
  fail : cw.taskStat.fail.toNat = (cw.worker.clients.filter (· ∈ cw.worker.timers)).length
  sum : cw.taskStat.sumConnection.toNat = cw.worker.clients.length

/--
`add_task` succeeds, and no connection ends, or is put aside again, while its timer is pending.
-/
def Matched (times : Nat) (cw : CountedWorker) : TaskLabel → Prop
  | .addTaskFailed => False
  | .worker .go =>
    (∀ c ∈ cw.worker.ending, (cw.worker.conn c).sock.curclins.isSome → c ∉ cw.worker.timers) ∧
      ∀ c ∈ cw.worker.failing, cw.worker.retries times c = true → c ∉ cw.worker.timers
  | .worker _ => True

end CountedWorker

/-! ## The clients after a step -/

namespace Worker

variable {times : Nat} {w between after : Worker} {label : WorkerLabel}

/-- A change that leaves the connections, their clients and the timers. -/
structure Unmoved (w after : Worker) : Prop where
  list : after.connectList = w.connectList
  timers : after.timers = w.timers
  curclins : ∀ c, (after.conn c).sock.curclins = (w.conn c).sock.curclins

theorem Unmoved.trans (first : Unmoved w between) (second : Unmoved between after) :
    Unmoved w after where
  list := second.list.trans first.list
  timers := second.timers.trans first.timers
  curclins c := (second.curclins c).trans (first.curclins c)

/-- The clients are then the same. -/
theorem Unmoved.clients (same : Unmoved w after) : after.clients = w.clients := by
  simp only [Worker.clients, same.list, same.curclins]

/-- A change of a connection that keeps its client. -/
theorem unmoved_updateConn (w : Worker) (c : ConnId) {f : Connection → Connection}
    (keeps : (f (w.conn c)).sock.curclins = (w.conn c).sock.curclins) :
    Unmoved w (w.updateConn c f) := by
  refine ⟨rfl, rfl, fun other => ?_⟩
  by_cases same : other = c
  · subst same
    rw [updateConn_self]
    exact keeps
  · rw [updateConn_of_ne w f same]

/-- A backend's slot is not the client's. -/
theorem curclins_setBackend (sock : SocketSet) (slot : BackendSlot) (ns : Option SocketId) :
    (sock.setBackend slot ns).curclins = sock.curclins := by
  cases slot <;> rfl

/-- Closing a backend keeps the client. -/
theorem unmoved_closeBackend (w : Worker) (c : ConnId) (slot : BackendSlot) :
    Unmoved w (w.closeBackend c slot) := by
  unfold closeBackend
  split
  · next s found =>
    have closed : Unmoved w (w.closeFds s) := ⟨rfl, rfl, fun _ => rfl⟩
    exact closed.trans (unmoved_updateConn _ c (curclins_setBackend _ slot none))
  · exact ⟨rfl, rfl, fun _ => rfl⟩

/-- Choosing or getting a backend keeps the client. -/
theorem curclins_getBackendConnect {sk sk' : Sockets} {conn conn' : Connection}
    {result : ConnectResult} {ret : Int} (sound : sk.store.Sound)
    (done : protocolGetBackendConnect sk conn result = some (ret, sk', conn')) :
    conn'.sock.curclins = conn.sock.curclins := by
  have chosen : (protocolChooseDatabase conn).sock.curclins = conn.sock.curclins := rfl
  cases getBackendConnect_cases sound done with
  | current => exact chosen
  | failed => exact chosen
  | pooled | created => exact (curclins_setBackend _ _ _).trans chosen

/-- So does what a protocol does. -/
theorem unmoved_act {c : ConnId} {act : ProtocolAct} (done : w.act c act = some after) :
    Unmoved w after := by
  cases act with
  | chooseDatabase | useMasterServer | useSlaverServer | setConnStatus | setType =>
    cases done
    exact unmoved_updateConn w c rfl
  | setStatus | addConnArgs =>
    simp only [Worker.act, Option.bind_eq_bind, Option.bind_eq_some_iff] at done
    obtain ⟨ns, _, same⟩ := done
    cases same
    exact ⟨rfl, rfl, fun _ => rfl⟩

/-- Getting a protocol and a database keeps the client. -/
theorem unmoved_attach (w : Worker) (c : ConnId) (group : Option (DataBaseGroup × Bool))
    (rest : List Frame) : Unmoved w (w.attach c group rest) := by
  unfold Worker.attach
  split
  · exact ⟨rfl, rfl, fun _ => rfl⟩
  · have changed := @unmoved_updateConn w c
      (fun conn => { conn with database := { conn.database with dataBaseGroup := none } }) rfl
    exact ⟨changed.list, changed.timers, changed.curclins⟩
  · next chosen =>
    have changed := @unmoved_updateConn w c (fun conn => { conn with
      database := getDatabaseFromGroup w.store chosen
        { (w.conn c).database with dataBaseGroup := some chosen }
      protocolBase := true }) rfl
    dsimp only
    split
    · exact ⟨changed.list, changed.timers, changed.curclins⟩
    · exact ⟨changed.list, changed.timers, changed.curclins⟩

/-- So does getting a backend. -/
theorem unmoved_allocServer (sound : w.store.Sound) {c : ConnId} {result : ConnectResult}
    {rest : List Frame} (done : w.allocServer c result rest = some after) : Unmoved w after := by
  unfold Worker.allocServer at done
  split at done
  · cases done
    exact ⟨rfl, rfl, fun _ => rfl⟩
  · split at done
    · cases done
    · simp only [Option.bind_eq_bind, Option.bind_eq_some_iff, Prod.exists] at done
      obtain ⟨ret, sk, conn, got, ns, _, done⟩ := done
      have keeps := curclins_getBackendConnect sound got
      have changed : Unmoved w ((w.withSockets sk).updateConn c fun _ => conn) := by
        have moved : Unmoved w (w.withSockets sk) := ⟨rfl, rfl, fun _ => rfl⟩
        exact moved.trans (unmoved_updateConn _ c keeps)
      -- The four outcomes differ in the frames only.
      split at done
      · split at done
        · cases done
          exact ⟨changed.list, changed.timers, changed.curclins⟩
        · cases done
          exact ⟨changed.list, changed.timers, changed.curclins⟩
      · split at done
        · cases done
          exact ⟨changed.list, changed.timers, changed.curclins⟩
        · cases done
          exact ⟨changed.list, changed.timers, changed.curclins⟩

/-- What a step may do to the clients, the timers and the counters. -/
inductive ClientStep (times : Nat) (w after : Worker) (label : WorkerLabel) : Prop
  | same (clients : after.clients = w.clients) (timers : after.timers = w.timers)
      (calls : ∀ stat, w.taskCalls times stat label = stat)
  | received (clients : after.clients = w.clients ++ [w.connMade])
      (timers : after.timers = w.timers)
      (calls : ∀ stat, w.taskCalls times stat label = stat.doingConnection.recvConnection)
  | retried (c : ConnId) (pending : c ∈ w.timers) (clients : after.clients = w.clients)
      (timers : after.timers = w.timers.erase c)
      (calls : ∀ stat, w.taskCalls times stat label = stat.retryFailConnection)
  | failed (c : ConnId) (go : label = .go) (failing : w.failing = some c)
      (again : w.retries times c = true) (client : c ∈ w.clients)
      (clients : after.clients = w.clients) (timers : after.timers = w.timers ++ [c])
      (calls : ∀ stat, w.taskCalls times stat label = stat.doingFailConnection)
  | closed (c : ConnId) (go : label = .go) (ending : w.ending = some c)
      (open_ : (w.conn c).sock.curclins.isSome) (client : c ∈ w.clients)
      (clients : after.clients = w.clients.filter (· ≠ c)) (timers : after.timers = w.timers)
      (calls : ∀ stat, w.taskCalls times stat label = stat.doneConnection)

/-- A step of a handler other than a failure or an end moves nothing. -/
theorem unmoved_frameStep (sound : w.store.Sound) {frame : Frame} {rest : List Frame}
    (running : w.frames = frame :: rest) (plain : frame.Plain)
    (done : w.frameStep times rest frame label = some after) :
    Unmoved w after ∧ ∀ stat, w.taskCalls times stat label = stat := by
  -- Only a failure and an end call the counters, and they are no plain frames.
  have calls : ∀ stat, w.taskCalls times stat .go = stat := by
    intro stat
    rw [taskCalls, running]
    cases frame with
    | getServerFailed | finishedConnection => exact plain.elim
    | _ => rfl
  unfold Worker.frameStep at done
  split at done
  · split at done
    · cases done
      exact ⟨⟨rfl, rfl, fun _ => rfl⟩, fun _ => rfl⟩
    · split at done <;> cases done <;> exact ⟨⟨rfl, rfl, fun _ => rfl⟩, fun _ => rfl⟩
  · split at done <;> cases done
    exact ⟨⟨rfl, rfl, fun _ => rfl⟩, calls⟩
  · split at done <;> cases done
    exact ⟨unmoved_attach w _ _ rest, fun _ => rfl⟩
  · exact ⟨unmoved_act done, fun _ => rfl⟩
  · split at done
    · cases done
      exact ⟨⟨rfl, rfl, fun _ => rfl⟩, fun _ => rfl⟩
    · cases done
      exact ⟨⟨rfl, rfl, fun _ => rfl⟩, fun _ => rfl⟩
    · split at done <;> cases done <;> exact ⟨⟨rfl, rfl, fun _ => rfl⟩, fun _ => rfl⟩
  · exact ⟨unmoved_allocServer sound done, fun _ => rfl⟩
  · exact plain.elim
  · simp only [Option.bind_eq_bind, Option.bind_eq_some_iff] at done
    obtain ⟨_, _, popped⟩ := done
    cases popped
    exact ⟨⟨rfl, rfl, fun _ => rfl⟩, calls⟩
  · cases done
    exact ⟨⟨rfl, rfl, fun _ => rfl⟩, calls⟩
  · split at done <;> cases done <;> exact ⟨⟨rfl, rfl, fun _ => rfl⟩, fun _ => rfl⟩
  · obtain ⟨ioEvent, frames, rfl, _⟩ := writeData_eq done
    exact ⟨⟨rfl, rfl, fun _ => rfl⟩, fun _ => rfl⟩
  · split at done
    · cases done
      exact ⟨⟨rfl, rfl, fun _ => rfl⟩, fun _ => rfl⟩
    · split at done
      · cases done
        exact ⟨⟨rfl, rfl, fun _ => rfl⟩, fun _ => rfl⟩
      · cases done
        exact ⟨⟨rfl, rfl, fun _ => rfl⟩, fun _ => rfl⟩
      · cases done
        exact ⟨⟨rfl, rfl, fun _ => rfl⟩, fun _ => rfl⟩
      · split at done <;> cases done
        exact ⟨⟨rfl, rfl, fun _ => rfl⟩, fun _ => rfl⟩
  · exact ⟨unmoved_act done, fun _ => rfl⟩
  · split at done <;> cases done <;> exact ⟨⟨rfl, rfl, fun _ => rfl⟩, fun _ => rfl⟩
  · exact plain.elim
  · cases done

/-- A connection with a client is one of the clients. -/
theorem mem_clients {c : ConnId} :
    c ∈ w.clients ↔ c ∈ w.connectList ∧ (w.conn c).sock.curclins.isSome := List.mem_filter

/-- A failure keeps the clients, and puts the connection aside or goes on to its end. -/
theorem clientStep_getServerFailed {c : ConnId} {rest : List Frame}
    (running : w.frames = .getServerFailed c :: rest) (member : c ∈ w.connectList)
    (done : w.getServerFailed times c rest = some after) : ClientStep times w after .go := by
  simp only [Worker.getServerFailed, Option.bind_eq_bind, Option.bind_eq_some_iff] at done
  obtain ⟨cns, client, done⟩ := done
  have calls : ∀ stat, w.taskCalls times stat .go =
      if w.retries times c then stat.doingFailConnection else stat := by
    intro stat
    rw [taskCalls, running]
  -- The failures of the client's socket decide whether there is another attempt.
  split at done
  · next atEnd =>
    cases done
    have ends : w.retries times c = false := by
      rw [retries, client]
      exact decide_eq_false (Nat.not_lt.mpr atEnd)
    exact .same rfl rfl fun stat => by rw [calls, ends]; rfl
  · next below =>
    cases done
    have again : w.retries times c = true := by
      rw [retries, client]
      exact decide_eq_true (Nat.lt_of_not_le below)
    let counted : Worker := { w with store := w.store.update cns fun ns => { ns with
      connServerFailed := (w.store.object cns).connServerFailed + 1 } }
    have begun : Unmoved w counted := ⟨rfl, rfl, fun _ => rfl⟩
    have closed := ((begun.trans (unmoved_closeBackend counted c .masters)).trans
      (unmoved_closeBackend _ c .slavers)).trans
        (@unmoved_updateConn _ c (fun conn => { conn with protocolBase := false }) rfl)
    have aside : Unmoved w { counted.retryLater c with frames := rest, timers := w.timers } :=
      ⟨closed.list, rfl, closed.curclins⟩
    refine .failed c rfl (by rw [failing, running]) again
      (mem_clients.mpr ⟨member, by rw [client]; rfl⟩)
      aside.clients ?_ fun stat => ?_
    · exact congrArg (· ++ [c]) closed.timers
    · rw [calls, again]
      rfl

/-- The end of a connection takes it from the clients. -/
theorem clients_finishedConnection (owned : Owned w) {c : ConnId} (member : c ∈ w.connectList)
    {type : ConnFinishType} (done : w.finishedConnection c type = some after) :
    after.clients = w.clients.filter (· ≠ c) := by
  have aside := aside_finishedConnection w c done
  have list := (owned.finishedConnection member done).list
  have elsewhere : ∀ other, other ≠ c →
      ((after.conn other).sock.curclins.isSome = (w.conn other).sock.curclins.isSome) := by
    intro other differs
    rw [aside.elsewhere other differs]
  -- A busy connection stays in the list without its client, any other leaves the list.
  cases busy : w.servIsInEvent c with
  | true =>
    have gone : (after.conn c).sock.curclins = none := by
      rw [finishedConnection, if_pos busy] at done
      cases done
      have conn := (leaveEvent_fields ((w.closeClient c).leaveEvent (w.conn c).sock.masters)
        (w.conn c).sock.slavers).2.2.1.trans
          (leaveEvent_fields (w.closeClient c) (w.conn c).sock.masters).2.2.1
      rw [conn]
      exact (owned.closeClient member).client
    rw [busy, if_pos rfl] at list
    simp only [clients, list, List.filter_filter]
    apply List.filter_congr
    intro other _
    by_cases same : other = c
    · subst same
      simp [gone]
    · simp [elsewhere other same, same]
  | false =>
    rw [busy, if_neg Bool.false_ne_true] at list
    simp only [clients, list, List.filter_filter]
    apply List.filter_congr
    intro other _
    by_cases same : other = c
    · simp [same]
    · simp [elsewhere other same, same]

/-- The end of a connection closes its client's socket, if that is still open. -/
theorem clientStep_finishedConnection (owned : Owned w) {c : ConnId} {type : ConnFinishType}
    {rest : List Frame} (running : w.frames = .finishedConnection c type :: rest)
    (member : c ∈ w.connectList)
    (done : ({ w with frames := rest }).finishedConnection c type = some after) :
    ClientStep times w after .go := by
  have popped : Owned { w with frames := rest } :=
    (owned.of_eq { w with frames := rest } rfl rfl rfl rfl rfl).1
  have clients : after.clients = w.clients.filter (· ≠ c) :=
    clients_finishedConnection popped member done
  have timers : after.timers = w.timers := (aside_finishedConnection _ c done).timers
  have calls : ∀ stat, w.taskCalls times stat .go =
      if (w.conn c).sock.curclins.isSome then stat.doneConnection else stat := by
    intro stat
    rw [taskCalls, running]
  -- A connection that has ended once and is still listed has no client to close.
  by_cases open_ : (w.conn c).sock.curclins.isSome
  · exact .closed c rfl (by rw [ending, running]) open_ (mem_clients.mpr ⟨member, open_⟩)
      clients timers
      fun stat => by rw [calls, if_pos open_]
  · refine .same (clients.trans (List.filter_eq_self.mpr fun other client => ?_)) timers
      fun stat => by rw [calls, if_neg open_]
    have differs : other ≠ c := by
      rintro rfl
      exact open_ (mem_clients.mp client).2
    simpa using differs

/-- Every step is one of these. -/
theorem clientStep (owned : Owned w) (done : w.step times label = some after) :
    ClientStep times w after label := by
  unfold Worker.step at done
  split at done
  · cases done
    exact .same rfl rfl fun _ => rfl
  · split at done
    · next idle =>
      unfold Worker.eventStep at done
      split at done
      · unfold Worker.addTask at done
        dsimp only at done
        split at done <;> cases done
        refine .received ?_ rfl fun _ => rfl
        have fresh : ∀ c ∈ w.connectList, c ≠ w.connMade := fun c listed =>
          Nat.ne_of_lt (owned.listed c listed)
        simp only [clients, List.filter_append]
        congr 1
        · apply List.filter_congr
          intro c listed
          rw [Function.update_of_ne (fresh c listed)]
        · simp [Connection.updateSock]
      · simp only [Option.bind_eq_bind, Option.bind_eq_some_iff] at done
        obtain ⟨info, _, handled⟩ := done
        cases handled
        exact .same rfl rfl fun _ => rfl
      · split at done <;> cases done
        next pending => exact .retried _ pending rfl rfl fun _ => rfl
      · split at done <;> cases done
        exact .same rfl rfl fun _ => rfl
      · cases done
    · next frame rest running =>
      split at done
      · next member =>
        -- Only failures and ends concern a client; no other label lets them go on.
        by_cases plain : frame.Plain
        · obtain ⟨same, calls⟩ := unmoved_frameStep owned.sound running plain done
          exact .same same.clients same.timers calls
        · cases frame with
          | getServerFailed c =>
            cases label with
            | go => exact clientStep_getServerFailed running member done
            | _ => simp [Worker.frameStep] at done
          | finishedConnection c type =>
            cases label with
            | go => exact clientStep_finishedConnection owned running member done
            | _ => simp [Worker.frameStep] at done
          | _ => exact absurd trivial plain
      · cases done

/-! ## The number of clients -/

/-- Different numbers below a bound are no more than that. -/
theorem nodup_length_le {numbers : List Nat} {bound : Nat} (distinct : numbers.Nodup)
    (below : ∀ n ∈ numbers, n < bound) : numbers.length ≤ bound := by
  have inside : numbers ⊆ List.range bound := fun n member => List.mem_range.mpr (below n member)
  have shorter := (distinct.subperm inside).length_le
  rwa [List.length_range] at shorter

/-- The descriptor of a connection's client. -/
def clientFd (w : Worker) (c : ConnId) : UInt32 :=
  match (w.conn c).sock.curclins with
  | some s => w.store.fd s
  | none => 0

/-- The client of a connection has a descriptor, which no other connection's client has. -/
theorem clientFd_inj (owned : Owned w) {c other : ConnId} (client : c ∈ w.clients)
    (client' : other ∈ w.clients) :
    w.clientFd c ≠ 0 ∧ (w.clientFd c = w.clientFd other → c = other) := by
  obtain ⟨listed, has⟩ := mem_clients.mp client
  obtain ⟨listed', has'⟩ := mem_clients.mp client'
  obtain ⟨s, found⟩ := Option.isSome_iff_exists.mp has
  obtain ⟨s', found'⟩ := Option.isSome_iff_exists.mp has'
  have held : w.Holds c .client s := ⟨listed, found⟩
  have held' : w.Holds other .client s' := ⟨listed', found'⟩
  rw [clientFd, clientFd, found, found']
  refine ⟨owned.heldOpen c .client s held, fun same => ?_⟩
  have one := owned.sound.fdsDistinct s s' (owned.heldLive c .client s held)
    (owned.heldLive other .client s' held') (owned.heldOpen c .client s held) same
  subst one
  exact (owned.heldApart c .client other .client s held held').1

/-- There are fewer clients than a counter of 32 bits can count. -/
theorem clients_length_lt (owned : Owned w) (distinct : w.clients.Nodup) :
    w.clients.length < 0x100000000 := by
  -- Each client has a descriptor of its own, none of which is 0.
  have apart : (w.clients.map fun c => (w.clientFd c).toNat).Nodup := by
    apply List.Nodup.map_on _ distinct
    intro c client other client' same
    exact (clientFd_inj owned client client').2 (UInt32.toNat_inj.mp same)
  have positive : 0 ∉ w.clients.map fun c => (w.clientFd c).toNat := by
    intro member
    obtain ⟨c, client, zero⟩ := List.mem_map.mp member
    exact (clientFd_inj owned client client).1 (UInt32.toNat_inj.mp zero)
  have fits := @nodup_length_le (0 :: w.clients.map fun c => (w.clientFd c).toNat) 0x100000000
    (List.nodup_cons.mpr ⟨positive, apart⟩) (by
      intro n member
      rcases List.mem_cons.mp member with rfl | member
      · decide
      · obtain ⟨c, _, rfl⟩ := List.mem_map.mp member
        exact (w.clientFd c).toNat_lt)
  rw [List.length_cons, List.length_map] at fits
  exact fits

end Worker

namespace CountedWorker

variable {times : Nat} {cw after : CountedWorker} {label : TaskLabel}

/-- The counters, as the timers tell who is to be tried again. -/
structure Tallied (cw : CountedWorker) : Prop where
  distinct : cw.worker.clients.Nodup
  once : cw.worker.timers.Nodup
  pending : ∀ c ∈ cw.worker.timers, c ∈ cw.worker.clients
  wait : cw.taskStat.wait = 0
  fail : cw.taskStat.fail.toNat = cw.worker.timers.length
  doing : cw.taskStat.doing.toNat + cw.worker.timers.length = cw.worker.clients.length

/-- A client without a pending timer is counted as being handled. -/
theorem Tallied.doing_pos (tallied : cw.Tallied) {c : ConnId} (client : c ∈ cw.worker.clients)
    (free : c ∉ cw.worker.timers) : 0 < cw.taskStat.doing.toNat := by
  have inside : c :: cw.worker.timers ⊆ cw.worker.clients := by
    intro other member
    rcases List.mem_cons.mp member with rfl | member
    · exact client
    · exact tallied.pending other member
  have shorter := ((List.nodup_cons.mpr ⟨free, tallied.once⟩).subperm inside).length_le
  have all := tallied.doing
  rw [List.length_cons] at shorter
  omega

/-- A received socket is counted as being handled, and is not waiting any more. -/
theorem Tallied.received (tallied : cw.Tallied) {w : Worker}
    (clients : w.clients = cw.worker.clients ++ [cw.worker.connMade])
    (timers : w.timers = cw.worker.timers) (fresh : cw.worker.connMade ∉ cw.worker.clients)
    (small : w.clients.length < 0x100000000) :
    Tallied ⟨w, cw.taskStat.doingConnection.recvConnection⟩ := by
  have doing := tallied.doing
  -- The new client is one of the clients that are counted with 32 bits, so that nothing overflows.
  have grown : (cw.taskStat.doing + 1).toNat = cw.taskStat.doing.toNat + 1 := by
    rw [clients, List.length_append, List.length_singleton] at small
    rw [UInt32.toNat_add, UInt32.toNat_one]
    omega
  refine ⟨?_, timers ▸ tallied.once, ?_, ?_, ?_, ?_⟩
  · show w.clients.Nodup
    rw [clients, ← List.concat_eq_append]
    exact tallied.distinct.concat fresh
  · intro c member
    show c ∈ w.clients
    rw [clients]
    exact List.mem_append_left _ (tallied.pending c (timers ▸ member))
  · show cw.taskStat.wait - 1 + 1 = 0
    rw [UInt32.sub_add_cancel]
    exact tallied.wait
  · show cw.taskStat.fail.toNat = w.timers.length
    rw [timers]
    exact tallied.fail
  · show (cw.taskStat.doing + 1).toNat + w.timers.length = w.clients.length
    rw [grown, timers, clients, List.length_append, List.length_singleton]
    omega

/-- A connection whose timer expires is counted as being handled again. -/
theorem Tallied.retried (tallied : cw.Tallied) {w : Worker} {c : ConnId}
    (pending : c ∈ cw.worker.timers) (clients : w.clients = cw.worker.clients)
    (timers : w.timers = cw.worker.timers.erase c) (small : w.clients.length < 0x100000000) :
    Tallied ⟨w, cw.taskStat.retryFailConnection⟩ := by
  -- The timer's connection goes from those that failed to those being handled.
  have doing := tallied.doing
  have fail := tallied.fail
  have shorter := List.length_erase_of_mem pending
  have some_ := List.length_pos_of_mem pending
  rw [clients] at small
  refine ⟨clients ▸ tallied.distinct, timers ▸ tallied.once.erase c, ?_, tallied.wait, ?_, ?_⟩
  · intro other member
    show other ∈ w.clients
    rw [clients]
    exact tallied.pending other (List.mem_of_mem_erase (timers ▸ member))
  · show (cw.taskStat.fail - 1).toNat = w.timers.length
    rw [timers, shorter, UInt32.toNat_sub, UInt32.toNat_one]
    omega
  · show (cw.taskStat.doing + 1).toNat + w.timers.length = w.clients.length
    rw [timers, shorter, clients, UInt32.toNat_add, UInt32.toNat_one]
    omega

/-- A connection that is put aside for the first time is counted as having failed. -/
theorem Tallied.failed (tallied : cw.Tallied) {w : Worker} {c : ConnId}
    (client : c ∈ cw.worker.clients) (free : c ∉ cw.worker.timers)
    (clients : w.clients = cw.worker.clients) (timers : w.timers = cw.worker.timers ++ [c])
    (small : w.clients.length < 0x100000000) :
    Tallied ⟨w, cw.taskStat.doingFailConnection⟩ := by
  have doing := tallied.doing
  have fail := tallied.fail
  -- The connection was among those being handled, so that none is subtracted from 0.
  have positive := tallied.doing_pos client free
  rw [clients] at small
  refine ⟨clients ▸ tallied.distinct, ?_, ?_, tallied.wait, ?_, ?_⟩
  · show w.timers.Nodup
    rw [timers, ← List.concat_eq_append]
    exact tallied.once.concat free
  · intro other member
    show other ∈ w.clients
    rw [clients]
    rcases List.mem_append.mp (timers ▸ member) with old | new
    · exact tallied.pending other old
    · exact List.mem_singleton.mp new ▸ client
  · show (cw.taskStat.fail + 1).toNat = w.timers.length
    rw [timers, List.length_append, List.length_singleton, UInt32.toNat_add, UInt32.toNat_one]
    omega
  · show (cw.taskStat.doing - 1).toNat + w.timers.length = w.clients.length
    rw [timers, List.length_append, List.length_singleton, clients, UInt32.toNat_sub,
      UInt32.toNat_one]
    omega

/-- A connection that ends while it is being handled is not counted any more. -/
theorem Tallied.closed (tallied : cw.Tallied) {w : Worker} {c : ConnId}
    (client : c ∈ cw.worker.clients) (free : c ∉ cw.worker.timers)
    (clients : w.clients = cw.worker.clients.filter (· ≠ c))
    (timers : w.timers = cw.worker.timers) : Tallied ⟨w, cw.taskStat.doneConnection⟩ := by
  have doing := tallied.doing
  have positive := tallied.doing_pos client free
  have bound := cw.taskStat.doing.toNat_lt
  -- The clients have no connection twice.
  have erased : w.clients = cw.worker.clients.erase c := by
    rw [clients, tallied.distinct.erase_eq_filter]
    apply List.filter_congr
    intro other _
    by_cases same : other = c <;> simp [same]
  have shorter := List.length_erase_of_mem client
  refine ⟨?_, timers ▸ tallied.once, ?_, tallied.wait, ?_, ?_⟩
  · show w.clients.Nodup
    rw [erased]
    exact tallied.distinct.erase c
  · intro other member
    show other ∈ w.clients
    rw [clients]
    have before : other ∈ cw.worker.timers := timers ▸ member
    have differs : other ≠ c := by
      rintro rfl
      exact free before
    exact List.mem_filter.mpr ⟨tallied.pending other before, by simpa using differs⟩
  · show cw.taskStat.fail.toNat = w.timers.length
    rw [timers]
    exact tallied.fail
  · show (cw.taskStat.doing - 1).toNat + w.timers.length = w.clients.length
    rw [erased, shorter, timers, UInt32.toNat_sub, UInt32.toNat_one]
    omega

/-- Each matched step keeps the counters. -/
theorem Tallied.step (tallied : cw.Tallied) (owned : Worker.Owned cw.worker)
    (matched : cw.Matched times label) (done : cw.step times label = some after) :
    after.Tallied := by
  cases label with
  | addTaskFailed => exact matched.elim
  | worker label =>
    obtain ⟨w, moved, rfl⟩ := Option.map_eq_some_iff.mp done
    have owned' := (Worker.owned_step owned moved).1
    -- By what the step does with a client; the counters follow what was matched.
    cases Worker.clientStep owned moved with
    | same clients timers calls =>
      rw [calls]
      exact ⟨clients ▸ tallied.distinct, timers ▸ tallied.once,
        fun c member => clients ▸ tallied.pending c (timers ▸ member), tallied.wait,
        timers ▸ tallied.fail, by rw [timers, clients]; exact tallied.doing⟩
    | received clients timers calls =>
      rw [calls]
      have fresh : cw.worker.connMade ∉ cw.worker.clients := by
        intro member
        exact Nat.lt_irrefl _ (owned.listed _ (Worker.mem_clients.mp member).1)
      have distinct : w.clients.Nodup := by
        rw [clients, ← List.concat_eq_append]
        exact tallied.distinct.concat fresh
      exact tallied.received clients timers fresh (Worker.clients_length_lt owned' distinct)
    | retried c pending clients timers calls =>
      rw [calls]
      exact tallied.retried pending clients timers
        (Worker.clients_length_lt owned' (clients ▸ tallied.distinct))
    | failed c go failing again client clients timers calls =>
      subst go
      rw [calls]
      exact tallied.failed client (matched.2 c failing again) clients timers
        (Worker.clients_length_lt owned' (clients ▸ tallied.distinct))
    | closed c go ending open_ client clients timers calls =>
      subst go
      rw [calls]
      exact tallied.closed client (matched.1 c ending open_) clients timers

/-- The clients with a pending timer are as many as there are timers. -/
theorem Tallied.filter_length (tallied : cw.Tallied) :
    (cw.worker.clients.filter (· ∈ cw.worker.timers)).length = cw.worker.timers.length := by
  apply List.Perm.length_eq
  rw [List.perm_ext_iff_of_nodup (tallied.distinct.filter _) tallied.once]
  intro c
  rw [List.mem_filter, decide_eq_true_eq]
  exact ⟨fun both => both.2, fun member => ⟨tallied.pending c member, member⟩⟩

/-- The counters are then the sizes of the phases. -/
theorem Tallied.counted (tallied : cw.Tallied) (owned : Worker.Owned cw.worker) : cw.Counted := by
  have doing := tallied.doing
  have fail := tallied.fail
  have small := Worker.clients_length_lt owned tallied.distinct
  have aside := tallied.filter_length
  have parts : (cw.worker.clients.filter (· ∈ cw.worker.timers)).length +
      (cw.worker.clients.filter (· ∉ cw.worker.timers)).length = cw.worker.clients.length := by
    have split_ := List.length_eq_length_filter_add (fun c => decide (c ∈ cw.worker.timers))
      (l := cw.worker.clients)
    simpa using split_.symm
  refine ⟨?_, ?_, ?_, ?_⟩
  · rw [tallied.wait]
    rfl
  · omega
  · omega
  · rw [ClientTaskStat.sumConnection, tallied.wait, UInt32.toNat_add, UInt32.toNat_add,
      UInt32.toNat_zero]
    omega

/-- A run of the thread with its counters is a run of the thread. -/
theorem worker_reachable (reached : Reachable (system times) cw) :
    Reachable (workerSystem times) cw.worker := by
  -- A task that could not be added moves the counters only.
  refine @Reachable.invariant _ _ (system times) (fun cw =>
    Reachable (workerSystem times) cw.worker)
    ?_ ?_ _ reached
  · rintro before ⟨dataBase, now, rfl⟩
    exact Reachable.start ⟨dataBase, now, rfl⟩
  · intro before label next worker last
    cases label with
    | addTaskFailed =>
      simp only [system, System.ofStep, step] at last
      split at last
      · obtain rfl := Option.some.inj last
        exact worker
      · cases last
    | worker label =>
      obtain ⟨w, moved, rfl⟩ := Option.map_eq_some_iff.mp last
      exact worker.next moved

/--
In every run whose steps are matched, the counters are the sizes of the phases whenever no handler
is running, and their sum is the number of clients.
-/
theorem counted_of_matched (reached : Reachable ((system times).restrict (Matched times)) cw)
    (_ : cw.worker.frames = []) : cw.Counted := by
  have owned : ∀ cw, Reachable (system times) cw → Worker.Owned cw.worker :=
    fun cw reached => Worker.owned_of_reachable (worker_reachable reached)
  have start : ∀ cw, (system times).init cw → cw.Tallied := by
    rintro cw ⟨dataBase, now, rfl⟩
    exact ⟨List.nodup_nil, List.nodup_nil, fun c member => absurd member List.not_mem_nil,
      rfl, rfl, rfl⟩
  have tallied : cw.Tallied := reached.restrict_invariant owned start
    fun before label next owned tallied matched last => tallied.step owned matched last
  exact tallied.counted (owned cw reached.of_restrict)

/-- A client that has been received is counted as being handled. -/
theorem counted_of_matched_received : ∃ cw : CountedWorker, cw.worker.clients = [0] ∧
      cw.Counted := by
  obtain ⟨cw, moved, idle, clients⟩ : ∃ cw : CountedWorker,
      (CountedWorker.mk (.initial Worker.masterAndSlave 0) ⟨0, 0, 0⟩).step 3
        (.worker (.addTask [] 0 5)) = some cw ∧ cw.worker.frames = [] ∧ cw.worker.clients = [0] :=
    ⟨_, rfl, rfl, rfl⟩
  have start : Reachable ((system 3).restrict (Matched 3))
      (CountedWorker.mk (.initial Worker.masterAndSlave 0) ⟨0, 0, 0⟩) :=
    Reachable.start ⟨_, _, rfl⟩
  have matched : Matched 3 (CountedWorker.mk (.initial Worker.masterAndSlave 0) ⟨0, 0, 0⟩)
      (.worker (.addTask [] 0 5)) := trivial
  have reached : Reachable ((system 3).restrict (Matched 3)) cw := start.next ⟨matched, moved⟩
  exact ⟨cw, clients, counted_of_matched reached idle⟩

/--
A socket that cannot be watched leaves a counter of connections that wait, and one below zero.
-/
theorem failedTask_counted : ¬ ∀ cw, Reachable (system 3) cw → cw.worker.frames = [] →
      cw.Counted := by
  intro always
  have start : Reachable (system 3)
      (CountedWorker.mk (.initial Worker.masterAndSlave 0) ⟨0, 0, 0⟩) := Reachable.start ⟨_, _, rfl⟩
  have moved : (system 3).step (CountedWorker.mk (.initial Worker.masterAndSlave 0) ⟨0, 0, 0⟩)
      .addTaskFailed ⟨.initial Worker.masterAndSlave 0, ⟨1, 0 - 1, 0⟩⟩ := rfl
  have counted := always _ (start.next moved) rfl
  exact absurd counted.wait (by decide)

end CountedWorker

end OneProxy
