import OneProxy.Session.OwnedSteps

/-! What one step of a thread can do to its frames, its timers and its connections. -/

namespace OneProxy

open ConnectionPool Runs

/-- Frames after which the handler goes on in the usual way. -/
def Frame.Plain : Frame → Prop
  | .getServerFailed _ | .finishedConnection _ _ => False
  | _ => True

namespace Worker

/-- How a plain step, or the start of a handler, changes what is left to do. -/
inductive NextFrames : List Frame → List Frame → Prop
  | start {f : Frame} (starts : ∀ c, f ≠ .getServerFailed c) : NextFrames [] [f]
  | stay {frame : Frame} {rest : List Frame} (plain : frame.Plain) :
      NextFrames (frame :: rest) (frame :: rest)
  | done {frame : Frame} {rest : List Frame} (plain : frame.Plain) : NextFrames (frame :: rest) rest
  | next {frame f : Frame} {rest : List Frame} (plain : frame.Plain) (conn : f.conn = frame.conn)
      (follows : ∀ c, f ≠ .getServerFailed c) : NextFrames (frame :: rest) (f :: rest)

/-- Two states of a thread that differ in one connection at most, and not in what is left to do. -/
structure Aside (c : ConnId) (w after : Worker) : Prop where
  frames : after.frames = w.frames
  timers : after.timers = w.timers
  obtained : after.obtained = w.obtained
  connMade : after.connMade = w.connMade
  elsewhere : ∀ other, other ≠ c → after.conn other = w.conn other

/-- Two changes of one connection are a change of it. -/
theorem Aside.trans {c : ConnId} {w between after : Worker} (first : Aside c w between)
    (second : Aside c between after) : Aside c w after where
  frames := second.frames.trans first.frames
  timers := second.timers.trans first.timers
  obtained := second.obtained.trans first.obtained
  connMade := second.connMade.trans first.connMade
  elsewhere other differs := (second.elsewhere other differs).trans (first.elsewhere other differs)

section Aside

variable (w : Worker) (c : ConnId)

/-- Changing a connection leaves the others. -/
theorem aside_updateConn (f : Connection → Connection) : Aside c w (w.updateConn c f) :=
  ⟨rfl, rfl, rfl, rfl, fun _ differs => updateConn_of_ne w f differs⟩

/-- Closing the client's socket changes one connection. -/
theorem aside_closeClient : Aside c w (w.closeClient c) := by
  unfold closeClient
  split
  · next s _ =>
    have closed : Aside c w (w.closeFds s) := ⟨rfl, rfl, rfl, rfl, fun _ _ => rfl⟩
    exact closed.trans (aside_updateConn _ c _)
  · exact ⟨rfl, rfl, rfl, rfl, fun _ _ => rfl⟩

/-- Closing a backend changes one connection. -/
theorem aside_closeBackend (slot : BackendSlot) : Aside c w (w.closeBackend c slot) := by
  unfold closeBackend
  split
  · next s _ =>
    have closed : Aside c w (w.closeFds s) := ⟨rfl, rfl, rfl, rfl, fun _ _ => rfl⟩
    exact closed.trans (aside_updateConn _ c _)
  · exact ⟨rfl, rfl, rfl, rfl, fun _ _ => rfl⟩

/-- Leaving an event changes no connection. -/
theorem aside_leaveEvent (ns : Option SocketId) : Aside c w (w.leaveEvent ns) := by
  unfold leaveEvent
  split
  · split
    · exact ⟨rfl, rfl, rfl, rfl, fun _ _ => rfl⟩
    · exact ⟨rfl, rfl, rfl, rfl, fun _ _ => rfl⟩
  · exact ⟨rfl, rfl, rfl, rfl, fun _ _ => rfl⟩

/-- Releasing the backends changes one connection. -/
theorem aside_releaseBackends (type : ConnFinishType) : Aside c w (w.releaseBackends c type) := by
  unfold releaseBackends
  split
  · have released : ∀ sk, Aside c w (w.withSockets sk) :=
      fun _ => ⟨rfl, rfl, rfl, rfl, fun _ _ => rfl⟩
    exact (released _).trans (aside_updateConn _ c _)
  · exact ⟨rfl, rfl, rfl, rfl, fun _ _ => rfl⟩

/-- Deleting a connection leaves the others. -/
theorem aside_deleteConnection {after : Worker} (done : w.deleteConnection c = some after) :
    Aside c w after := by
  simp only [deleteConnection, Option.bind_eq_bind, Option.bind_eq_some_iff] at done
  obtain ⟨_, -, _, -, same⟩ := done
  cases same
  exact ⟨rfl, rfl, rfl, rfl, fun _ _ => rfl⟩

/-- `finished_connection` changes one connection. -/
theorem aside_finishedConnection {after : Worker} {type : ConnFinishType}
    (done : w.finishedConnection c type = some after) : Aside c w after := by
  have left := ((aside_closeClient w c).trans (aside_leaveEvent _ c (w.conn c).sock.masters)).trans
    (aside_leaveEvent _ c (w.conn c).sock.slavers)
  unfold finishedConnection at done
  dsimp only at done
  split at done
  · cases done
    exact left
  · exact (left.trans (aside_releaseBackends _ c type)).trans (aside_deleteConnection _ c done)

end Aside

/-- A connection that is kept at its end keeps its backends. -/
theorem finishedConnection_kept {w after : Worker} (owned : Owned w) {c : ConnId}
    (member : c ∈ w.connectList) {type : ConnFinishType} (busy : w.servIsInEvent c = true)
    (done : w.finishedConnection c type = some after) (slot : BackendSlot) :
    (after.conn c).sock.backend slot = (w.conn c).sock.backend slot := by
  rw [finishedConnection, if_pos busy] at done
  cases done
  have conn := (leaveEvent_fields ((w.closeClient c).leaveEvent (w.conn c).sock.masters)
    (w.conn c).sock.slavers).2.2.1.trans
      (leaveEvent_fields (w.closeClient c) (w.conn c).sock.masters).2.2.1
  rw [conn]
  exact (owned.closeClient member).backend slot

/--
What one step of a thread can do.

Most steps are quiet: they only change what is left to do, registrations, and the contents of
sockets and connections.
-/
inductive StepCases (times : Nat) (w : Worker) : WorkerLabel → Worker → Prop
  | quiet {label : WorkerLabel} {after : Worker} (frames : NextFrames w.frames after.frames)
      (timers : after.timers = w.timers) (list : after.connectList = w.connectList)
      (connMade : after.connMade = w.connMade) (obtained : after.obtained = w.obtained)
      (backend : ∀ c slot, (after.conn c).sock.backend slot = (w.conn c).sock.backend slot) :
      StepCases times w label after
  | checked {label : WorkerLabel} {after : Worker} (list : after.connectList = w.connectList)
      (same : ∀ c, Aside c w after) (events : ∀ c, after.servIsInEvent c = w.servIsInEvent c) :
      StepCases times w label after
  | added {label : WorkerLabel} {after : Worker} (idle : w.frames = []) (frames : after.frames = [])
      (timers : after.timers = w.timers) (list : after.connectList = w.connectList ++ [w.connMade])
      (connMade : after.connMade = w.connMade + 1) (obtained : after.obtained = w.obtained)
      (elsewhere : ∀ c, c ≠ w.connMade → after.conn c = w.conn c) : StepCases times w label after
  | expired {label : WorkerLabel} {after : Worker} (c : ConnId) (pending : c ∈ w.timers)
      (idle : w.frames = [])
      (same : after = { w with timers := w.timers.erase c, frames := [.handleReadFrontData c] }) :
      StepCases times w label after
  | allocated {result : ConnectResult} {after : Worker} (c : ConnId) (slot : BackendSlot)
      (ns : SocketId) {rest : List Frame} (running : w.frames = .allocServer c :: rest)
      (member : c ∈ w.connectList)
      (frames : after.frames = .sendData c (sendChecks false) :: rest)
      (timers : after.timers = w.timers) (list : after.connectList = w.connectList)
      (connMade : after.connMade = w.connMade) (obtained : after.obtained = w.obtained ++ [(c, ns)])
      (elsewhere : ∀ other, other ≠ c → after.conn other = w.conn other)
      (vacant : (w.conn c).sock.backend slot = none)
      (filled : (after.conn c).sock.backend slot = some ns)
      (others : ∀ other, other ≠ slot →
        (after.conn c).sock.backend other = (w.conn c).sock.backend other) :
      StepCases times w (.connect result) after
  | refused {result : ConnectResult} {after : Worker} (c : ConnId) {rest : List Frame}
      (running : w.frames = .allocServer c :: rest) (member : c ∈ w.connectList)
      (frames : after.frames = .getServerFailed c :: .allocFailed c :: rest)
      (timers : after.timers = w.timers) (list : after.connectList = w.connectList)
      (connMade : after.connMade = w.connMade)
      (obtained : after.obtained = w.obtained ++ [(c, w.store.made)])
      (elsewhere : ∀ other, other ≠ c → after.conn other = w.conn other)
      (current : (w.conn c).sock.curservs = none)
      (failed : ∃ sk conn, protocolGetBackendConnect ⟨w.store, w.pool⟩ (w.conn c) result =
        some (-1, sk, conn)) :
      StepCases times w (.connect result) after
  | retried {label : WorkerLabel} {after : Worker} (c : ConnId) {rest : List Frame}
      (running : w.frames = .getServerFailed c :: rest) (member : c ∈ w.connectList)
      (again : w.retries times c = true) (frames : after.frames = rest)
      (timers : after.timers = w.timers ++ [c]) (list : after.connectList = w.connectList)
      (connMade : after.connMade = w.connMade) (obtained : after.obtained = w.obtained)
      (elsewhere : ∀ other, other ≠ c → after.conn other = w.conn other) :
      StepCases times w label after
  | gaveUp {label : WorkerLabel} {after : Worker} (c : ConnId) {rest : List Frame}
      (running : w.frames = .getServerFailed c :: rest) (member : c ∈ w.connectList)
      (atEnd : w.retries times c = false)
      (frames : after.frames = .finishedConnection c .err :: rest)
      (timers : after.timers = w.timers) (list : after.connectList = w.connectList)
      (connMade : after.connMade = w.connMade) (obtained : after.obtained = w.obtained)
      (conn : after.conn = w.conn) (events : after.servIsInEvent c = w.servIsInEvent c) :
      StepCases times w label after
  | finished {label : WorkerLabel} {after : Worker} (c : ConnId) (type : ConnFinishType)
      {rest : List Frame} (running : w.frames = .finishedConnection c type :: rest)
      (member : c ∈ w.connectList)
      (done : ({ w with frames := rest }).finishedConnection c type = some after)
      (aside : Aside c { w with frames := rest } after)
      (list : after.connectList =
        if w.servIsInEvent c then w.connectList else w.connectList.filter (· ≠ c))
      (kept : w.servIsInEvent c = true →
        ∀ slot, (after.conn c).sock.backend slot = (w.conn c).sock.backend slot)
      (placed : w.servIsInEvent c = false →
        ∀ slot s, (w.conn c).sock.backend slot = some s → after.Placed s) :
      StepCases times w label after

section Quiet

variable {times : Nat} {w : Worker} {label : WorkerLabel}

/-- A step that only changes what is left to do. -/
theorem StepCases.moved {frames : List Frame} (next : NextFrames w.frames frames) :
    StepCases times w label { w with frames := frames } :=
  .quiet next rfl rfl rfl rfl fun _ _ => rfl

/-- A step that changes what a connection has, but not its backends. -/
theorem StepCases.changed {c : ConnId} {f : Connection → Connection} {frames : List Frame}
    (next : NextFrames w.frames frames)
    (backend : ∀ slot, (f (w.conn c)).sock.backend slot = (w.conn c).sock.backend slot) :
    StepCases times w label { w.updateConn c f with frames := frames } := by
  refine .quiet next rfl rfl rfl rfl fun other slot => ?_
  show ((w.updateConn c f).conn other).sock.backend slot = _
  by_cases same : other = c
  · rw [same, updateConn_self]
    exact backend slot
  · rw [updateConn_of_ne w f same]

/-- What protocols do leaves their handler where it is. -/
theorem stepCases_act {after : Worker} {c : ConnId} {act : ProtocolAct}
    (next : NextFrames w.frames w.frames) (done : w.act c act = some after) :
    StepCases times w label after := by
  -- No act calls a handler, so that the frames stay.
  cases act with
  | chooseDatabase =>
    cases done
    exact .changed (f := protocolChooseDatabase) next fun slot =>
      chosen_at (w.conn c) (.backend slot)
  | useMasterServer =>
    cases done
    refine .changed (f := (·.updateSock SocketSet.useMasterServer)) next fun slot => ?_
    cases slot <;> rfl
  | useSlaverServer =>
    cases done
    refine .changed (f := (·.updateSock SocketSet.useSlaverServer)) next fun slot => ?_
    cases slot <;> rfl
  | setStatus | addConnArgs =>
    simp only [Worker.act, Option.bind_eq_bind, Option.bind_eq_some_iff] at done
    obtain ⟨ns, -, same⟩ := done
    cases same
    exact .quiet next rfl rfl rfl rfl fun _ _ => rfl
  | setConnStatus status =>
    cases done
    exact .changed (f := ({ · with status := status })) next fun _ => rfl
  | setType type =>
    cases done
    exact .changed (f := fun conn => { conn with record := { conn.record with type := type } }) next
      fun _ => rfl

/-- Watching a socket changes the registrations only. -/
theorem watchRead_eq (w : Worker) (ns : Option SocketId) (fp : IoCallback) (c : ConnId) :
    ∃ ioEvent, w.watchRead ns fp c = { w with ioEvent := ioEvent } := by
  cases ns with
  | none => exact ⟨w.ioEvent, rfl⟩
  | some s => exact ⟨w.ioEvent.addIoEventRead (w.store.fd s) fp c, rfl⟩

/-- Not watching a socket any more changes the registrations only. -/
theorem unwatch_eq (w : Worker) (ns : Option SocketId) :
    ∃ ioEvent, w.unwatch ns = { w with ioEvent := ioEvent } := by
  cases ns with
  | none => exact ⟨w.ioEvent, rfl⟩
  | some s => exact ⟨w.ioEvent.delIoEvent (w.store.fd s), rfl⟩

/--
A write changes registrations, and leaves the rest of `send_data` or the end of the connection.
-/
theorem writeData_eq {after : Worker} {c : ConnId} {isFront flushed : Bool} {outcome : WriteOutcome}
    {checks : List SendCheck} {rest : List Frame}
    (done : w.writeData c isFront flushed outcome checks rest = some after) :
    ∃ ioEvent frames, after = { w with ioEvent := ioEvent, frames := frames } ∧
      (frames = .sendData c checks :: rest ∨ frames = .finishedConnection c .err :: rest) := by
  have flushes : ∃ ioEvent, (if flushed then w.watchRead (w.side c !isFront) (callback !isFront) c
      else w) = { w with ioEvent := ioEvent } := by
    split
    · exact watchRead_eq w _ _ c
    · exact ⟨w.ioEvent, rfl⟩
  obtain ⟨flushedEvents, flushes⟩ := flushes
  simp only [Worker.writeData, Option.bind_eq_bind, Option.bind_eq_some_iff, flushes] at done
  obtain ⟨desSocket, -, done⟩ := done
  -- Each outcome leaves either the rest of the checks or the end of the connection on the stack.
  cases outcome with
  | nothing =>
    cases done
    exact ⟨w.ioEvent, _, rfl, .inl rfl⟩
  | again =>
    dsimp only at done
    obtain ⟨ioEvent, unwatched⟩ := unwatch_eq { w with
      ioEvent := flushedEvents.addIoEventWrite (w.store.fd desSocket) (callback isFront) c }
        (w.side c !isFront)
    cases done
    exact ⟨ioEvent, _, by rw [unwatched], .inl rfl⟩
  | error =>
    cases done
    exact ⟨flushedEvents, _, rfl, .inr rfl⟩
  | finished =>
    obtain ⟨ioEvent, watched⟩ := watchRead_eq { w with ioEvent := flushedEvents } (some desSocket)
      (callback isFront) c
    cases done
    exact ⟨ioEvent, _, by rw [watched], .inl rfl⟩

/-- `alloc_server` goes on with a backend, or has failed to make one. -/
theorem stepCases_allocServer {after : Worker} (owned : Owned w) {c : ConnId}
    {result : ConnectResult}
    {rest : List Frame} (member : c ∈ w.connectList) (running : w.frames = .allocServer c :: rest)
    (done : w.allocServer c result rest = some after) :
    StepCases times w (.connect result) after := by
  have goesOn : NextFrames w.frames (.sendData c (sendChecks false) :: rest) :=
    running ▸ .next trivial rfl fun _ => Frame.noConfusion
  have elsewhere : ∀ (sk : Sockets) conn other, other ≠ c →
      ((w.withSockets sk).updateConn c fun _ => conn).conn other = w.conn other :=
    fun sk conn other differs => updateConn_of_ne (w.withSockets sk) _ differs
  have here : ∀ (sk : Sockets) conn, ((w.withSockets sk).updateConn c fun _ => conn).conn c =
      conn :=
    fun sk conn => updateConn_self (w.withSockets sk) c _
  unfold Worker.allocServer at done
  split at done
  · cases done
    exact .moved goesOn
  · next current =>
    split at done
    · cases done
    · simp only [Option.bind_eq_bind, Option.bind_eq_some_iff, Prod.exists] at done
      obtain ⟨ret, sk, conn, got, ns, ns_, done⟩ := done
      rw [chosen_curservs] at done
      -- A backend of the chosen kind is used; else there is one from the pool, or a new one.
      cases getBackendConnect_cases owned.sound got with
      | current has =>
        rw [has] at done
        simp only [reduceCtorEq, if_false, ne_eq, not_true_eq_false] at done
        cases done
        refine .quiet goesOn rfl rfl rfl rfl fun other slot => ?_
        by_cases same : other = c
        · subst same
          exact (congrArg (fun conn => conn.sock.backend slot) (here _ _)).trans
            (chosen_at _ (.backend slot))
        · exact congrArg (fun conn => conn.sock.backend slot) (elsewhere _ _ other same)
      | pooled vacant uses given | created vacant more opened pool =>
        rw [vacant] at done
        simp only [if_true, ne_eq, not_true_eq_false, if_false] at done
        cases done
        refine .allocated c (chosenSlot (w.conn c)) ns running member rfl rfl rfl rfl rfl
          (elsewhere _ _)
          vacant ?_ ?_
        · refine (congrArg (fun conn : Connection => conn.sock.backend (chosenSlot (w.conn c)))
            (here _ _)).trans ?_
          refine (SocketSet.backend_setBackend _ _ _).trans ?_
          rw [← ns_]
          cases chosenSlot (w.conn c) <;> rfl
        · intro other differs
          refine (congrArg (fun conn : Connection => conn.sock.backend other) (here _ _)).trans ?_
          exact (SocketSet.backend_setBackend_of_ne _ _ _ differs).trans (by cases other <;> rfl)
      | failed vacant more pool =>
        rw [vacant] at done
        simp only [ne_eq, if_pos, Int.reduceNeg, reduceCtorEq, not_false_eq_true] at done
        cases done
        cases ns_
        exact .refused c running member rfl rfl rfl rfl rfl (elsewhere _ _) current ⟨_, _, got⟩

/-- Whether a connection is in an event depends on its backends and their status. -/
theorem servIsInEvent_of_status {after : Worker} {c : ConnId}
    (conn : (after.conn c).sock = (w.conn c).sock)
    (status : ∀ s, (after.store.object s).status = (w.store.object s).status) :
    after.servIsInEvent c = w.servIsInEvent c := by
  have one : ∀ ns, after.inEvent ns = w.inEvent ns := by
    intro ns
    cases ns with
    | none => rfl
    | some s => rw [inEvent, inEvent, status]
  rw [servIsInEvent, servIsInEvent, conn, one, one]

/-- `get_serverFailed` will try again, or ends the connection. -/
theorem stepCases_getServerFailed {after : Worker} (owned : Owned w) {c : ConnId}
    {rest : List Frame} (member : c ∈ w.connectList)
    (running : w.frames = .getServerFailed c :: rest)
    (done : w.getServerFailed times c rest = some after) : StepCases times w label after := by
  simp only [Worker.getServerFailed, Option.bind_eq_bind, Option.bind_eq_some_iff] at done
  obtain ⟨cns, client, done⟩ := done
  -- The attempts are counted on the client's socket.
  split at done
  · next atEnd =>
    cases done
    refine .gaveUp c running member ?_ rfl rfl rfl rfl rfl rfl ?_
    · rw [retries, client]
      exact decide_eq_false (Nat.not_lt.mpr atEnd)
    · refine servIsInEvent_of_status rfl fun s => ?_
      exact Store.status_update w.store cns (f := ({ · with
        connServerFailed := (w.store.object cns).connServerFailed + 1 })) (fun _ => rfl) s
  · next below =>
    cases done
    let counted : Worker := { w with store := w.store.update cns fun ns => { ns with
      connServerFailed := (w.store.object cns).connServerFailed + 1 } }
    have aside := ((aside_closeBackend counted c .masters).trans
      (aside_closeBackend _ c .slavers)).trans
        (aside_updateConn _ c ({ · with protocolBase := false }))
    have list : (counted.retryLater c).connectList = w.connectList :=
      ((owned.updateStore cns fun _ => rfl : Owned counted ∧ _).1.retryLater member).2.1
    refine .retried c running member ?_ rfl ?_ list aside.connMade aside.obtained aside.elsewhere
    · rw [retries, client]
      exact decide_eq_true (Nat.lt_of_not_le below)
    · exact congrArg (· ++ [c]) aside.timers

/-- `finished_connection` deletes its connection, or keeps it while a backend is in an event. -/
theorem stepCases_finishedConnection {after : Worker} (owned : Owned w) {c : ConnId}
    {type : ConnFinishType} {rest : List Frame} (member : c ∈ w.connectList)
    (running : w.frames = .finishedConnection c type :: rest)
    (done : ({ w with frames := rest }).finishedConnection c type = some after) :
    StepCases times w label after := by
  have popped : Owned { w with frames := rest } :=
    (owned.of_eq { w with frames := rest } rfl rfl rfl rfl rfl).1
  have finished := popped.finishedConnection member done
  exact .finished c type running member done (aside_finishedConnection _ c done) finished.list
    (fun busy => finishedConnection_kept popped member busy done) finished.placed

/-- A connection gets a protocol and a database, or ends. -/
theorem stepCases_attach {c : ConnId} {group : Option (DataBaseGroup × Bool)} {rest : List Frame}
    (goesOn : ∀ f : Frame, f.conn = c → (∀ c, f ≠ .getServerFailed c) →
      NextFrames w.frames (f :: rest)) :
    StepCases times w label (w.attach c group rest) := by
  have ends := goesOn (.finishedConnection c .err) rfl fun _ => Frame.noConfusion
  -- Without a group, or with one that has no database, the connection ends.
  unfold Worker.attach
  split
  · exact .moved ends
  · exact .changed (f :=
      fun conn => { conn with database := { conn.database with dataBaseGroup := none } })
      ends fun _ => rfl
  · next chosen =>
    dsimp only
    split
    · exact .changed (f := fun conn => { conn with
        database := getDatabaseFromGroup w.store chosen
          { (w.conn c).database with dataBaseGroup := some chosen }
        protocolBase := true }) ends fun _ => rfl
    · exact .changed (f := fun conn => { conn with
        database := getDatabaseFromGroup w.store chosen
          { (w.conn c).database with dataBaseGroup := some chosen }
        protocolBase := true }) (goesOn (.protocolFront c) rfl fun _ => Frame.noConfusion)
          fun _ => rfl

/-- The next step of a handler. -/
theorem stepCases_frameStep {after : Worker} (owned : Owned w) {frame : Frame} {rest : List Frame}
    (running : w.frames = frame :: rest) (member : frame.conn ∈ w.connectList)
    (done : w.frameStep times rest frame label = some after) : StepCases times w label after := by
  -- One case for each frame; a plain one stays, returns, or is replaced by what it calls.
  have goesOn : frame.Plain → ∀ f, f.conn = frame.conn → (∀ c, f ≠ .getServerFailed c) →
      NextFrames w.frames (f :: rest) :=
    fun plain f conn follows => running ▸ .next plain conn follows
  have returns : frame.Plain → NextFrames w.frames rest := fun plain => running ▸ .done plain
  have stays : frame.Plain → NextFrames w.frames w.frames := fun plain => running ▸ .stay plain
  unfold Worker.frameStep at done
  split at done
  · split at done
    · cases done
      exact .moved (returns trivial)
    · split at done <;> cases done
      · exact .moved (goesOn trivial _ rfl fun _ => Frame.noConfusion)
      · exact .moved (goesOn trivial _ rfl fun _ => Frame.noConfusion)
      · exact .moved (returns trivial)
      · exact .moved (goesOn trivial _ rfl fun _ => Frame.noConfusion)
  · split at done <;> cases done
    exact .moved (goesOn trivial _ rfl fun _ => Frame.noConfusion)
  · split at done <;> cases done
    exact stepCases_attach (fun f conn follows => goesOn trivial f conn follows)
  · exact stepCases_act (stays trivial) done
  · split at done
    · cases done
      exact .moved (goesOn trivial _ rfl fun _ => Frame.noConfusion)
    · cases done
      exact .moved (goesOn trivial _ rfl fun _ => Frame.noConfusion)
    · split at done <;> cases done
      · exact .moved (goesOn trivial _ rfl fun _ => Frame.noConfusion)
      · exact .moved (goesOn trivial _ rfl fun _ => Frame.noConfusion)
  · exact stepCases_allocServer owned member running done
  · exact stepCases_getServerFailed owned member running done
  · simp only [Option.bind_eq_bind, Option.bind_eq_some_iff] at done
    obtain ⟨_, -, popped⟩ := done
    cases popped
    exact .moved (returns trivial)
  · cases done
    exact .moved (returns trivial)
  · split at done <;> cases done
    · exact .moved (goesOn trivial _ rfl fun _ => Frame.noConfusion)
    · exact .moved (goesOn trivial _ rfl fun _ => Frame.noConfusion)
  · obtain ⟨ioEvent, frames, rfl, rfl | rfl⟩ := writeData_eq done
    · exact .quiet (goesOn trivial _ rfl fun _ => Frame.noConfusion) rfl rfl rfl rfl fun _ _ => rfl
    · exact .quiet (goesOn trivial _ rfl fun _ => Frame.noConfusion) rfl rfl rfl rfl fun _ _ => rfl
  · split at done
    · cases done
      exact .moved (returns trivial)
    · split at done
      · cases done
        exact .moved (goesOn trivial _ rfl fun _ => Frame.noConfusion)
      · cases done
        exact .moved (goesOn trivial _ rfl fun _ => Frame.noConfusion)
      · cases done
        exact .moved (returns trivial)
      · split at done <;> cases done
        exact .moved (goesOn trivial _ rfl fun _ => Frame.noConfusion)
  · exact stepCases_act (stays trivial) done
  · split at done <;> cases done
    · exact .moved (goesOn trivial _ rfl fun _ => Frame.noConfusion)
    · exact .moved (goesOn trivial _ rfl fun _ => Frame.noConfusion)
    · exact .moved (goesOn trivial _ rfl fun _ => Frame.noConfusion)
  · exact stepCases_finishedConnection owned member running done
  · cases done

/-- Every step of a thread is one of these. -/
theorem step_cases {after : Worker} (owned : Owned w) (done : w.step times label = some after) :
    StepCases times w label after := by
  unfold Worker.step at done
  -- A check of the pool comes between any two steps; else an event starts a handler, or one goes
  -- on.
  split at done
  · next before later active =>
    cases done
    refine .checked rfl (fun c => ⟨rfl, rfl, rfl, rfl, fun _ _ => rfl⟩) fun c => ?_
    obtain ⟨-, -, -, object, -⟩ := check_spec owned.sound owned.core
      (Prod.eta (w.pool.checkConnectActive w.store before later active)).symm
    exact servIsInEvent_of_status rfl fun s => congrArg (fun object => (object s).status) object
  · split at done
    · next idle =>
      have starts : ∀ f : Frame, (∀ c, f ≠ .getServerFailed c) → NextFrames w.frames [f] :=
        fun f starts => idle ▸ .start starts
      unfold Worker.eventStep at done
      split at done
      · unfold Worker.addTask at done
        dsimp only at done
        split at done <;> cases done
        exact .added idle idle rfl rfl rfl rfl fun _ differs => Function.update_of_ne differs _ _
      · simp only [Option.bind_eq_bind, Option.bind_eq_some_iff] at done
        obtain ⟨info, -, handled⟩ := done
        cases handled
        refine .moved (starts _ fun c => ?_)
        unfold handler
        split <;> exact Frame.noConfusion
      · split at done <;> cases done
        next pending => exact .expired _ pending idle rfl
      · split at done <;> cases done
        exact .moved (starts _ fun _ => Frame.noConfusion)
      · cases done
    · next frame rest running =>
      split at done
      · next member => exact stepCases_frameStep owned running member done
      · cases done

end Quiet

end Worker

end OneProxy
