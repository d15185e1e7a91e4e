import OneProxy.Iomultiplex.IoEvent
import OneProxy.Lib.Runs
import OneProxy.Session.ProtocolBase

/-! One `ClientThread`: its connections, its event loop, and the steps of its handlers. -/

namespace OneProxy

open ConnectionPool Runs

/-- A pointer to a `Connection` object. -/
abbrev ConnId := Nat

/-- One of the tests in `send_data`: on whose socket, and towards whom it leads to a write. -/
structure SendCheck where
  client : Bool
  isFront : Bool
  deriving DecidableEq

/-- The tests of `send_data`, in order. -/
def sendChecks (sendToClient : Bool) : List SendCheck :=
  if sendToClient then [⟨false, true⟩, ⟨false, false⟩, ⟨true, true⟩]
  else [⟨true, false⟩, ⟨true, true⟩, ⟨false, false⟩]

/-- What a handler still has to do, each step being about one connection. -/
inductive Frame
  | handleReadFrontData (c : ConnId)
  | parseFrontDataPacket (c : ConnId)
  | protocolFront (c : ConnId)
  | allocServer (c : ConnId)
  | getServerFailed (c : ConnId)
  /-- The message of `handle_readFrontData` after `alloc_server` failed. -/
  | allocFailed (c : ConnId)
  | sendData (c : ConnId) (checks : List SendCheck)
  | writeData (c : ConnId) (isFront : Bool) (checks : List SendCheck)
  | handleReadBackendData (c : ConnId)
  | protocolBackend (c : ConnId)
  | finishedConnection (c : ConnId) (type : ConnFinishType)
  deriving DecidableEq

/-- The connection a step is about. -/
def Frame.conn : Frame → ConnId
  | .handleReadFrontData c | .parseFrontDataPacket c | .protocolFront c | .allocServer c
  | .getServerFailed c | .allocFailed c | .sendData c _ | .writeData c _ _
  | .handleReadBackendData c | .protocolBackend c | .finishedConnection c _ => c

/-- A client thread. -/
structure Worker where
  store : Store
  pool : ConnectionPool
  conn : ConnId → Connection
  connMade : Nat
  /-- The connections that have not been deleted. -/
  connectList : List ConnId
  ioEvent : IoEvent ConnId
  /-- The connections of the pending `TryFailedConnection` timers. -/
  timers : List ConnId
  frames : List Frame
  /-- The backends obtained or created so far, and for whom. -/
  obtained : List (ConnId × SocketId)

/-- How a read from a socket ends. -/
inductive ReadResult
  | error
  | closed
  | empty
  | data
  deriving DecidableEq

/-- How the parsing of a packet ends. -/
inductive ParseResult
  | failedClose
  | normalClose
  | ok
  deriving DecidableEq

/-- How a `write_data` ends. -/
inductive WriteOutcome
  | nothing
  | again
  | error
  | finished
  deriving DecidableEq

/-- What a protocol may do with a connection while it handles a packet. -/
inductive ProtocolAct
  | chooseDatabase
  | useMasterServer
  | useSlaverServer
  | setStatus (slot : BackendSlot) (status : SocketStatus)
  | addConnArgs (slot : Slot) (key value : Bytes)
  | setConnStatus (status : ConnExecStatus)
  | setType (type : QueryType)
  deriving DecidableEq

/-- What happens next, with what the thread is told by the kernel, the peers and the protocol. -/
inductive WorkerLabel
  | addTask (address : Bytes) (port fd : UInt32)
  | ready (fd : UInt32)
  | retryFailedConnection (c : ConnId)
  | checkConnectionTimeout (c : ConnId)
  | checkConnectActive (before after : UInt64) (active : SocketId → Bool)
  | read (result : ReadResult)
  | attach (group : Option (DataBaseGroup × Bool))
  | act (act : ProtocolAct)
  | parsed (result : ParseResult) (remain : Bool)
  | connect (result : ConnectResult)
  | remain (remain : Bool)
  | write (flushed : Bool) (outcome : WriteOutcome)
  | go

namespace Worker

/-- A thread without connections. -/
def initial (dataBase : DataBaseId → DataBase) (now : UInt64) : Worker where
  store := ⟨fun _ => .new [] 0, 0, [], dataBase⟩
  pool := .new now
  conn _ := .new
  connMade := 0
  connectList := []
  ioEvent _ := none
  timers := []
  frames := []
  obtained := []

/-- Changes a connection. -/
def updateConn (w : Worker) (c : ConnId) (f : Connection → Connection) : Worker :=
  { w with conn := Function.update w.conn c (f (w.conn c)) }

/-- Changes the socket objects and the pool. -/
def withSockets (w : Worker) (sk : Sockets) : Worker :=
  { w with store := sk.store, pool := sk.pool }

/-- `close_fds` of a connection's socket. -/
def closeFds (w : Worker) (s : SocketId) : Worker :=
  { w with ioEvent := w.ioEvent.delIoEvent (w.store.fd s), store := w.store.delete s }

/-- `add_task`: a client's socket becomes a connection. -/
def addTask (w : Worker) (address : Bytes) (port fd : UInt32) : Option Worker :=
  let store := w.store.alloc (.new address port)
  if store.FreshFd fd then
    let ns := w.store.made
    let conn := Connection.new.updateSock fun sock => { sock with curclins := some ns }
    some { w with
      store := store.update ns fun ns => { ns with fd := fd }
      conn := Function.update w.conn w.connMade conn
      connMade := w.connMade + 1
      ioEvent := w.ioEvent.addIoEventRead fd .rwFrontData w.connMade
      connectList := w.connectList ++ [w.connMade] }
  else none

/-- `rw_frontData` and `rw_backendData`: the handler of an event. -/
def handler (info : EventInfo ConnId) : Frame :=
  match info.fp, info.event with
  | .rwFrontData, .read => .handleReadFrontData info.args
  | .rwFrontData, .write => .writeData info.args true []
  | .rwBackendData, .read => .handleReadBackendData info.args
  | .rwBackendData, .write => .writeData info.args false []

/-- The socket's events are still being handled, so that it must not be taken away. -/
def inEvent (w : Worker) (ns : Option SocketId) : Bool :=
  match ns with
  | some s => (w.store.object s).status ≠ .working
  | none => false

/-- A connection is kept at its end while one of its backends is being cleaned up. -/
def servIsInEvent (w : Worker) (c : ConnId) : Bool :=
  w.inEvent (w.conn c).sock.masters || w.inEvent (w.conn c).sock.slavers

/-- Stops watching a backend, unless it is being cleaned up. -/
def leaveEvent (w : Worker) (ns : Option SocketId) : Worker :=
  match ns with
  | some s =>
    if w.inEvent ns then w else { w with ioEvent := w.ioEvent.delIoEvent (w.store.fd s) }
  | none => w

/-- Closes the client's socket, if it is there. -/
def closeClient (w : Worker) (c : ConnId) : Worker :=
  match (w.conn c).sock.curclins with
  | some cns => (w.closeFds cns).updateConn c (·.updateSock ({ · with curclins := none }))
  | none => w

/-- Takes back one allocation of a database to a client, where these are what is counted. -/
def decAlloc (store : Store) (group : Option DataBaseGroup) (db : Option DataBaseId)
    (useConnectNum : DataBaseGroup → Bool) : Option Store :=
  match db with
  | none => some store
  | some db => group.map fun group =>
      if useConnectNum group then store else store.updateDataBase db DataBase.decAllocToFrontConn

/-- The release that `finished_connection` asks for. -/
def releaseBackends (w : Worker) (c : ConnId) (type : ConnFinishType) : Worker :=
  if (w.conn c).protocolBase then
    let r := protocolReleaseBackendConnect ⟨w.store, w.pool⟩ (w.conn c) type
    (w.withSockets r.sk).updateConn c fun _ => r.conn
  else w

/-- `delete con`, once its databases have been told. -/
def deleteConnection (w : Worker) (c : ConnId) : Option Worker := do
  let database := (w.conn c).database
  let store ← decAlloc w.store database.dataBaseGroup database.slaveDataBase
    DataBaseGroup.isSlaveUseDataBaseConnectNumToBalace
  let store ← decAlloc store database.dataBaseGroup database.masterDataBase
    DataBaseGroup.isMasterUseDataBaseConnectNumToBalace
  some { w with store := store, connectList := w.connectList.filter (· ≠ c) }

/-- `finished_connection`. -/
def finishedConnection (w : Worker) (c : ConnId) (type : ConnFinishType) : Option Worker :=
  let sock := (w.conn c).sock
  let servIsInEvent := w.servIsInEvent c
  let w := ((w.closeClient c).leaveEvent sock.masters).leaveEvent sock.slavers
  if servIsInEvent then some w else (w.releaseBackends c type).deleteConnection c

/-- Closes and destroys one backend of a connection. -/
def closeBackend (w : Worker) (c : ConnId) (slot : BackendSlot) : Worker :=
  match (w.conn c).sock.backend slot with
  | some s => (w.closeFds s).updateConn c (·.updateSock (·.setBackend slot none))
  | none => w

/-- The branch of `get_serverFailed` that will try again, in ten seconds. -/
def retryLater (w : Worker) (c : ConnId) : Worker :=
  let w := (w.closeBackend c .masters).closeBackend c .slavers
  let w := w.updateConn c ({ · with protocolBase := false })
  { w with timers := w.timers ++ [c] }

/-- `get_serverFailed`, in front of what is left to do. -/
def getServerFailed (times : Nat) (w : Worker) (c : ConnId) (rest : List Frame) :
    Option Worker := do
  let cns ← (w.conn c).sock.curclins
  let failed := (w.store.object cns).connServerFailed + 1
  let w := { w with store := w.store.update cns ({ · with connServerFailed := failed }) }
  if failed ≥ times then some { w with frames := .finishedConnection c .err :: rest }
  else some { w.retryLater c with frames := rest }

/-- `alloc_server`, as `handle_readFrontData` calls it. -/
def allocServer (w : Worker) (c : ConnId) (result : ConnectResult) (rest : List Frame) :
    Option Worker :=
  match (w.conn c).sock.curservs with
  | some _ => some { w with frames := .sendData c (sendChecks false) :: rest }
  | none => do
    if (w.conn c).protocolBase = false then none
    let chosen := protocolChooseDatabase (w.conn c)
    let (ret, sk, conn) ← protocolGetBackendConnect ⟨w.store, w.pool⟩ (w.conn c) result
    let ns ← conn.sock.curservs
    let w := (w.withSockets sk).updateConn c fun _ => conn
    let w :=
      if chosen.sock.curservs = none then { w with obtained := w.obtained ++ [(c, ns)] }
      else w
    if ret ≠ 0 then some { w with frames := .getServerFailed c :: .allocFailed c :: rest }
    else some { w with
      ioEvent := w.ioEvent.addIoEventRead (w.store.fd ns) .rwBackendData c
      frames := .sendData c (sendChecks false) :: rest }

/-- `get_databaseFromGroup`: the first active databases of the group. -/
def getDatabaseFromGroup (store : Store) (group : DataBaseGroup) (database : ConnDB) : ConnDB :=
  let active := fun db => (store.dataBase db).isActive
  let master := (group.dbMasterGroupVec.find? active).or database.masterDataBase
  if master.isNone then database
  else { database with
    masterDataBase := master
    slaveDataBase := (group.dbSlaveGroupVec.find? active).or database.slaveDataBase
    currentDataBase := master }

/-- What `parse_frontDataPacket` does first for a connection that has no protocol. -/
def attach (w : Worker) (c : ConnId) (group : Option (DataBaseGroup × Bool)) (rest : List Frame) :
    Worker :=
  match group with
  | none => { w with frames := .finishedConnection c .err :: rest }
  | some (_, false) =>
    let w := w.updateConn c fun conn =>
      { conn with database := { conn.database with dataBaseGroup := none } }
    { w with frames := .finishedConnection c .err :: rest }
  | some (group, true) =>
    let database := getDatabaseFromGroup w.store group
      { (w.conn c).database with dataBaseGroup := some group }
    let w := w.updateConn c fun conn => { conn with database := database, protocolBase := true }
    if database.masterDataBase = none then { w with frames := .finishedConnection c .err :: rest }
    else { w with frames := .protocolFront c :: rest }

/-- Something a protocol does. -/
def act (w : Worker) (c : ConnId) : ProtocolAct → Option Worker
  | .chooseDatabase => some (w.updateConn c protocolChooseDatabase)
  | .useMasterServer => some (w.updateConn c (·.updateSock SocketSet.useMasterServer))
  | .useSlaverServer => some (w.updateConn c (·.updateSock SocketSet.useSlaverServer))
  | .setStatus slot status => do
    let ns ← (w.conn c).sock.backend slot
    some { w with store := w.store.update ns ({ · with status := status }) }
  | .addConnArgs slot key value => do
    let ns ← (w.conn c).sock.at slot
    some { w with store := w.store.update ns fun ns => ns.addConnArgs key value }
  | .setConnStatus status => some (w.updateConn c ({ · with status := status }))
  | .setType type =>
    some (w.updateConn c fun conn => { conn with record := { conn.record with type := type } })

/-- Watches a socket for input, if it is there. -/
def watchRead (w : Worker) (ns : Option SocketId) (fp : IoCallback) (c : ConnId) : Worker :=
  match ns with
  | some s => { w with ioEvent := w.ioEvent.addIoEventRead (w.store.fd s) fp c }
  | none => w

/-- Stops watching a socket, if it is there. -/
def unwatch (w : Worker) (ns : Option SocketId) : Worker :=
  match ns with
  | some s => { w with ioEvent := w.ioEvent.delIoEvent (w.store.fd s) }
  | none => w

/-- The socket on one side of a connection: the client's, or the backend in use. -/
def side (w : Worker) (c : ConnId) (front : Bool) : Option SocketId :=
  if front then (w.conn c).sock.curclins else (w.conn c).sock.curservs

/-- The callback for events of the socket on one side. -/
def callback (isFront : Bool) : IoCallback := if isFront then .rwFrontData else .rwBackendData

/-- What `write_data` does to the registrations, and what is done after it. -/
def writeData (w : Worker) (c : ConnId) (isFront : Bool) (flushed : Bool) (outcome : WriteOutcome)
    (checks : List SendCheck) (rest : List Frame) : Option Worker := do
  let desSocket ← w.side c isFront
  let sSocket := w.side c !isFront
  match outcome with
  | .nothing => some { w with frames := .sendData c checks :: rest }
  | .again =>
    let w := if flushed then w.watchRead sSocket (callback !isFront) c else w
    let w := { w with
      ioEvent := w.ioEvent.addIoEventWrite (w.store.fd desSocket) (callback isFront) c }
    some { w.unwatch sSocket with frames := .sendData c checks :: rest }
  | .error =>
    let w := if flushed then w.watchRead sSocket (callback !isFront) c else w
    some { w with frames := .finishedConnection c .err :: rest }
  | .finished =>
    let w := if flushed then w.watchRead sSocket (callback !isFront) c else w
    some { w.watchRead (some desSocket) (callback isFront) c with
      frames := .sendData c checks :: rest }

/-- The next step of the handler that is running, given what it needs to know. -/
def frameStep (times : Nat) (w : Worker) (rest : List Frame) : Frame → WorkerLabel → Option Worker
  | .handleReadFrontData c, .read result =>
    if (w.conn c).sock.curclins = none then some { w with frames := rest }
    else match result with
      | .error => some { w with frames := .finishedConnection c .err :: rest }
      | .closed => some { w with frames := .finishedConnection c .frontClose :: rest }
      | .empty => some { w with frames := rest }
      | .data => some { w with frames := .parseFrontDataPacket c :: rest }
  | .parseFrontDataPacket c, .go =>
    if (w.conn c).protocolBase then some { w with frames := .protocolFront c :: rest } else none
  | .parseFrontDataPacket c, .attach group =>
    if (w.conn c).protocolBase then none else some (w.attach c group rest)
  | .protocolFront c, .act act => w.act c act
  | .protocolFront c, .parsed result remain =>
    match result with
    | .failedClose => some { w with frames := .finishedConnection c .err :: rest }
    | .normalClose => some { w with frames := .finishedConnection c .normal :: rest }
    | .ok =>
      if remain then some { w with frames := .allocServer c :: rest }
      else some { w with frames := .sendData c (sendChecks false) :: rest }
  | .allocServer c, .connect result => w.allocServer c result rest
  | .getServerFailed c, .go => w.getServerFailed times c rest
  | .allocFailed c, .go => do
    let _ ← (w.conn c).sock.curclins
    some { w with frames := rest }
  | .sendData _ [], .go => some { w with frames := rest }
  | .sendData c (check :: checks), .remain remain =>
    if (w.side c check.client).isSome ∧ remain then
      some { w with frames := .writeData c check.isFront checks :: rest }
    else some { w with frames := .sendData c checks :: rest }
  | .writeData c isFront checks, .write flushed outcome =>
    w.writeData c isFront flushed outcome checks rest
  | .handleReadBackendData c, .read result =>
    if (w.conn c).sock.curservs = none then some { w with frames := rest }
    else match result with
      | .error | .closed => some { w with frames := .finishedConnection c .err :: rest }
      | .empty => some { w with frames := rest }
      | .data =>
        if (w.conn c).protocolBase then
          some { w with frames := .protocolBackend c :: rest }
        else none
  | .protocolBackend c, .act act => w.act c act
  | .protocolBackend c, .parsed result _ =>
    match result with
    | .failedClose => some { w with frames := .finishedConnection c .err :: rest }
    | .normalClose => some { w with frames := .finishedConnection c .normal :: rest }
    | .ok => some { w with frames := .sendData c (sendChecks true) :: rest }
  | .finishedConnection c type, .go => ({ w with frames := rest }).finishedConnection c type
  | _, _ => none

/-- The next event, when no handler is running. -/
def eventStep (w : Worker) : WorkerLabel → Option Worker
  | .addTask address port fd => w.addTask address port fd
  | .ready fd => do
    let info ← w.ioEvent fd
    some { w with frames := [handler info] }
  | .retryFailedConnection c =>
    if c ∈ w.timers then
      some { w with timers := w.timers.erase c, frames := [.handleReadFrontData c] }
    else none
  | .checkConnectionTimeout c =>
    if c ∈ w.connectList ∧ (w.conn c).sock.curclins.isSome then
      some { w with frames := [.finishedConnection c .err] }
    else none
  | _ => none

/-- One step of the thread, or a check of the pool by another; a deleted connection stops it. -/
def step (times : Nat) (w : Worker) (label : WorkerLabel) : Option Worker :=
  match label with
  | .checkConnectActive before after active =>
    let (store, pool) := w.pool.checkConnectActive w.store before after active
    some { w with store := store, pool := pool }
  | label =>
    match w.frames with
    | [] => w.eventStep label
    | frame :: rest =>
      if frame.conn ∈ w.connectList then w.frameStep times rest frame label else none

end Worker

/-- All runs of a thread, given how often a client's request is tried. -/
def workerSystem (times : Nat) : System Worker WorkerLabel :=
  .ofStep (fun w => ∃ dataBase now, w = .initial dataBase now) (Worker.step times)

end OneProxy
