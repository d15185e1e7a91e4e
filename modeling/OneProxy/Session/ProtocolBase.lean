import OneProxy.Session.Connection

/-! What `ProtocolBase` does with the backend sockets of a connection: choose, create, release. -/

namespace OneProxy

open ConnectionPool

/-- All socket objects, and the pool. -/
structure Sockets where
  store : Store
  pool : ConnectionPool

/-- `add_socketToPool`: a created socket comes to the pool in use. -/
def addSocketToPool (sk : Sockets) (ns : SocketId) : Sockets :=
  { sk with pool := sk.pool.saveBackendConnect sk.store ns true true true }

/-- `set_oldSocketToPool`. -/
def setOldSocketToPool (sk : Sockets) (ns : SocketId) : Int × Sockets :=
  let (ret, pool) := sk.pool.setBackendConnect sk.store ns
  (ret, { sk with pool := pool })

/-- `protocol_chooseDatabase`: the database of the next statement, and the backend for it. -/
def protocolChooseDatabase (conn : Connection) : Connection :=
  let database := conn.database
  let current :=
    match database.dataBaseGroup with
    | some group =>
      if group.readSlave then
        if conn.record.type = .simpleQuerySelect ∧ database.slaveDataBase.isSome then
          database.slaveDataBase
        else database.masterDataBase
      else database.masterDataBase
    | none => database.masterDataBase
  { conn with
    database := { database with currentDataBase := current }
    sock := { conn.sock with
      curservs := if current = database.masterDataBase then conn.sock.masters
        else conn.sock.slavers } }

/--
How an attempt to connect to a backend ends: the new descriptor, and whether the login succeeded.
-/
inductive ConnectResult
  | refused
  | connected (fd : UInt32) (initialized : Bool)
  deriving DecidableEq

/-- Records a socket as the backend of the current database. -/
def recordBackend (conn : Connection) (ns : SocketId) : Connection :=
  if conn.database.currentDataBase = conn.database.masterDataBase then
    conn.updateSock fun sock => { sock with masters := some ns }
  else if conn.database.currentDataBase = conn.database.slaveDataBase then
    conn.updateSock fun sock => { sock with slavers := some ns }
  else conn

/--
The second half of `protocol_createBackendConnect`: a new socket is made and connected.

It is the connection's current backend from the start, whatever fails afterwards.
-/
def createSocket (sk : Sockets) (conn : Connection) (curdb : DataBaseId) (result : ConnectResult) :
    Option (Int × Sockets × Connection) :=
  let db := sk.store.dataBase curdb
  let ns := sk.store.made
  let store := sk.store.alloc (.new db.addr db.port)
  let conn := conn.updateSock fun sock => { sock with curservs := some ns }
  if db.connectNum ≥ db.connectNumLimit then some (-1, { sk with store := store }, conn)
  else
    match result with
    | .refused => some (-1, { sk with store := store }, conn)
    | .connected fd initialized =>
      if ¬ store.FreshFd fd then none
      else
        let store := store.update ns fun ns => { ns with fd := fd }
        if initialized = false then some (-1, { sk with store := store }, conn)
        else
          let store := store.update ns fun ns => { ns with dataBase := some curdb }
          let store := store.updateDataBase curdb DataBase.incConnectionNum
          let sk := { sk with store := store }
          let sk := if conn.usesPool then addSocketToPool sk ns else sk
          some (0, sk, recordBackend conn ns)

/--
`protocol_createBackendConnect`: a backend from the pool, or else a new one.

It asserts that there is a current database.
-/
def protocolCreateBackendConnect (sk : Sockets) (conn : Connection) (result : ConnectResult) :
    Option (Int × Sockets × Connection) := do
  let curdb ← conn.database.currentDataBase
  match conn.sock.curservs with
  | some _ => some (0, sk, conn)
  | none =>
    if conn.usesPool then
      let db := sk.store.dataBase curdb
      let connArgs := match conn.sock.curclins with
        | some cns => (sk.store.object cns).connArgsMap2String
        | none => []
      let (ns, pool) := sk.pool.getBackendConnect sk.store db.addr db.port connArgs
      let sk := { sk with pool := pool }
      let conn := conn.updateSock fun sock => { sock with curservs := ns }
      match ns with
      | some ns => some (0, sk, recordBackend conn ns)
      | none => createSocket sk conn curdb result
    else createSocket sk conn curdb result

/-- `protocol_getBackendConnect`. -/
def protocolGetBackendConnect (sk : Sockets) (conn : Connection) (result : ConnectResult) :
    Option (Int × Sockets × Connection) :=
  protocolCreateBackendConnect sk (protocolChooseDatabase conn) result

/-- A release in progress, with the sockets returned to the pool and those released so far. -/
structure Release where
  sk : Sockets
  conn : Connection
  type : ConnFinishType
  /-- The backends that `set_backendConnect` took, in order. -/
  returned : List BackendSlot
  /-- The backends given to `release_backendSocket`, in order. -/
  released : List BackendSlot

namespace Release

/-- Returns one backend to the pool, or finds that it has to be released. -/
def giveBack (r : Release) (slot : BackendSlot) : Release :=
  match r.conn.sock.backend slot with
  | none => { r with conn := r.conn.updateSock (·.setBackend slot none) }
  | some ns =>
    let (ret, sk) := setOldSocketToPool r.sk ns
    if ret ≠ 0 then { r with sk := sk, type := .err }
    else { r with
      sk := sk, conn := r.conn.updateSock (·.setBackend slot none), returned :=
        r.returned ++ [slot] }

/-- Has the pool destroy one backend. -/
def letGo (r : Release) (slot : BackendSlot) : Release :=
  match r.conn.sock.backend slot with
  | none => r
  | some ns =>
    let (store, pool) := r.sk.pool.releaseBackendSocket r.sk.store ns
    { r with sk := ⟨store, pool⟩, released := r.released ++ [slot] }

/-- Destroys one backend that is not the pool's. -/
def destroy (r : Release) (slot : BackendSlot) : Release :=
  match r.conn.sock.backend slot with
  | none => r
  | some ns => { r with sk := { r.sk with store := r.sk.store.delete ns } }

end Release

/-- How a connection is taken to end, given its status and its transaction. -/
def releaseType (conn : Connection) (type : ConnFinishType) : ConnFinishType :=
  let type := if conn.status = .error then .err else type
  if conn.record.type.inTrans then .err else type

/-- `protocol_releaseBackendConnect`. -/
def protocolReleaseBackendConnect (sk : Sockets) (conn : Connection) (type : ConnFinishType) :
    Release :=
  let r : Release := ⟨sk, conn, type, [], []⟩
  let r :=
    if conn.usesPool then
      let r := { r with type := releaseType conn type }
      let r := if r.type ≠ .err then (r.giveBack .masters).giveBack .slavers else r
      if r.type = .err then (r.letGo .masters).letGo .slavers else r
    else (r.destroy .masters).destroy .slavers
  { r with conn := r.conn.updateSock fun sock => { sock with masters := none, slavers := none } }

end OneProxy
