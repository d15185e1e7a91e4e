import OneProxy.Pool.Store

/-! The pool of backend connections: idle ones by login, used ones by descriptor. -/

namespace OneProxy

/-- What the pool knows of a socket. -/
structure SockInfo where
  socket : SocketId
  /-- There is a function to destroy the socket with. -/
  freeSocket : Bool
  /-- There is a function to check the socket with. -/
  activeFunc : Bool
  startUseTime : UInt64

/-- `~SockInfo`: destroys the socket. -/
def SockInfo.delete (store : Store) (si : SockInfo) : Store :=
  if si.freeSocket then store.delete si.socket else store

/-- What an idle connection is looked up by. -/
structure ConnPoolKey where
  dbAddr : Bytes
  port : UInt32
  otherIdentify : Bytes

namespace ConnPoolKey

/-- The key printed as `address:port:arguments`. -/
def render (key : ConnPoolKey) : Bytes :=
  Tool.cStr key.dbAddr ++ [58] ++ Tool.decimal key.port ++ [58] ++ Tool.cStr key.otherIdentify

/-- `gen_keyHashCode`. -/
def keyHashCode (key : ConnPoolKey) : UInt32 := Tool.quickHashCode key.render

/-- The key a socket is returned to the pool under. -/
def ofSocket (ns : NetworkSocket) : ConnPoolKey := ⟨ns.address, ns.port, ns.connArgsMap2String⟩

end ConnPoolKey

/-- The idle sockets, by the hash of their key: `operator<` of the keys compares nothing else. -/
structure ConnectionPool where
  idleSock : Std.TreeMap UInt32 (List SockInfo)
  usedSock : Std.TreeMap UInt32 SockInfo
  idleTimeoutCheck : UInt64
  idleTimeoutRelease : UInt64
  currentTime : UInt64
  checkActive : Bool

namespace ConnectionPool

/-- The pool as its constructor leaves it. -/
def new (now : UInt64) : ConnectionPool where
  idleSock := ∅
  usedSock := ∅
  idleTimeoutCheck := 1000
  idleTimeoutRelease := 60000
  currentTime := now
  checkActive := false

/-- `get_backendConnect`: the idle socket that was returned last under an equal key. -/
def getBackendConnect (pool : ConnectionPool) (store : Store) (dbAddr : Bytes) (port : UInt32)
    (connArgs : Bytes) : Option SocketId × ConnectionPool :=
  if pool.idleSock.size ≤ 0 then (none, pool)
  else
    let key : ConnPoolKey := ⟨dbAddr, port, connArgs⟩
    match pool.idleSock[key.keyHashCode]? with
    | none => (none, pool)
    | some sis =>
      match sis.getLast? with
      | none => (none, pool)
      | some si =>
        (some si.socket, { pool with
          idleSock := pool.idleSock.insert key.keyHashCode sis.dropLast
          usedSock := pool.usedSock.insert (store.fd si.socket)
            { si with startUseTime := pool.currentTime } })

/-- `set_backendConnect`: the entry found under the socket's descriptor becomes idle. -/
def setBackendConnect (pool : ConnectionPool) (store : Store) (socket : SocketId) :
    Int × ConnectionPool :=
  if pool.usedSock.size ≤ 0 then (-1, pool)
  else
    match pool.usedSock[store.fd socket]? with
    | none => (-1, pool)
    | some si =>
      let key := ConnPoolKey.ofSocket (store.object socket)
      (0, { pool with
        idleSock := pool.idleSock.alter key.keyHashCode fun sid =>
          some (sid.getD [] ++ [{ si with startUseTime := pool.currentTime }])
        usedSock := pool.usedSock.erase (store.fd socket) })

/-- `save_backendConnect`: a newly created socket comes to the pool, in use or idle. -/
def saveBackendConnect (pool : ConnectionPool) (store : Store) (socket : SocketId)
    (freeSocket activeFunc isUsing : Bool) : ConnectionPool :=
  let sockInfo : SockInfo := ⟨socket, freeSocket, activeFunc, 0⟩
  if isUsing then
    let sockInfo := { sockInfo with startUseTime := pool.currentTime }
    { pool with usedSock := pool.usedSock.insert (store.fd socket) sockInfo }
  else
    let key := ConnPoolKey.ofSocket (store.object socket)
    { pool with
      idleSock := pool.idleSock.alter key.keyHashCode fun sid => some (sockInfo :: sid.getD []) }

/-- `release_backendSocket`: the entry found under the socket's descriptor is destroyed. -/
def releaseBackendSocket (pool : ConnectionPool) (store : Store) (socket : SocketId) :
    Store × ConnectionPool :=
  if pool.usedSock.size ≤ 0 then (store, pool)
  else
    match pool.usedSock[store.fd socket]? with
    | none => (store, pool)
    | some si => (si.delete store, { pool with usedSock := pool.usedSock.erase (store.fd socket) })

/--
The walk of `check_connectActive` over one deque: the entries it keeps and those it destroys.

It ends at the first entry that was used recently, as all behind it are taken to be.
-/
def sweep (pool : ConnectionPool) (active : SocketId → Bool) :
    List SockInfo → List SockInfo × List SockInfo
  | [] => ([], [])
  | si :: rest =>
    if pool.currentTime - si.startUseTime ≤ pool.idleTimeoutCheck then (si :: rest, [])
    else
      let (kept, dropped) := sweep pool active rest
      if pool.currentTime - si.startUseTime > pool.idleTimeoutRelease then (kept, si :: dropped)
      else if si.activeFunc = false ∨ pool.checkActive = false then (si :: kept, dropped)
      else if active si.socket = false then (kept, si :: dropped)
      else (si :: kept, dropped)

/-- `check_connectActive`, with the time before and after it and the sockets that still answer. -/
def checkConnectActive (pool : ConnectionPool) (store : Store) (before after : UInt64)
    (active : SocketId → Bool) : Store × ConnectionPool :=
  let pool := { pool with currentTime := before }
  let dropped := pool.idleSock.toList.flatMap fun (_, sid) => (pool.sweep active sid).2
  (dropped.foldl SockInfo.delete store,
    { pool with
      idleSock := pool.idleSock.map fun _ sid => (pool.sweep active sid).1
      currentTime := after })

end ConnectionPool

end OneProxy
