import OneProxy.Session.ProtocolBase

/-! What choosing a database and creating a backend for it can do. -/

namespace OneProxy

open ConnectionPool

section Choose

variable (conn : Connection)

/-- The chosen database is the master or the slave. -/
theorem chosen_current : (protocolChooseDatabase conn).database.currentDataBase =
      conn.database.masterDataBase ∨
    (protocolChooseDatabase conn).database.currentDataBase = conn.database.slaveDataBase := by
  unfold protocolChooseDatabase
  dsimp only
  split
  · split
    · split
      · exact .inr rfl
      · exact .inl rfl
    · exact .inl rfl
  · exact .inl rfl

/-- The kind of backend that the chosen database asks for. -/
def chosenSlot : BackendSlot :=
  if (protocolChooseDatabase conn).database.currentDataBase =
    conn.database.masterDataBase then .masters
  else .slavers

/-- The current backend is then the one of that kind. -/
theorem chosen_curservs :
    (protocolChooseDatabase conn).sock.curservs = conn.sock.backend (chosenSlot conn) := by
  unfold chosenSlot
  split
  · next isMaster => exact if_pos isMaster
  · next isSlave => exact if_neg isSlave

/-- Choosing changes no slot. -/
theorem chosen_at (slot : Slot) : (protocolChooseDatabase conn).sock.at slot =
      conn.sock.at slot := by
  cases slot with
  | client => rfl
  | backend slot => cases slot <;> rfl

/-- A backend is recorded as one of the chosen kind. -/
theorem recordBackend_chosen (after : Connection)
    (database : after.database = (protocolChooseDatabase conn).database) (ns : SocketId) :
    recordBackend after ns = after.updateSock (·.setBackend (chosenSlot conn) (some ns)) := by
  have master : after.database.masterDataBase =
    conn.database.masterDataBase := by rw [database]; rfl
  have slave : after.database.slaveDataBase = conn.database.slaveDataBase := by rw [database]; rfl
  unfold recordBackend chosenSlot
  rw [master, slave, database]
  by_cases isMaster : (protocolChooseDatabase conn).database.currentDataBase =
      conn.database.masterDataBase
  · rw [if_pos isMaster, if_pos isMaster]
    rfl
  · rw [if_neg isMaster, if_neg isMaster, if_pos ((chosen_current conn).resolve_left isMaster)]
    rfl

end Choose

/-- The connection with a socket as its current backend. -/
def withCurrent (conn : Connection) (ns : SocketId) : Connection :=
  conn.updateSock fun sock => { sock with curservs := some ns }

/-- Making a socket fails with a new socket left over, or makes one that is open and recorded. -/
theorem createSocket_cases {sk after : Sockets} {conn conn' : Connection} {curdb : DataBaseId}
    {result : ConnectResult} {ret : Int} (sound : sk.store.Sound)
    (done : createSocket sk conn curdb result = some (ret, after, conn')) :
    Store.OneMore sk.store after.store ∧
      ((ret = -1 ∧ after.pool = sk.pool ∧ conn' = withCurrent conn sk.store.made) ∨
        (ret = 0 ∧ after.store.fd sk.store.made ≠ 0 ∧
          after.pool = (if conn.usesPool then
            sk.pool.saveBackendConnect after.store sk.store.made true true true else sk.pool) ∧
          conn' = recordBackend (withCurrent conn sk.store.made) sk.store.made)) := by
  have alloc : Store.OneMore sk.store (sk.store.alloc
      (.new (sk.store.dataBase curdb).addr (sk.store.dataBase curdb).port)) :=
    Store.oneMore_alloc sound rfl
  unfold createSocket at done
  dsimp only at done
  split at done
  · cases done
    exact ⟨alloc, .inl ⟨rfl, rfl, rfl⟩⟩
  · split at done
    · cases done
      exact ⟨alloc, .inl ⟨rfl, rfl, rfl⟩⟩
    · next fd initialized =>
      split at done
      · cases done
      · next isFresh =>
        have fresh := not_not.mp isFresh
        have opened := alloc.open fresh
        split at done
        · cases done
          exact ⟨opened, .inl ⟨rfl, rfl, rfl⟩⟩
        · cases done
          -- The database is told of the connection, and the pool where it is used.
          have told := (opened.update sk.store.made
            (f := fun ns => { ns with dataBase := some curdb }) (fun _ => rfl)).updateDataBase curdb
              DataBase.incConnectionNum
          refine ⟨?_, .inr ⟨rfl, ?_, ?_, rfl⟩⟩
          · split
            · exact told
            · exact told
          · have open_ : (((sk.store.alloc (.new (sk.store.dataBase curdb).addr
                (sk.store.dataBase curdb).port)).update sk.store.made
                  fun ns => { ns with fd := fd }).update sk.store.made
                    fun ns => { ns with dataBase := some curdb }).fd sk.store.made ≠ 0 := by
              rw [Store.fd, Store.update_object_self, Store.update_object_self]
              exact fresh.1
            split
            · exact open_
            · exact open_
          · split
            · next pooled => exact (if_pos pooled).symm
            · next unpooled => exact (if_neg unpooled).symm

/-- What `protocol_getBackendConnect` does: nothing, or a backend from the pool, or a new socket. -/
inductive GetBackend (sk : Sockets) (conn : Connection) (result : ConnectResult) :
    Int → Sockets → Connection → Prop
  | current {ns : SocketId} (has : conn.sock.backend (chosenSlot conn) = some ns) :
      GetBackend sk conn result 0 sk (protocolChooseDatabase conn)
  | pooled {ns : SocketId} {pool : ConnectionPool} {dbAddr : Bytes} {port : UInt32}
    {connArgs : Bytes}
      (vacant : conn.sock.backend (chosenSlot conn) = none) (uses : conn.usesPool = true)
      (got : sk.pool.getBackendConnect sk.store dbAddr port connArgs = (some ns, pool)) :
      GetBackend sk conn result 0 { sk with pool := pool }
        ((withCurrent (protocolChooseDatabase conn) ns).updateSock
          (·.setBackend (chosenSlot conn) (some ns)))
  | failed {after : Sockets} (vacant : conn.sock.backend (chosenSlot conn) = none)
      (more : Store.OneMore sk.store after.store) (pool : after.pool = sk.pool) :
      GetBackend sk conn result (-1) after (withCurrent (protocolChooseDatabase conn) sk.store.made)
  | created {after : Sockets} (vacant : conn.sock.backend (chosenSlot conn) = none)
      (more : Store.OneMore sk.store after.store) (opened : after.store.fd sk.store.made ≠ 0)
      (pool : after.pool = if conn.usesPool then
        sk.pool.saveBackendConnect after.store sk.store.made true true true else sk.pool) :
      GetBackend sk conn result 0 after
        ((withCurrent (protocolChooseDatabase conn) sk.store.made).updateSock
          (·.setBackend (chosenSlot conn) (some sk.store.made)))

/-- Making a socket, as `protocol_createBackendConnect` comes to it. -/
theorem getBackend_of_createSocket {sk after : Sockets} {conn conn' : Connection}
    {curdb : DataBaseId}
    {result : ConnectResult} {ret : Int} (sound : sk.store.Sound)
    (vacant : conn.sock.backend (chosenSlot conn) = none)
    (done : createSocket sk (protocolChooseDatabase conn) curdb result = some (ret, after, conn')) :
    GetBackend sk conn result ret after conn' := by
  obtain ⟨more, ⟨rfl, pool, rfl⟩ | ⟨rfl, opened, pool, rfl⟩⟩ := createSocket_cases sound done
  · exact .failed vacant more pool
  · rw [recordBackend_chosen conn (withCurrent _ _) rfl]
    exact .created vacant more opened pool

/-- `protocol_getBackendConnect` does one of these. -/
theorem getBackendConnect_cases {sk after : Sockets} {conn conn' : Connection}
    {result : ConnectResult} {ret : Int} (sound : sk.store.Sound)
    (done : protocolGetBackendConnect sk conn result = some (ret, after, conn')) :
    GetBackend sk conn result ret after conn' := by
  have uses : (protocolChooseDatabase conn).usesPool = conn.usesPool := rfl
  simp only [protocolGetBackendConnect, protocolCreateBackendConnect, Option.bind_eq_bind,
    Option.bind_eq_some_iff] at done
  obtain ⟨curdb, -, done⟩ := done
  rw [chosen_curservs] at done
  cases has : conn.sock.backend (chosenSlot conn) with
  | some ns =>
    rw [has] at done
    cases done
    exact .current has
  | none =>
    rw [has] at done
    dsimp only at done
    rw [uses] at done
    split at done
    · next isPooled =>
      generalize got : sk.pool.getBackendConnect sk.store _ _ _ = answer at done
      obtain ⟨ns, pool⟩ := answer
      cases ns with
      | some ns =>
        cases done
        show GetBackend sk conn result 0 _
          (recordBackend (withCurrent (protocolChooseDatabase conn) ns) ns)
        rw [recordBackend_chosen conn (withCurrent (protocolChooseDatabase conn) ns) rfl]
        exact .pooled has isPooled got
      | none =>
        -- A pool that has nothing stays as it is, and so does the connection.
        have same : pool = sk.pool := by
          rcases ConnectionPool.getBackendConnect_cases sk.pool sk.store _ _ _ with ⟨nothing, -⟩ |
            ⟨front, si, after, given, -⟩
          · rw [got] at nothing
            exact (Prod.mk.inj nothing).2
          · rw [got] at given
            cases given
        subst same
        have unchanged : (protocolChooseDatabase conn).updateSock (fun sock =>
            { sock with curservs := none }) = protocolChooseDatabase conn := by
          have vacant := (chosen_curservs conn).trans has
          exact congrArg (fun curservs => (protocolChooseDatabase conn).updateSock
            (fun sock => { sock with curservs := curservs })) vacant.symm
        rw [unchanged] at done
        exact getBackend_of_createSocket sound has done
    · exact getBackend_of_createSocket sound has done

end OneProxy
