import Mathlib
import OneProxy.Pool.PoolInvariant
import OneProxy.Handle.HandleManager

/-! A client connection: its sockets, its databases and what it is executing. -/

namespace OneProxy

/-- `QueryType`, in the order of the source. -/
inductive QueryType
  | init
  | simpleQuery
  | simpleQuerySelect
  | simpleQuerySum
  | transQuery
  | transMgrReqBegin
  | transMgrReqCommit
  | transMgrReqRollback
  | transOn
  | transOff
  | transOnCommit
  | transOnRollback
  | transBegin
  | transCommit
  | transRollback
  | transFinished
  | transSum
  | sum
  deriving DecidableEq

namespace QueryType

/-- The number of a type. -/
def code : QueryType → Nat
  | init => 0
  | simpleQuery => 1
  | simpleQuerySelect => 2
  | simpleQuerySum => 3
  | transQuery => 4
  | transMgrReqBegin => 5
  | transMgrReqCommit => 6
  | transMgrReqRollback => 7
  | transOn => 8
  | transOff => 9
  | transOnCommit => 10
  | transOnRollback => 11
  | transBegin => 12
  | transCommit => 13
  | transRollback => 14
  | transFinished => 15
  | transSum => 16
  | sum => 17

/-- A transaction has begun and is not finished. -/
def inTrans (type : QueryType) : Prop := transQuery.code ≤ type.code ∧
      type.code < transFinished.code

instance (type : QueryType) : Decidable type.inTrans :=
  inferInstanceAs (Decidable (transQuery.code ≤ type.code ∧ type.code < transFinished.code))

end QueryType

/-- `ConnExecStatus`: whether the server has answered with an error. -/
inductive ConnExecStatus
  | normal
  | error
  deriving DecidableEq

/-- `ConnFinishType`: why a connection ends. -/
inductive ConnFinishType
  | normal
  | err
  | frontClose
  deriving DecidableEq

/-- A `DataBaseGroup` of the configuration: the members used here. -/
structure DataBaseGroup where
  readSlave : Bool
  useConnectionPool : Bool
  dbMasterGroupVec : List DataBaseId
  dbSlaveGroupVec : List DataBaseId
  useDatabaseConnectToBalace : Bool
  useMasterAsSalve : Bool
  deriving DecidableEq

namespace DataBaseGroup

/-- `is_masterUseDataBaseConnectNumToBalace`. -/
def isMasterUseDataBaseConnectNumToBalace (group : DataBaseGroup) : Bool :=
  if group.useMasterAsSalve then true else group.useDatabaseConnectToBalace

/-- `is_slaveUseDataBaseConnectNumToBalace`. -/
def isSlaveUseDataBaseConnectNumToBalace (group : DataBaseGroup) : Bool :=
  group.useDatabaseConnectToBalace

end DataBaseGroup

/-- `ConnDB`: the databases of a connection, and the one its next statement goes to. -/
structure ConnDB where
  dataBaseGroup : Option DataBaseGroup
  masterDataBase : Option DataBaseId
  slaveDataBase : Option DataBaseId
  currentDataBase : Option DataBaseId

/-- The two kinds of backends of a connection. -/
inductive BackendSlot
  | masters
  | slavers
  deriving DecidableEq

/-- The sockets a connection holds: the client's, and those of its backends. -/
inductive Slot
  | client
  | backend (slot : BackendSlot)
  deriving DecidableEq

/-- `SocketSet`: the client, the backends, and the backend in use. -/
structure SocketSet where
  curclins : Option SocketId
  masters : Option SocketId
  slavers : Option SocketId
  curservs : Option SocketId

namespace SocketSet

/-- The socket of one kind of backend. -/
def backend (sock : SocketSet) : BackendSlot → Option SocketId
  | .masters => sock.masters
  | .slavers => sock.slavers

/-- The socket in a slot. -/
def «at» (sock : SocketSet) : Slot → Option SocketId
  | .client => sock.curclins
  | .backend slot => sock.backend slot

/-- Stores the socket of one kind of backend. -/
def setBackend (sock : SocketSet) (slot : BackendSlot) (ns : Option SocketId) : SocketSet :=
  match slot with
  | .masters => { sock with masters := ns }
  | .slavers => { sock with slavers := ns }

/-- `use_masterServer`. -/
def useMasterServer (sock : SocketSet) : SocketSet := { sock with curservs := sock.masters }

/-- `use_slaverServer`. -/
def useSlaverServer (sock : SocketSet) : SocketSet := { sock with curservs := sock.slavers }

end SocketSet

/-- The statement a connection is executing. -/
structure SqlInfo where
  sqlHashCode : UInt32
  sqlText : Bytes
  tableCount : UInt32
  queryType : UInt32
  tableNameVec : List Bytes

/-- `DoingRecord`: the statement, its results so far, and the transaction it belongs to. -/
structure DoingRecord where
  sqlInfo : SqlInfo
  startQueryTime : UInt64
  totalRow : UInt64
  sqlSet : Finset UInt32
  transStartTime : UInt64
  rollback : Bool
  type : QueryType

/-- A client's connection. -/
structure Connection where
  sock : SocketSet
  /-- There is a protocol object. -/
  protocolBase : Bool
  database : ConnDB
  record : DoingRecord
  /-- `sessData.sqlInfo`: the statistics entry pointed to, by its key. -/
  sqlInfo : Option UInt32
  /-- `sessData.preparedCursorManager`: the handles of prepared statements and of cursors. -/
  preparedCursorManager : HandleManager
  status : ConnExecStatus

namespace Connection

/-- A connection as its constructor leaves it. -/
def new : Connection where
  sock := ⟨none, none, none, none⟩
  protocolBase := false
  database := ⟨none, none, none, none⟩
  record := ⟨⟨0, [], 0, 0, []⟩, 0, 0, ∅, 0, false, .init⟩
  sqlInfo := none
  preparedCursorManager := .new
  status := .normal

/-- The connection's group uses the pool. -/
def usesPool (conn : Connection) : Bool :=
  match conn.database.dataBaseGroup with
  | some group => group.useConnectionPool
  | none => false

/-- Changes the sockets of a connection. -/
def updateSock (conn : Connection) (f : SocketSet → SocketSet) : Connection :=
  { conn with sock := f conn.sock }

end Connection

end OneProxy
