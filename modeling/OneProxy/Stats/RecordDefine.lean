import Mathlib.Data.Finset.Basic
import Mathlib.Data.Finset.SDiff
import Mathlib.Data.UInt
import OneProxy.Util.StringBuf

/-!
The entries of the statistics: what they hold, how they are cleared and how they are subtracted.
-/

namespace OneProxy.Record

/-- `Record_Mutex`: how often a lock was taken and given back. -/
structure RecordMutex where
  lockNum : UInt64
  unlockNum : UInt64
  deriving DecidableEq

namespace RecordMutex

/-- An entry as `operator[]` makes it. -/
def new : RecordMutex := ⟨0, 0⟩

/-- `clear`. -/
def clear (_ : RecordMutex) : RecordMutex := ⟨0, 0⟩

/-- `operator-`. -/
def sub (info a : RecordMutex) : RecordMutex where
  lockNum := info.lockNum - a.lockNum
  unlockNum := info.unlockNum - a.unlockNum

end RecordMutex

/-- `Thread_Info`: the connections of a worker. -/
structure ThreadInfo where
  sumAllClientConn : UInt64
  sumHandingClientConn : UInt64
  sumFinishedClientConn : UInt64
  sumFailClientConn : UInt64
  sumWaitClientConn : UInt64
  threadId : UInt64
  deriving DecidableEq

namespace ThreadInfo

/-- An entry as `operator[]` makes it. -/
def new : ThreadInfo := ⟨0, 0, 0, 0, 0, 0⟩

/-- `clear`: the thread keeps its id. -/
def clear (info : ThreadInfo) : ThreadInfo := ⟨0, 0, 0, 0, 0, info.threadId⟩

/-- `operator-`. -/
def sub (info a : ThreadInfo) : ThreadInfo where
  sumAllClientConn := info.sumAllClientConn - a.sumAllClientConn
  sumHandingClientConn := info.sumHandingClientConn - a.sumHandingClientConn
  sumFinishedClientConn := info.sumFinishedClientConn - a.sumFinishedClientConn
  sumFailClientConn := info.sumFailClientConn - a.sumFailClientConn
  sumWaitClientConn := info.sumWaitClientConn - a.sumWaitClientConn
  threadId := info.threadId

end ThreadInfo

/-- `HttpServerRecord`: the visitors of the monitor's pages. -/
structure HttpServerRecord where
  clientConnectNum : UInt64
  clientRequestPageNum : UInt64
  clientCurrentConnectNum : UInt64
  deriving DecidableEq

namespace HttpServerRecord

/-- The constructor. -/
def new : HttpServerRecord := ⟨0, 0, 0⟩

/-- `clear`. -/
def clear (_ : HttpServerRecord) : HttpServerRecord := ⟨0, 0, 0⟩

/-- `operator-`. -/
def sub (info a : HttpServerRecord) : HttpServerRecord where
  clientConnectNum := info.clientConnectNum - a.clientConnectNum
  clientRequestPageNum := info.clientRequestPageNum - a.clientRequestPageNum
  clientCurrentConnectNum := info.clientCurrentConnectNum - a.clientCurrentConnectNum

end HttpServerRecord

/-- `ClientQueryInfoPart`: the figures of a client. -/
structure ClientQueryInfoPart where
  hashCode : UInt32
  connectNum : UInt64
  connServerFail : UInt64
  queryNum : UInt64
  queryFailNum : UInt64
  trxNum : UInt64
  selectNum : UInt64
  insertNum : UInt64
  updateNum : UInt64
  deleteNum : UInt64
  onLineTime : UInt64
  onLineStatus : Bool
  upDataSize : UInt64
  downDataSize : UInt64
  sqlSize : UInt64
  startConnectTime : UInt64
  deriving DecidableEq

namespace ClientQueryInfoPart

/-- `clear`, all bytes zero. -/
def zero : ClientQueryInfoPart := ⟨0, 0, 0, 0, 0, 0, 0, 0, 0, 0, 0, false, 0, 0, 0, 0⟩

/-- `operator-`. -/
def sub (part a : ClientQueryInfoPart) : ClientQueryInfoPart where
  hashCode := part.hashCode
  connectNum := part.connectNum - a.connectNum
  connServerFail := part.connServerFail - a.connServerFail
  queryNum := part.queryNum - a.queryNum
  queryFailNum := part.queryFailNum - a.queryFailNum
  trxNum := part.trxNum - a.trxNum
  selectNum := part.selectNum - a.selectNum
  insertNum := part.insertNum - a.insertNum
  updateNum := part.updateNum - a.updateNum
  deleteNum := part.deleteNum - a.deleteNum
  onLineTime := part.onLineTime - a.onLineTime
  onLineStatus := part.onLineStatus
  upDataSize := part.upDataSize - a.upDataSize
  downDataSize := part.downDataSize - a.downDataSize
  sqlSize := part.sqlSize - a.sqlSize
  startConnectTime := part.startConnectTime

end ClientQueryInfoPart

/-- `ClientQueryInfo`: a client, and the statements it has run. -/
structure ClientQueryInfo where
  part : ClientQueryInfoPart
  ipAddr : Bytes
  sqlList : Finset UInt32
  failSqlList : Finset UInt32
  latestConnectTime : UInt64
  deriving DecidableEq

namespace ClientQueryInfo

/-- The constructor. -/
def new : ClientQueryInfo := ⟨.zero, [], ∅, ∅, 0⟩

/-- `clear`. -/
def clear (_ : ClientQueryInfo) : ClientQueryInfo := ⟨.zero, [], ∅, ∅, 0⟩

/-- `is_show`. -/
def isShow (info : ClientQueryInfo) : Prop := info.part.hashCode ≠ 0

/-- `operator-`: of the sets, what the older entry lacks. -/
def sub (info a : ClientQueryInfo) : ClientQueryInfo where
  part := info.part.sub a.part
  ipAddr := info.ipAddr
  latestConnectTime := info.latestConnectTime
  sqlList := info.sqlList \ a.sqlList
  failSqlList := info.failSqlList \ a.failSqlList

end ClientQueryInfo

/-- `ClientUserAppInfoPart`. -/
structure ClientUserAppInfoPart where
  loginTimes : UInt64
  /-- Filled in by the page that sorts by it. -/
  sqlcount : UInt64
  deriving DecidableEq

/-- `operator-`. -/
def ClientUserAppInfoPart.sub (part a : ClientUserAppInfoPart) : ClientUserAppInfoPart where
  loginTimes := part.loginTimes - a.loginTimes
  sqlcount := 0

/-- `ClientUserAppInfo`: a user of an application on a host. -/
structure ClientUserAppInfo where
  part : ClientUserAppInfoPart
  hashCode : UInt32
  hostName : Bytes
  userName : Bytes
  appName : Bytes
  sqlList : Finset UInt32
  deriving DecidableEq

namespace ClientUserAppInfo

/-- An entry as `operator[]` makes it. -/
def new : ClientUserAppInfo := ⟨⟨0, 0⟩, 0, [], [], [], ∅⟩

/-- `operator-`. -/
def sub (info a : ClientUserAppInfo) : ClientUserAppInfo where
  sqlList := info.sqlList \ a.sqlList
  part := info.part.sub a.part
  hostName := info.hostName
  userName := info.userName
  appName := info.appName
  hashCode := info.hashCode

end ClientUserAppInfo

/-- `SqlOp`: the kind of a statement. -/
inductive SqlOp
  | init
  | select
  | update
  | insert
  | replace
  | delete
  | commit
  | rollback
  deriving DecidableEq

/-- The number of a kind. -/
def SqlOp.code : SqlOp → UInt32
  | init => 0
  | select => 1
  | update => 2
  | insert => 3
  | replace => 4
  | delete => 5
  | commit => 6
  | rollback => 7

/-- `SqlInfoPart`: the figures of a statement. -/
structure SqlInfoPart where
  hashCode : UInt32
  audit : Int
  tabs : UInt64
  exec : UInt64
  trans : UInt64
  fail : UInt64
  execTime : UInt64
  totalRow : UInt64
  recvSize : UInt64
  type : UInt32
  deriving DecidableEq

namespace SqlInfoPart

/-- `clear`, all bytes zero. -/
def zero : SqlInfoPart := ⟨0, 0, 0, 0, 0, 0, 0, 0, 0, 0⟩

/-- `operator-`. -/
def sub (part a : SqlInfoPart) : SqlInfoPart where
  hashCode := part.hashCode
  audit := part.audit
  tabs := part.tabs
  exec := part.exec - a.exec
  trans := part.trans - a.trans
  fail := part.fail - a.fail
  execTime := part.execTime - a.execTime
  totalRow := part.totalRow - a.totalRow
  recvSize := part.recvSize - a.recvSize
  type := part.type

end SqlInfoPart

/-- `SqlInfo`: a statement, its tables and its clients. -/
structure SqlInfo where
  part : SqlInfoPart
  sqlText : Bytes
  tableSet : Finset Bytes
  clientSet : Finset UInt32
  deriving DecidableEq

namespace SqlInfo

/-- The constructor. -/
def new : SqlInfo := ⟨.zero, [], ∅, ∅⟩

/-- `clear`. -/
def clear (_ : SqlInfo) : SqlInfo := ⟨.zero, [], ∅, ∅⟩

/-- `is_show`. -/
def isShow (info : SqlInfo) : Prop := info.part.hashCode ≠ 0

/-- `operator-`: the sets are copied. -/
def sub (info a : SqlInfo) : SqlInfo where
  part := info.part.sub a.part
  sqlText := info.sqlText
  tableSet := info.tableSet
  clientSet := info.clientSet

end SqlInfo

/-- `TransInfoPart`: the figures of a transaction. -/
structure TransInfoPart where
  transHashCode : UInt32
  exec : UInt64
  totalTime : UInt64
  rollbackTimes : UInt64
  sqlNum : UInt64
  maxTime : UInt64
  minTime : UInt64
  lastTime : UInt64
  deriving DecidableEq

namespace TransInfoPart

/-- `clear`, all bytes zero. -/
def zero : TransInfoPart := ⟨0, 0, 0, 0, 0, 0, 0, 0⟩

/-- `operator-`: the number of statements is subtracted like the counters. -/
def sub (part a : TransInfoPart) : TransInfoPart where
  transHashCode := part.transHashCode
  exec := part.exec - a.exec
  totalTime := part.totalTime - a.totalTime
  rollbackTimes := part.rollbackTimes - a.rollbackTimes
  sqlNum := part.sqlNum - a.sqlNum
  maxTime := part.maxTime
  minTime := part.minTime
  lastTime := part.lastTime

end TransInfoPart

/-- `TransInfo`: a transaction, known by the statements it runs. -/
structure TransInfo where
  part : TransInfoPart
  sqlHashCode : Finset UInt32
  lastTime : UInt64
  deriving DecidableEq

namespace TransInfo

/-- The constructor. -/
def new : TransInfo := ⟨.zero, ∅, 0⟩

/-- `operator-`. -/
def sub (info a : TransInfo) : TransInfo where
  part := info.part.sub a.part
  lastTime := info.lastTime
  sqlHashCode := info.sqlHashCode

end TransInfo

end OneProxy.Record
