import OneProxy.Lib.Ledger
import OneProxy.Stats.Record

/-! The counters of the statistics, the events that are recorded, and what each event counts. -/

namespace OneProxy.Record

/-- The sums of connections that are shown. -/
inductive SumCounter
  | client
  | current
  | handing
  | wait
  | close
  deriving DecidableEq

/-- The sum under its name. -/
def SumCounter.of (record : Record) : SumCounter → UInt64
  | client => record.sumClientConn
  | current => record.sumCurrentClientConn
  | handing => record.sumHandingClientConn
  | wait => record.sumWaitClientConn
  | close => record.sumCloseClientConn

/-- The counters of a lock. -/
inductive LockCounter
  | lock
  | unlock
  deriving DecidableEq

/-- The counter under its name. -/
def LockCounter.of (info : RecordMutex) : LockCounter → UInt64
  | lock => info.lockNum
  | unlock => info.unlockNum

/-- The counters of a thread. -/
inductive ThreadCounter
  | all
  | handing
  | finished
  | fail
  | wait
  deriving DecidableEq

/-- The counter under its name. -/
def ThreadCounter.of (info : ThreadInfo) : ThreadCounter → UInt64
  | all => info.sumAllClientConn
  | handing => info.sumHandingClientConn
  | finished => info.sumFinishedClientConn
  | fail => info.sumFailClientConn
  | wait => info.sumWaitClientConn

/-- The counters of the monitor's visitors. -/
inductive HttpCounter
  | connect
  | requestPage
  | current
  deriving DecidableEq

/-- The counter under its name. -/
def HttpCounter.of (http : HttpServerRecord) : HttpCounter → UInt64
  | connect => http.clientConnectNum
  | requestPage => http.clientRequestPageNum
  | current => http.clientCurrentConnectNum

/-- The counters of a client. -/
inductive ClientCounter
  | connect
  | serverFail
  | query
  | queryFail
  | trx
  | select
  | insert
  | update
  | delete
  | onLineTime
  | upData
  | downData
  | sqlSize
  deriving DecidableEq

/-- The counter under its name. -/
def ClientCounter.of (part : ClientQueryInfoPart) : ClientCounter → UInt64
  | connect => part.connectNum
  | serverFail => part.connServerFail
  | query => part.queryNum
  | queryFail => part.queryFailNum
  | trx => part.trxNum
  | select => part.selectNum
  | insert => part.insertNum
  | update => part.updateNum
  | delete => part.deleteNum
  | onLineTime => part.onLineTime
  | upData => part.upDataSize
  | downData => part.downDataSize
  | sqlSize => part.sqlSize

/-- The counters of a statement. -/
inductive SqlCounter
  | exec
  | trans
  | fail
  | execTime
  | totalRow
  | recvSize
  deriving DecidableEq

/-- The counter under its name. -/
def SqlCounter.of (part : SqlInfoPart) : SqlCounter → UInt64
  | exec => part.exec
  | trans => part.trans
  | fail => part.fail
  | execTime => part.execTime
  | totalRow => part.totalRow
  | recvSize => part.recvSize

/-- The counters of a transaction. -/
inductive TransCounter
  | exec
  | totalTime
  | rollbackTimes
  deriving DecidableEq

/-- The counter under its name. -/
def TransCounter.of (part : TransInfoPart) : TransCounter → UInt64
  | exec => part.exec
  | totalTime => part.totalTime
  | rollbackTimes => part.rollbackTimes

/-- Every counter of the statistics, with the entry it belongs to. -/
inductive Counter
  | sum (counter : SumCounter)
  | lock (name : Bytes) (counter : LockCounter)
  | thread (threadId : UInt64) (counter : ThreadCounter)
  | http (counter : HttpCounter)
  | page (pageUrl : Bytes)
  | client (hashCode : UInt32) (counter : ClientCounter)
  | sql (hashCode : UInt32) (counter : SqlCounter)
  | trans (transHashCode : UInt32) (counter : TransCounter)
  | login (hashCode : UInt32)
  deriving DecidableEq

/-- What a counter stands at; an entry that is not there counts nothing. -/
def read (record : Record) : Counter → UInt64
  | .sum counter => counter.of record
  | .lock name counter => record.recordMutexMap.figure (LockCounter.of · counter) name
  | .thread threadId counter => record.threadInfoMap.figure (ThreadCounter.of · counter) threadId
  | .http counter => counter.of record.httpServerRecord
  | .page pageUrl => record.httpRequestPageCount.figure id pageUrl
  | .client hashCode counter =>
    record.clientQueryMap.figure (fun info => counter.of info.part) hashCode
  | .sql hashCode counter => record.sqlInfoMap.figure (fun info => counter.of info.part) hashCode
  | .trans hashCode counter =>
    record.transInfoMap.figure (fun info => counter.of info.part) hashCode
  | .login hashCode => record.clientUserAppMap.figure (fun info => info.part.loginTimes) hashCode

/-- What is recorded: a call of one of the functions of `Record`. -/
inductive Event
  | lock (name : Bytes)
  | unlock (name : Bytes)
  | acceptClientConn
  | startHandingConn
  | closeClientConn
  | clientConn2GlobalQueue
  | outGlobalQueue
  | threadRecvConn (threadId : UInt64)
  | threadStartHandingConn (threadId : UInt64)
  | threadFinishedConn (threadId : UInt64)
  | threadFailConn (threadId : UInt64)
  | httpServerClientConnect
  | httpServerRequest
  | httpServerClientCloseConnect
  | httpServerRequestPage (pageUrl : Bytes)
  | clientQueryRecvSize (env : Env) (conn : Conn) (hashCode size : UInt32)
      (clientInfo : Option UInt32)
  | clientQuerySendSize (env : Env) (conn : Conn) (hashCode size : UInt32)
      (clientInfo : Option UInt32)
  | clientQueryAddSql (env : Env) (conn : Conn) (clientInfo : Option UInt32)
  | clientQueryExec (sqlHashCode clientAddressHashCode : UInt32) (clientInfo : Option UInt32)
  | clientQueryExecFail (conn : Conn) (clientInfo : Option UInt32)
  | clientQueryOnLineTime (hashCode : UInt32) (time : UInt64) (clientInfo : Option UInt32)
  | clientQueryOffLine (hashCode : UInt32) (clientInfo : Option UInt32)
  | clientQueryAllocServerFail (hashCode : UInt32) (clientInfo : Option UInt32)
  | clientQueryAddNewClient (env : Env) (connHashCode hashCode : UInt32) (caddress : Bytes)
      (cport : UInt32) (saddress : Bytes) (sport : UInt32)
  | sqlInfoRecvSize (env : Env) (conn : Conn) (hashCode size : UInt32) (sqlInfo : Option UInt32)
  | sqlInfoAddSql (env : Env) (conn : Conn)
  | sqlInfoExec (hashCode : UInt32) (sqlInfo : Option UInt32)
  | sqlInfoExecTran (env : Env) (conn : Conn) (hashCode : UInt32) (sqlInfo : Option UInt32)
  | sqlInfoRecvResult (env : Env) (conn : Conn) (rows : UInt32) (sqlInfo : Option UInt32)
  | sqlInfoExecFail (env : Env) (conn : Conn) (sqlInfo : Option UInt32)
  | transInfoEndTrans (env : Env) (transHashCode : UInt32) (conn : Conn) (endTime : UInt64)
  | clientUserAppInfoAdd (hostName userName appName : Bytes) (hashCode : UInt32)
  | clientUserAppInfoAddSql (hashCode sqlHashCode : UInt32)

namespace Event

/-- The statistics after an event; only a failing `at` leaves none. -/
def apply (record : Record) : Event → Option Record
  | lock name => some (record.recordLock name)
  | unlock name => some (record.recordUnlock name)
  | acceptClientConn => some record.recordAcceptClientConn
  | startHandingConn => some record.recordStartHandingConn
  | closeClientConn => some record.recordCloseClientConn
  | clientConn2GlobalQueue => some record.recordClientConn2GlobalQueue
  | outGlobalQueue => some record.recordOutGlobalQueue
  | threadRecvConn threadId => some (record.recordThreadRecvConn threadId)
  | threadStartHandingConn threadId => some (record.recordThreadStartHandingConn threadId)
  | threadFinishedConn threadId => some (record.recordThreadFinishedConn threadId)
  | threadFailConn threadId => some (record.recordThreadFailConn threadId)
  | httpServerClientConnect => some record.recordHttpServerClientConnect
  | httpServerRequest => some record.recordHttpServerRequest
  | httpServerClientCloseConnect => some record.recordHttpServerClientCloseConnect
  | httpServerRequestPage pageUrl => some (record.recordHttpServerRequestPage pageUrl)
  | clientQueryRecvSize env conn hashCode size clientInfo =>
    some (record.recordClientQueryRecvSize env conn hashCode size clientInfo).1
  | clientQuerySendSize env conn hashCode size clientInfo =>
    some (record.recordClientQuerySendSize env conn hashCode size clientInfo).1
  | clientQueryAddSql env conn clientInfo =>
    some (record.recordClientQueryAddSql env conn clientInfo).1
  | clientQueryExec sqlHashCode clientAddressHashCode clientInfo =>
    some (record.recordClientQueryExec sqlHashCode clientAddressHashCode clientInfo)
  | clientQueryExecFail conn clientInfo => some (record.recordClientQueryExecFail conn clientInfo)
  | clientQueryOnLineTime hashCode time clientInfo =>
    some (record.recordClientQueryOnLineTime hashCode time clientInfo)
  | clientQueryOffLine hashCode clientInfo =>
    some (record.recordClientQueryOffLine hashCode clientInfo)
  | clientQueryAllocServerFail hashCode clientInfo =>
    some (record.recordClientQueryAllocServerFail hashCode clientInfo)
  | clientQueryAddNewClient env connHashCode hashCode caddress cport saddress sport =>
    some (record.recordClientQueryAddNewClient env connHashCode hashCode caddress cport saddress
      sport).1
  | sqlInfoRecvSize env conn hashCode size sqlInfo =>
    some (record.recordSqlInfoRecvSize env conn hashCode size sqlInfo).1
  | sqlInfoAddSql env conn => (record.recordSqlInfoAddSql env conn).map (·.1)
  | sqlInfoExec hashCode sqlInfo => some (record.recordSqlInfoExec hashCode sqlInfo)
  | sqlInfoExecTran env conn hashCode sqlInfo =>
    some (record.recordSqlInfoExecTran env conn hashCode sqlInfo).1
  | sqlInfoRecvResult env conn rows sqlInfo =>
    some (record.recordSqlInfoRecvResult env conn rows sqlInfo).1
  | sqlInfoExecFail env conn sqlInfo => some (record.recordSqlInfoExecFail env conn sqlInfo).1
  | transInfoEndTrans env transHashCode conn endTime =>
    some (record.recordTransInfoEndTrans env transHashCode conn endTime).1
  | clientUserAppInfoAdd hostName userName appName hashCode =>
    some (record.recordClientUserAppInfoAdd hostName userName appName hashCode)
  | clientUserAppInfoAddSql hashCode sqlHashCode =>
    some (record.recordClientUserAppInfoAddSql hashCode sqlHashCode)

end Event

/-- What is counted of a client, if its entry is there. -/
def clientCounts (record : Record) (hashCode : UInt32) (clientInfo : Option UInt32)
    (figures : List (ClientCounter × UInt64)) : List (Counter × UInt64) :=
  match record.clientTarget hashCode clientInfo with
  | some key =>
    if (record.clientQueryMap key).isSome then Ledger.tagged (Counter.client key) figures else []
  | none => []

/-- What is counted of a statement, if its entry is there. -/
def sqlCounts (record : Record) (hashCode : UInt32) (sqlInfo : Option UInt32)
    (figures : List (SqlCounter × UInt64)) : List (Counter × UInt64) :=
  match record.sqlTarget hashCode sqlInfo with
  | some key =>
    if (record.sqlInfoMap key).isSome then Ledger.tagged (Counter.sql key) figures else []
  | none => []

/-- The counter of a kind of statement. -/
def kindCounts (type : UInt32) : List (ClientCounter × UInt64) :=
  if type = SqlOp.select.code then [(.select, 1)]
  else if type = SqlOp.insert.code then [(.insert, 1)]
  else if type = SqlOp.update.code then [(.update, 1)]
  else if type = SqlOp.delete.code then [(.delete, 1)]
  else []

/-- What an event counts: a number of events one by one, a size or a time as its amount. -/
def Event.counts (record : Record) : Event → List (Counter × UInt64)
  | lock name => if name.length > 0 then [(.lock name .lock, 1)] else []
  | unlock name => if name.length > 0 then [(.lock name .unlock, 1)] else []
  | acceptClientConn => [(.sum .client, 1), (.sum .current, 1), (.sum .wait, 1)]
  | startHandingConn => [(.sum .handing, 1), (.sum .wait, -1)]
  | closeClientConn => [(.sum .close, 1), (.sum .handing, -1), (.sum .current, -1)]
  | clientConn2GlobalQueue => []
  | outGlobalQueue => []
  | threadRecvConn threadId => [(.thread threadId .wait, 1), (.thread threadId .all, 1)]
  | threadStartHandingConn threadId =>
    [(.thread threadId .wait, -1), (.thread threadId .handing, 1)]
  | threadFinishedConn threadId =>
    [(.thread threadId .handing, -1), (.thread threadId .finished, 1)]
  | threadFailConn threadId => [(.thread threadId .fail, 1)]
  | httpServerClientConnect => [(.http .connect, 1), (.http .current, 1)]
  | httpServerRequest => [(.http .requestPage, 1)]
  | httpServerClientCloseConnect => [(.http .current, -1)]
  | httpServerRequestPage pageUrl => [(.page pageUrl, 1)]
  | clientQueryRecvSize _ _ hashCode size clientInfo =>
    clientCounts record hashCode clientInfo [(.downData, size.toUInt64)]
  | clientQuerySendSize _ _ hashCode size clientInfo =>
    clientCounts record hashCode clientInfo [(.upData, size.toUInt64)]
  | clientQueryAddSql _ _ _ => []
  | clientQueryExec sqlHashCode clientAddressHashCode clientInfo =>
    match record.sqlInfoMap sqlHashCode with
    | some sqlInfo =>
      clientCounts record clientAddressHashCode clientInfo
        ((.query, 1) :: kindCounts sqlInfo.part.type)
    | none => []
  | clientQueryExecFail conn clientInfo =>
    clientCounts record conn.addressHashCode clientInfo [(.queryFail, 1)]
  | clientQueryOnLineTime hashCode time clientInfo =>
    clientCounts record hashCode clientInfo [(.onLineTime, time)]
  | clientQueryOffLine _ _ => []
  | clientQueryAllocServerFail hashCode clientInfo =>
    clientCounts record hashCode clientInfo [(.serverFail, 1)]
  | clientQueryAddNewClient _ _ hashCode _ _ _ _ => [(.client hashCode .connect, 1)]
  | sqlInfoRecvSize _ _ hashCode size sqlInfo =>
    sqlCounts record hashCode sqlInfo [(.recvSize, size.toUInt64)]
  | sqlInfoAddSql _ _ => []
  | sqlInfoExec hashCode sqlInfo => sqlCounts record hashCode sqlInfo [(.exec, 1)]
  | sqlInfoExecTran _ _ hashCode sqlInfo => sqlCounts record hashCode sqlInfo [(.trans, 1)]
  | sqlInfoRecvResult env conn rows sqlInfo =>
    sqlCounts record conn.record.sqlInfo.sqlHashCode sqlInfo
      [(.execTime, env.millisecondTime - conn.record.startQueryTime),
        (.totalRow, resultRows conn rows)]
  | sqlInfoExecFail env conn sqlInfo =>
    sqlCounts record conn.record.sqlInfo.sqlHashCode sqlInfo
      [(.execTime, env.millisecondTime - conn.record.startQueryTime), (.fail, 1)]
  | transInfoEndTrans env transHashCode conn _ =>
    [(.trans transHashCode .exec, 1),
      (.trans transHashCode .totalTime, env.millisecondTime - conn.record.transStartTime),
      (.trans transHashCode .rollbackTimes, if conn.record.rollback then 1 else 0)]
  | clientUserAppInfoAdd _ _ _ hashCode => [(.login hashCode, 1)]
  | clientUserAppInfoAddSql _ _ => []

end OneProxy.Record
