import Mathlib.Data.Finset.Sort
import OneProxy.Lib.StdMap
import OneProxy.Session.Connection
import OneProxy.Stats.RecordDefine
import OneProxy.Util.Tool

/-! The statistics of the server: the maps of `Record` and the functions that count in them. -/

namespace OneProxy

/-- `Record`: the sums of the connections, and the maps of entries. -/
structure Record where
  sumClientConn : UInt64
  sumCurrentClientConn : UInt64
  sumHandingClientConn : UInt64
  sumWaitClientConn : UInt64
  sumCloseClientConn : UInt64
  sumWaitInGlobalQueue : UInt64
  sqlInfoMap : StdMap UInt32 Record.SqlInfo
  transInfoMap : StdMap UInt32 Record.TransInfo
  threadInfoMap : StdMap UInt64 Record.ThreadInfo
  clientQueryMap : StdMap UInt32 Record.ClientQueryInfo
  recordMutexMap : StdMap Bytes Record.RecordMutex
  httpServerRecord : Record.HttpServerRecord
  httpRequestPageCount : StdMap Bytes UInt64
  clientUserAppMap : StdMap UInt32 Record.ClientUserAppInfo

namespace Record

/-- The constructor. -/
def new : Record where
  sumClientConn := 0
  sumCurrentClientConn := 0
  sumHandingClientConn := 0
  sumWaitClientConn := 0
  sumCloseClientConn := 0
  sumWaitInGlobalQueue := 0
  sqlInfoMap := fun _ => none
  transInfoMap := fun _ => none
  threadInfoMap := fun _ => none
  clientQueryMap := fun _ => none
  recordMutexMap := fun _ => none
  httpServerRecord := .new
  httpRequestPageCount := fun _ => none
  clientUserAppMap := fun _ => none

/-- The members of a connection that only the statistics use. -/
structure Conn extends Connection where
  /-- `sessData.clientInfo`: the entry of the client, by its key. -/
  clientInfo : Option UInt32
  /-- The client's address, kept by its socket. -/
  address : Bytes
  /-- The hash of the client's address, kept by its socket. -/
  addressHashCode : UInt32
  connectionHashcode : UInt32
  currExecSqlHash : UInt32

/-- What the configuration and the clocks say during a call. -/
structure Env where
  /-- `get_statsUserDB`: events are saved to the database. -/
  statsUserDB : Bool
  /-- `get_globalMillisecondTime`. -/
  millisecondTime : UInt64
  /-- `SystemApi::system_time`. -/
  systemTime : UInt64

/-- `ClientInfoT`. -/
structure ClientInfoT where
  connHashCode : UInt32
  clientIp : Bytes
  cport : UInt32
  serverIp : Bytes
  sport : UInt32
  hashcode : UInt32
  startConnectTime : UInt64
  sendSize : UInt64
  recvSize : UInt64

/-- `ClientSqlRetS`. -/
structure ClientSqlRetS where
  connHashcode : UInt32
  sqlHashcode : UInt32
  sqlexecHashcode : UInt32

/-- `SqlInfoS`. -/
structure SqlInfoS where
  connHashCode : UInt32
  sqlExecHashCode : UInt32
  sqlHashCode : UInt32
  sql : Bytes
  tabCnt : UInt64
  queryType : UInt32
  execTime : UInt64
  tabNameVec : List Bytes

/-- `SqlExecS`. -/
structure SqlExecS where
  sqlExecHashCode : UInt32
  connHashCode : UInt32
  recvSize : UInt32
  fail : UInt32
  inTrans : UInt32
  rowNum : UInt32

/-- `TransInfoS`. -/
structure TransInfoS where
  connHashCode : UInt32
  transHashCode : UInt32
  startTime : UInt64
  endTime : UInt64
  sqlVec : List UInt32

/-- `DBDataT`: an event for the database, under its type. -/
inductive DBDataT
  | clientInfo (data : ClientInfoT)
  | clientInfoUpdate (data : ClientInfoT)
  | clientAddSql (data : ClientSqlRetS)
  | clientExecSql (data : SqlInfoS)
  | clientExecSqlUpdateDatasize (data : SqlExecS)
  | clientExecSqlUpdateTrans (data : SqlExecS)
  | clientExecSqlUpdateRownum (data : SqlExecS)
  | clientExecSqlUpdateFail (data : SqlExecS)
  | clientExecTrans (data : TransInfoS)

/-! ## Locks, connections, threads and pages -/

/-- `record_lock`. -/
def recordLock (record : Record) (name : Bytes) : Record :=
  if name.length > 0 then
    { record with recordMutexMap := record.recordMutexMap.upsert .new name fun info =>
        { info with lockNum := info.lockNum + 1 } }
  else record

/-- `record_unlock`. -/
def recordUnlock (record : Record) (name : Bytes) : Record :=
  if name.length > 0 then
    { record with recordMutexMap := record.recordMutexMap.upsert .new name fun info =>
        { info with unlockNum := info.unlockNum + 1 } }
  else record

/-- `record_acceptClientConn`. -/
def recordAcceptClientConn (record : Record) : Record :=
  { record with
    sumClientConn := record.sumClientConn + 1
    sumCurrentClientConn := record.sumCurrentClientConn + 1
    sumWaitClientConn := record.sumWaitClientConn + 1 }

/-- `record_startHandingConn`. -/
def recordStartHandingConn (record : Record) : Record :=
  { record with
    sumHandingClientConn := record.sumHandingClientConn + 1
    sumWaitClientConn := record.sumWaitClientConn - 1 }

/-- `record_closeClientConn`. -/
def recordCloseClientConn (record : Record) : Record :=
  { record with
    sumCloseClientConn := record.sumCloseClientConn + 1
    sumHandingClientConn := record.sumHandingClientConn - 1
    sumCurrentClientConn := record.sumCurrentClientConn - 1 }

/-- `record_clientConn2GlobalQueue`. -/
def recordClientConn2GlobalQueue (record : Record) : Record :=
  { record with sumWaitInGlobalQueue := record.sumWaitInGlobalQueue + 1 }

/-- `record_outGlobalQueue`. -/
def recordOutGlobalQueue (record : Record) : Record :=
  { record with sumWaitInGlobalQueue := record.sumWaitInGlobalQueue - 1 }

/-- Changes the entry of a thread. -/
def updateThread (record : Record) (threadId : UInt64) (f : ThreadInfo → ThreadInfo) : Record :=
  { record with threadInfoMap := record.threadInfoMap.upsert .new threadId f }

/-- `record_threadRecvConn`. -/
def recordThreadRecvConn (record : Record) (threadId : UInt64) : Record :=
  record.updateThread threadId fun info => { info with
    sumWaitClientConn := info.sumWaitClientConn + 1
    sumAllClientConn := info.sumAllClientConn + 1
    threadId := threadId }

/-- `record_threadStartHandingConn`. -/
def recordThreadStartHandingConn (record : Record) (threadId : UInt64) : Record :=
  record.updateThread threadId fun info => { info with
    sumWaitClientConn := info.sumWaitClientConn - 1
    sumHandingClientConn := info.sumHandingClientConn + 1 }

/-- `record_threadFinishedConn`. -/
def recordThreadFinishedConn (record : Record) (threadId : UInt64) : Record :=
  record.updateThread threadId fun info => { info with
    sumHandingClientConn := info.sumHandingClientConn - 1
    sumFinishedClientConn := info.sumFinishedClientConn + 1 }

/-- `record_threadFailConn`. -/
def recordThreadFailConn (record : Record) (threadId : UInt64) : Record :=
  record.updateThread threadId fun info => { info with
    sumFailClientConn := info.sumFailClientConn + 1 }

/-- Changes the figures of the monitor's pages. -/
def updateHttp (record : Record) (f : HttpServerRecord → HttpServerRecord) : Record :=
  { record with httpServerRecord := f record.httpServerRecord }

/-- `record_httpServerClientConnect`. -/
def recordHttpServerClientConnect (record : Record) : Record :=
  record.updateHttp fun http => { http with
    clientConnectNum := http.clientConnectNum + 1
    clientCurrentConnectNum := http.clientCurrentConnectNum + 1 }

/-- `record_httpServerRequestPage`, of any page. -/
def recordHttpServerRequest (record : Record) : Record :=
  record.updateHttp fun http => { http with clientRequestPageNum := http.clientRequestPageNum + 1 }

/-- `record_httpServerClientCloseConnect`. -/
def recordHttpServerClientCloseConnect (record : Record) : Record :=
  record.updateHttp fun http => { http with
    clientCurrentConnectNum := http.clientCurrentConnectNum - 1 }

/-- `record_httpServerRequestPage`, of one page. -/
def recordHttpServerRequestPage (record : Record) (pageUrl : Bytes) : Record :=
  { record with httpRequestPageCount := record.httpRequestPageCount.upsert 0 pageUrl (· + 1) }

/-- `record_clear`: entries are cleared where they are, and stay in their maps. -/
def recordClear (record : Record) : Record :=
  { record with
    sumClientConn := 0
    sumCloseClientConn := 0
    sumCurrentClientConn := 0
    sumHandingClientConn := 0
    sumWaitClientConn := 0
    httpServerRecord := record.httpServerRecord.clear
    httpRequestPageCount := record.httpRequestPageCount.mapValues fun _ => 0
    recordMutexMap := record.recordMutexMap.mapValues RecordMutex.clear
    threadInfoMap := record.threadInfoMap.mapValues ThreadInfo.clear
    clientQueryMap := record.clientQueryMap.mapValues ClientQueryInfo.clear
    sqlInfoMap := record.sqlInfoMap.mapValues SqlInfo.clear }

/-! ## Clients -/

/-- `record_getClientQueryInfo`: a pointer to the entry of a client. -/
def recordGetClientQueryInfo (record : Record) (hashCode : UInt32) : Option UInt32 :=
  if (record.clientQueryMap hashCode).isSome then some hashCode else none

/-- The entry that a figure of a client goes to: the one pointed to, or the one looked up. -/
def clientTarget (record : Record) (hashCode : UInt32) (clientInfo : Option UInt32) :
    Option UInt32 :=
  match clientInfo with
  | some pointer => some pointer
  | none => record.recordGetClientQueryInfo hashCode

/-- Changes the entry of a client. -/
def updateClient (record : Record) (hashCode : UInt32) (clientInfo : Option UInt32)
    (f : ClientQueryInfo → ClientQueryInfo) : Record :=
  { record with
    clientQueryMap := record.clientQueryMap.adjustAt (record.clientTarget hashCode clientInfo) f }

/-- Changes the figures of a client. -/
def countClient (record : Record) (hashCode : UInt32) (clientInfo : Option UInt32)
    (f : ClientQueryInfoPart → ClientQueryInfoPart) : Record :=
  record.updateClient hashCode clientInfo fun info => { info with part := f info.part }

/-- The event of bytes that a connection has moved. -/
def sizeEvent (env : Env) (conn : Conn) (hashCode : UInt32) (sendSize recvSize : UInt64) :
    Option DBDataT :=
  if env.statsUserDB ∧ conn.connectionHashcode > 0 then
    some (.clientInfoUpdate ⟨conn.connectionHashcode, [], 0, [], 0, hashCode, 0,
      sendSize, recvSize⟩)
  else none

/-- `record_clientQueryRecvSize`. -/
def recordClientQueryRecvSize (record : Record) (env : Env) (conn : Conn) (hashCode size : UInt32)
    (clientInfo : Option UInt32) : Record × Option DBDataT :=
  (record.countClient hashCode clientInfo fun part =>
      { part with downDataSize := part.downDataSize + size.toUInt64 },
    sizeEvent env conn hashCode 0 size.toUInt64)

/-- `record_clientQuerySendSize`. -/
def recordClientQuerySendSize (record : Record) (env : Env) (conn : Conn) (hashCode size : UInt32)
    (clientInfo : Option UInt32) : Record × Option DBDataT :=
  (record.countClient hashCode clientInfo fun part =>
      { part with upDataSize := part.upDataSize + size.toUInt64 },
    sizeEvent env conn hashCode size.toUInt64 0)

/-- `record_clientQueryAddSql`. -/
def recordClientQueryAddSql (record : Record) (env : Env) (conn : Conn)
    (clientInfo : Option UInt32) : Record × Option DBDataT :=
  let hash := conn.record.sqlInfo.sqlHashCode
  (record.updateClient conn.addressHashCode clientInfo fun info =>
      { info with sqlList := insert hash info.sqlList },
    if env.statsUserDB ∧ conn.connectionHashcode > 0 ∧ conn.currExecSqlHash > 0 then
      some (.clientAddSql ⟨conn.connectionHashcode, hash, conn.currExecSqlHash⟩)
    else none)

/-- The counter of a kind of statement goes up. -/
def countKind (type : UInt32) (part : ClientQueryInfoPart) : ClientQueryInfoPart :=
  if type = SqlOp.select.code then { part with selectNum := part.selectNum + 1 }
  else if type = SqlOp.insert.code then { part with insertNum := part.insertNum + 1 }
  else if type = SqlOp.update.code then { part with updateNum := part.updateNum + 1 }
  else if type = SqlOp.delete.code then { part with deleteNum := part.deleteNum + 1 }
  else part

/-- `record_clientQueryExec`: nothing is counted of a statement that has no entry. -/
def recordClientQueryExec (record : Record) (sqlHashCode clientAddressHashCode : UInt32)
    (clientInfo : Option UInt32) : Record :=
  match record.sqlInfoMap sqlHashCode with
  | none => record
  | some sqlInfo =>
    record.countClient clientAddressHashCode clientInfo fun part =>
      countKind sqlInfo.part.type { part with queryNum := part.queryNum + 1 }

/-- `record_clientQueryExecFail`. -/
def recordClientQueryExecFail (record : Record) (conn : Conn) (clientInfo : Option UInt32) :
    Record :=
  record.updateClient conn.addressHashCode clientInfo fun info => { info with
    part := { info.part with queryFailNum := info.part.queryFailNum + 1 }
    failSqlList := insert conn.record.sqlInfo.sqlHashCode info.failSqlList }

/-- `record_clientQueryOnLineTime`. -/
def recordClientQueryOnLineTime (record : Record) (hashCode : UInt32) (time : UInt64)
    (clientInfo : Option UInt32) : Record :=
  record.countClient hashCode clientInfo fun part =>
    { part with onLineTime := part.onLineTime + time }

/-- `record_clientQueryOffLine`. -/
def recordClientQueryOffLine (record : Record) (hashCode : UInt32) (clientInfo : Option UInt32) :
    Record :=
  record.countClient hashCode clientInfo fun part => { part with
    onLineStatus := false, startConnectTime := 0 }

/-- `record_clientQueryAllocServerFail`. -/
def recordClientQueryAllocServerFail (record : Record) (hashCode : UInt32)
    (clientInfo : Option UInt32) : Record :=
  record.countClient hashCode clientInfo fun part => { part with
    connServerFail := part.connServerFail + 1 }

/-- `record_clientQueryAddNewClient`. -/
def recordClientQueryAddNewClient (record : Record) (env : Env) (connHashCode hashCode : UInt32)
    (caddress : Bytes) (cport : UInt32) (saddress : Bytes) (sport : UInt32) :
    Record × Option DBDataT :=
  ({ record with clientQueryMap :=
      record.clientQueryMap.upsert .new hashCode fun info => { info with
      part := { info.part with
        hashCode := hashCode
        connectNum := info.part.connectNum + 1
        onLineStatus := true
        startConnectTime := env.millisecondTime }
      ipAddr := caddress
      latestConnectTime := env.systemTime } },
    if ¬ env.statsUserDB ∨ connHashCode ≤ 0 then none
    else some (.clientInfo
      ⟨connHashCode, caddress, cport, saddress, sport, hashCode, env.millisecondTime, 0, 0⟩))

/-! ## Statements -/

/-- `record_getSqlInfo`, and `find_sqlInfo`: a pointer to the entry of a statement. -/
def recordGetSqlInfo (record : Record) (hashCode : UInt32) : Option UInt32 :=
  if (record.sqlInfoMap hashCode).isSome then some hashCode else none

/-- The entry that a figure of a statement goes to: the one pointed to, or the one looked up. -/
def sqlTarget (record : Record) (hashCode : UInt32) (sqlInfo : Option UInt32) : Option UInt32 :=
  match sqlInfo with
  | some pointer => some pointer
  | none => record.recordGetSqlInfo hashCode

/-- Changes the figures of a statement. -/
def countSql (record : Record) (hashCode : UInt32) (sqlInfo : Option UInt32)
    (f : SqlInfoPart → SqlInfoPart) : Record :=
  { record with
    sqlInfoMap := record.sqlInfoMap.adjustAt (record.sqlTarget hashCode sqlInfo) fun info =>
      { info with part := f info.part } }

/-- An event about the statement that a connection executes. -/
def execEvent (env : Env) (conn : Conn) (type : SqlExecS → DBDataT)
    (recvSize fail inTrans rowNum : UInt32) : Option DBDataT :=
  if env.statsUserDB ∧ conn.currExecSqlHash > 0 then
    some (type ⟨conn.currExecSqlHash, conn.connectionHashcode, recvSize, fail, inTrans, rowNum⟩)
  else none

/-- `record_sqlInfoRecvSize`. -/
def recordSqlInfoRecvSize (record : Record) (env : Env) (conn : Conn) (hashCode size : UInt32)
    (sqlInfo : Option UInt32) : Record × Option DBDataT :=
  (record.countSql hashCode sqlInfo fun part =>
      { part with recvSize := part.recvSize + size.toUInt64 },
    execEvent env conn .clientExecSqlUpdateDatasize size 0 0 0)

/-- The first `count` tables; `at` ends the process where there are fewer. -/
def tablesOf (tableNameVec : List Bytes) (count : UInt64) : Option (List Bytes) :=
  if count.toNat ≤ tableNameVec.length then some (tableNameVec.take count.toNat) else none

/-- The hash of one execution of a statement. -/
def sqlExecHashCode (execTime : UInt64) (connHashCode sqlHashCode : UInt32) : UInt32 :=
  Tool.quickHashCode (Tool.digits execTime.toNat ++ Tool.digits connHashCode.toNat ++
    Tool.digits sqlHashCode.toNat)

/-- The entry of a statement once it is saved: one without a hash is filled in. -/
def savedSql (conn : Conn) (info : SqlInfo) : Option SqlInfo :=
  let current := conn.record.sqlInfo
  if info.part.hashCode = 0 then do
    let tabs := current.tableCount.toUInt64
    let tables ← tablesOf current.tableNameVec tabs
    some { info with
      part := { info.part with
        hashCode := current.sqlHashCode, tabs := tabs, type := current.queryType }
      sqlText := current.sqlText
      clientSet := insert conn.addressHashCode info.clientSet
      tableSet := info.tableSet ∪ tables.toFinset }
  else some info

/-- `record_sqlInfoAddSql`: the connection points to the entry from now on. -/
def recordSqlInfoAddSql (record : Record) (env : Env) (conn : Conn) :
    Option (Record × Conn × Option DBDataT) := do
  let hash := conn.record.sqlInfo.sqlHashCode
  let info ← savedSql conn ((record.sqlInfoMap hash).getD .new)
  let record := { record with sqlInfoMap := Function.update record.sqlInfoMap hash (some info) }
  let conn := { conn with sqlInfo := some hash }
  if ¬ env.statsUserDB then some (record, conn, none)
  else
    let tables ← tablesOf conn.record.sqlInfo.tableNameVec info.part.tabs
    let execHash :=
      sqlExecHashCode env.millisecondTime conn.connectionHashcode info.part.hashCode
    let sis : SqlInfoS :=
      ⟨conn.connectionHashcode, execHash, info.part.hashCode, info.sqlText, info.part.tabs,
        info.part.type, env.millisecondTime, tables⟩
    some (record, { conn with currExecSqlHash := execHash }, some (.clientExecSql sis))

/-- `record_sqlInfoExec`. -/
def recordSqlInfoExec (record : Record) (hashCode : UInt32) (sqlInfo : Option UInt32) : Record :=
  record.countSql hashCode sqlInfo fun part => { part with exec := part.exec + 1 }

/-- `record_sqlInfoExecTran`. -/
def recordSqlInfoExecTran (record : Record) (env : Env) (conn : Conn) (hashCode : UInt32)
    (sqlInfo : Option UInt32) : Record × Option DBDataT :=
  (record.countSql hashCode sqlInfo fun part => { part with trans := part.trans + 1 },
    execEvent env conn .clientExecSqlUpdateTrans 0 0 1 0)

/-- The rows that a result adds. -/
def resultRows (conn : Conn) (rows : UInt32) : UInt64 :=
  if conn.record.totalRow ≠ rows.toUInt64 ∧ rows ≠ 0 then rows.toUInt64 else conn.record.totalRow

/-- `record_sqlInfoRecvResult`. -/
def recordSqlInfoRecvResult (record : Record) (env : Env) (conn : Conn) (rows : UInt32)
    (sqlInfo : Option UInt32) : Record × Option DBDataT :=
  let target := record.sqlTarget conn.record.sqlInfo.sqlHashCode sqlInfo
  -- Without an entry the number of rows stays zero.
  let tmpRows := if target.isSome then (resultRows conn rows).toUInt32 else 0
  (record.countSql conn.record.sqlInfo.sqlHashCode sqlInfo fun part => { part with
      execTime := part.execTime + (env.millisecondTime - conn.record.startQueryTime)
      totalRow := part.totalRow + resultRows conn rows },
    execEvent env conn .clientExecSqlUpdateRownum 0 0 0 tmpRows)

/-- `record_sqlInfoExecFail`. -/
def recordSqlInfoExecFail (record : Record) (env : Env) (conn : Conn) (sqlInfo : Option UInt32) :
    Record × Option DBDataT :=
  (record.countSql conn.record.sqlInfo.sqlHashCode sqlInfo fun part => { part with
      execTime := part.execTime + (env.millisecondTime - conn.record.startQueryTime)
      fail := part.fail + 1 },
    execEvent env conn .clientExecSqlUpdateFail 0 1 0 0)

/-! ## Transactions and users -/

/-- The elements of a set in the order of a `std::set`. -/
def ordered (codes : Finset UInt32) : List UInt32 :=
  ((codes.image UInt32.toNat).sort (· ≤ ·)).map UInt32.ofNat

/-- The entry of a transaction after one more run of it, which ended at `finishedTime`. -/
def endedTrans (conn : Conn) (transHashCode : UInt32) (finishedTime : UInt64) (info : TransInfo) :
    TransInfo :=
  let lastTime := finishedTime - conn.record.transStartTime
  { info with
    sqlHashCode := info.sqlHashCode ∪ conn.record.sqlSet
    lastTime := conn.record.transStartTime
    part := { info.part with
      transHashCode := transHashCode
      exec := info.part.exec + 1
      lastTime := lastTime
      maxTime := if lastTime > info.part.maxTime then lastTime else info.part.maxTime
      minTime := if lastTime < info.part.minTime then lastTime else info.part.minTime
      sqlNum := UInt64.ofNat conn.record.sqlSet.card
      totalTime := info.part.totalTime + lastTime
      rollbackTimes := if conn.record.rollback then info.part.rollbackTimes + 1
        else info.part.rollbackTimes } }

/-- `record_transInfoEndTrans`; the clock is read again at the end. -/
def recordTransInfoEndTrans (record : Record) (env : Env) (transHashCode : UInt32) (conn : Conn)
    (endTime : UInt64) : Record × Option DBDataT :=
  ({ record with
      transInfoMap := record.transInfoMap.upsert .new transHashCode
        (endedTrans conn transHashCode env.millisecondTime) },
    if env.statsUserDB ∧ conn.connectionHashcode > 0 then
      some (.clientExecTrans ⟨conn.connectionHashcode, transHashCode, conn.record.transStartTime,
        endTime, ordered conn.record.sqlSet⟩)
    else none)

/-- `record_clientUserAppInfoAdd`. -/
def recordClientUserAppInfoAdd (record : Record) (hostName userName appName : Bytes)
    (hashCode : UInt32) : Record :=
  { record with clientUserAppMap :=
      record.clientUserAppMap.upsert .new hashCode fun info => { info with
      appName := appName
      hostName := hostName
      userName := userName
      part := { info.part with loginTimes := info.part.loginTimes + 1 }
      hashCode := hashCode } }

/-- `record_clientUserAppInfoAddSql`. -/
def recordClientUserAppInfoAddSql (record : Record) (hashCode sqlHashCode : UInt32) : Record :=
  { record with clientUserAppMap :=
      record.clientUserAppMap.upsert .new hashCode fun info => { info with
      sqlList := insert sqlHashCode info.sqlList } }

end Record

end OneProxy
