import OneProxy.Session.ProtocolBase

/-! The statistics of statements: what `ProtocolBase` records while a connection is served. -/

namespace OneProxy

namespace Stats

/-- `SqlInfoPart`: the figures of one statement. -/
structure SqlInfoPart where
  hashCode : UInt32
  tabs : UInt32
  exec : Nat
  trans : Nat
  fail : Nat
  execTime : UInt64
  totalRow : Nat
  recvSize : Nat
  type : UInt32

/-- `SqlInfo`: an entry of the statistics. -/
structure SqlInfo where
  part : SqlInfoPart
  sqlText : Bytes
  tableSet : Finset Bytes

/-- An entry as `operator[]` makes it. -/
def SqlInfo.new : SqlInfo := ⟨⟨0, 0, 0, 0, 0, 0, 0, 0, 0⟩, [], ∅⟩

/-- `sqlInfoMap`. -/
abbrev SqlInfoMap := UInt32 → Option SqlInfo

/-- Changes the figures of an entry, if there is one. -/
def SqlInfoMap.update (sqlInfoMap : SqlInfoMap) (hashCode : UInt32)
    (f : SqlInfoPart → SqlInfoPart) : SqlInfoMap :=
  Function.update sqlInfoMap hashCode
    ((sqlInfoMap hashCode).map fun sqlInfo => { sqlInfo with part := f sqlInfo.part })

end Stats

open Stats

/-- What `SqlParser` says of a statement that it has parsed. -/
structure ParsedSql where
  /-- `toPatternQuery`. -/
  sqlText : Bytes
  queryType : UInt32
  tables : List Bytes
  isStartTrans : Bool
  isCommit : Bool
  isRollBack : Bool

/-- The statistics, and the connection whose statements are recorded. -/
structure Recording where
  sqlInfoMap : SqlInfoMap
  conn : Connection

namespace Recording

/-- Changes what the connection is doing. -/
def updateRecord (r : Recording) (f : DoingRecord → DoingRecord) : Recording :=
  { r with conn := { r.conn with record := f r.conn.record } }

/-- Changes the current statement. -/
def updateSqlInfo (r : Recording) (f : OneProxy.SqlInfo → OneProxy.SqlInfo) : Recording :=
  r.updateRecord fun record => { record with sqlInfo := f record.sqlInfo }

/-- The hash of the current statement. -/
def hash (r : Recording) : UInt32 := r.conn.record.sqlInfo.sqlHashCode

/-- The entry that a figure goes to: the one pointed to, or else the one found under the hash. -/
def target (r : Recording) : Option UInt32 :=
  match r.conn.sqlInfo with
  | some pointer => some pointer
  | none => if (r.sqlInfoMap r.hash).isSome then some r.hash else none

/-- Changes the figures of the target. -/
def count (r : Recording) (f : SqlInfoPart → SqlInfoPart) : Recording :=
  match r.target with
  | none => r
  | some hashCode => { r with sqlInfoMap := r.sqlInfoMap.update hashCode f }

/-- `parse_sql`, given what the parser says of the statement, if it can be parsed. -/
def parseSql (r : Recording) (parsed : Option ParsedSql) : Int × Recording :=
  match parsed with
  | none => (-1, r)
  | some parsed =>
    let r := r.updateSqlInfo fun sqlInfo => { sqlInfo with
      sqlText := parsed.sqlText
      queryType := parsed.queryType
      tableCount := UInt32.ofNat parsed.tables.length
      tableNameVec := parsed.tables }
    let type :=
      if parsed.isStartTrans then .transBegin
      else if parsed.isCommit then .transCommit
      else if parsed.isRollBack then .transRollback
      else r.conn.record.type
    (0, r.updateRecord fun record => { record with type := type })

/-- `record_sqlInfoAddSql`: the entry is made if it is new, and pointed to from now on. -/
def recordSqlInfoAddSql (r : Recording) : Recording :=
  let sqlInfo := (r.sqlInfoMap r.hash).getD .new
  let current := r.conn.record.sqlInfo
  let sqlInfo :=
    if sqlInfo.part.hashCode = 0 then
      { sqlInfo with
        part := { sqlInfo.part with
          hashCode := r.hash, tabs := current.tableCount, type := current.queryType }
        sqlText := current.sqlText
        tableSet := sqlInfo.tableSet ∪ current.tableNameVec.toFinset }
    else sqlInfo
  { r with
    sqlInfoMap := Function.update r.sqlInfoMap r.hash (some sqlInfo)
    conn := { r.conn with sqlInfo := some r.hash } }

/-- `stat_saveSql`. -/
def statSaveSql (r : Recording) (sqlText : Bytes) : Recording :=
  (r.updateSqlInfo fun sqlInfo => { sqlInfo with
    sqlText := sqlText, sqlHashCode := Tool.quickHashCode sqlText }).recordSqlInfoAddSql

/-- The types under which `stat_executeSql` takes a statement to be part of a transaction. -/
def countsTrans (type : QueryType) : Prop :=
  QueryType.transQuery.code ≤ type.code ∧ type.code < QueryType.transSum.code

instance (type : QueryType) : Decidable (countsTrans type) :=
  inferInstanceAs (Decidable (QueryType.transQuery.code ≤ type.code ∧
    type.code < QueryType.transSum.code))

/-- `record_sqlInfoExec`. -/
def recordSqlInfoExec (r : Recording) : Recording :=
  r.count fun part => { part with exec := part.exec + 1 }

/-- `record_sqlInfoExecTran`. -/
def recordSqlInfoExecTran (r : Recording) : Recording :=
  r.count fun part => { part with trans := part.trans + 1 }

/-- The rows that `record_sqlInfoRecvResult` adds. -/
def resultRows (r : Recording) (rows : UInt32) : Nat :=
  if r.conn.record.totalRow ≠ rows.toUInt64 ∧ rows ≠ 0 then rows.toNat
  else r.conn.record.totalRow.toNat

/-- `record_sqlInfoRecvResult`. -/
def recordSqlInfoRecvResult (r : Recording) (now : UInt64) (rows : UInt32) : Recording :=
  r.count fun part => { part with
    execTime := part.execTime + (now - r.conn.record.startQueryTime)
    totalRow := part.totalRow + r.resultRows rows }

/-- `record_sqlInfoExecFail`. -/
def recordSqlInfoExecFail (r : Recording) (now : UInt64) : Recording :=
  r.count fun part => { part with
    execTime := part.execTime + (now - r.conn.record.startQueryTime)
    fail := part.fail + 1 }

/-- `record_sqlInfoRecvSize`. -/
def recordSqlInfoRecvSize (r : Recording) (size : Nat) : Recording :=
  r.count fun part => { part with recvSize := part.recvSize + size }

/-- The beginning of `stat_executeSql`, at a time of the global clock. -/
def startQuery (r : Recording) (now : UInt64) : Recording :=
  r.updateRecord fun record => { record with startQueryTime := now, totalRow := 0 }

/-- `stat_executeSql` of the current statement. -/
def statExecuteSql (r : Recording) (now : UInt64) : Recording :=
  let r := r.startQuery now
  if r.hash ≤ 0 then r
  else
    let r := r.recordSqlInfoExec
    if countsTrans r.conn.record.type then
      let r := r.updateRecord fun record => { record with sqlSet := insert r.hash record.sqlSet }
      r.recordSqlInfoExecTran
    else r

/-- `stat_parseSql`. -/
def statParseSql (r : Recording) (sqlText : Bytes) (parsed : Option ParsedSql) : Int × Recording :=
  if sqlText.length = 0 then (0, r)
  else
    let (ret, r) := r.parseSql parsed
    if ret ≠ 0 then (-1, r) else (0, r.statSaveSql r.conn.record.sqlInfo.sqlText)

/-- `stat_parseAndStatSql`. -/
def statParseAndStatSql (r : Recording) (now : UInt64) (parsed : Option ParsedSql) :
    Int × Recording :=
  let r := r.updateSqlInfo fun sqlInfo => { sqlInfo with sqlText := [] }
  let (ret, r) := r.parseSql parsed
  if ret ≠ 0 then (-1, r)
  else (0, (r.statSaveSql r.conn.record.sqlInfo.sqlText).statExecuteSql now)

/-- `stat_preparedSql`: the hash comes from the handle, while the pointer stays where it was. -/
def statPreparedSql (r : Recording) (now : UInt64) (preparedHandle : UInt32) : Int × Recording :=
  match r.conn.preparedCursorManager.getBackendHandleBasePrepared preparedHandle with
  | none => (-1, r)
  | some backendHandle =>
    let r := r.updateSqlInfo fun sqlInfo => { sqlInfo with sqlHashCode := backendHandle.hashCode }
    if r.hash ≤ 0 then (-1, r)
    else
      let r := match r.sqlInfoMap r.hash with
        | some sqlInfo => r.updateSqlInfo fun current => { current with sqlText := sqlInfo.sqlText }
        | none => r
      (0, r.statExecuteSql now)

/-- `stat_startTrans`. -/
def statStartTrans (r : Recording) : Recording :=
  r.updateRecord fun record => { record with
    transStartTime := record.startQueryTime
    sqlSet := insert record.sqlInfo.sqlHashCode record.sqlSet
    type := .transQuery }

/-- `stat_endTrans`; the statistics of transactions are kept elsewhere. -/
def statEndTrans (r : Recording) (isRollBack : Bool) : Recording :=
  r.updateRecord fun record => { record with
    rollback := record.rollback || isRollBack
    sqlSet := ∅
    type := .init }

/-- `stat_recvOneRow`. -/
def statRecvOneRow (r : Recording) : Recording :=
  r.updateRecord fun record => { record with totalRow := record.totalRow + 1 }

/-- `stat_recvFinishedRow`. -/
def statRecvFinishedRow (r : Recording) (now : UInt64) (rows : UInt32) : Recording :=
  (r.recordSqlInfoRecvResult now rows).updateRecord fun record => { record with totalRow := 0 }

/-- `stat_executeErr`. -/
def statExecuteErr (r : Recording) (now : UInt64) : Recording := r.recordSqlInfoExecFail now

/-- `stat_readBackendData`, given the number of bytes received from the backend if there is one. -/
def statReadBackendData (r : Recording) (received : Option Nat) : Recording :=
  match received with
  | none => r
  | some size => r.recordSqlInfoRecvSize size

end Recording

/-- What a protocol reports while it serves a connection. -/
inductive StatCall
  | parseSql (parsed : Option ParsedSql)
  | statParseSql (sqlText : Bytes) (parsed : Option ParsedSql)
  | statParseAndStatSql (parsed : Option ParsedSql)
  | statPreparedSql (preparedHandle : UInt32)
  | statStartTrans
  | statEndTrans (isRollBack : Bool)
  | statRecvOneRow
  | statRecvFinishedRow (rows : UInt32)
  | statExecuteErr
  | statReadBackendData (received : Option Nat)
  /-- The protocol sets the status of the connection. -/
  | setStatus (status : ConnExecStatus)
  /-- The protocol adds handles to the connection's manager, or removes some. -/
  | setHandles (manager : HandleManager)

/-- What a call leaves behind, at a time of the global clock. -/
def StatCall.run (call : StatCall) (now : UInt64) (r : Recording) : Recording :=
  match call with
  | parseSql parsed => (r.parseSql parsed).2
  | statParseSql sqlText parsed => (r.statParseSql sqlText parsed).2
  | statParseAndStatSql parsed => (r.statParseAndStatSql now parsed).2
  | statPreparedSql preparedHandle => (r.statPreparedSql now preparedHandle).2
  | statStartTrans => r.statStartTrans
  | statEndTrans isRollBack => r.statEndTrans isRollBack
  | statRecvOneRow => r.statRecvOneRow
  | statRecvFinishedRow rows => r.statRecvFinishedRow now rows
  | statExecuteErr => r.statExecuteErr now
  | statReadBackendData received => r.statReadBackendData received
  | setStatus status => { r with conn := { r.conn with status := status } }
  | setHandles manager => { r with conn := { r.conn with preparedCursorManager := manager } }

end OneProxy
