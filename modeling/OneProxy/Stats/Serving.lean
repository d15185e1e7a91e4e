import OneProxy.Session.Statistics
import OneProxy.Stats.Record

/-!
What a protocol records while it serves a connection: the `stat_` functions of `ProtocolBase`.
-/

namespace OneProxy.Record

/-- The statistics, the connection being served, and the events that the calls have added. -/
structure Serving where
  record : Record
  conn : Conn
  dbData : List DBDataT

namespace Serving

/-- The hash of the current statement. -/
def hash (s : Serving) : UInt32 := s.conn.record.sqlInfo.sqlHashCode

/-- Changes what the connection is doing. -/
def updateDoing (s : Serving) (f : DoingRecord → DoingRecord) : Serving :=
  { s with conn := { s.conn with record := f s.conn.record } }

/-- Changes the current statement. -/
def updateSqlInfo (s : Serving) (f : OneProxy.SqlInfo → OneProxy.SqlInfo) : Serving :=
  s.updateDoing fun doing => { doing with sqlInfo := f doing.sqlInfo }

/-- Keeps what a function of `Record` leaves, and its event. -/
def recorded (s : Serving) (result : Record × Option DBDataT) : Serving :=
  { s with record := result.1, dbData := s.dbData ++ result.2.toList }

/-- `parse_sql`, given what the parser says of the statement, if it can be parsed. -/
def parseSql (s : Serving) (parsed : Option ParsedSql) : Int × Serving :=
  match parsed with
  | none => (-1, s)
  | some parsed =>
    let s := s.updateSqlInfo fun sqlInfo => { sqlInfo with
      sqlText := parsed.sqlText
      queryType := parsed.queryType
      tableCount := UInt32.ofNat parsed.tables.length
      tableNameVec := parsed.tables }
    let type :=
      if parsed.isStartTrans then .transBegin
      else if parsed.isCommit then .transCommit
      else if parsed.isRollBack then .transRollback
      else s.conn.record.type
    (0, s.updateDoing fun doing => { doing with type := type })

/-- `stat_saveSql`. -/
def statSaveSql (s : Serving) (env : Env) (sqlText : Bytes) : Option Serving := do
  let s := s.updateSqlInfo fun sqlInfo => { sqlInfo with
    sqlText := sqlText, sqlHashCode := Tool.quickHashCode sqlText }
  let (record, conn, event) ← s.record.recordSqlInfoAddSql env s.conn
  let s := { s with record := record, conn := conn, dbData := s.dbData ++ event.toList }
  some (s.recorded (s.record.recordClientQueryAddSql env s.conn s.conn.clientInfo))

/-- `stat_executeSql` of the current statement. -/
def statExecuteSql (s : Serving) (env : Env) : Serving :=
  let s := s.updateDoing fun doing => { doing with
    startQueryTime := env.millisecondTime, totalRow := 0 }
  if s.hash ≤ 0 then s
  else
    let s := { s with
      record := s.record.recordClientQueryExec s.hash s.conn.addressHashCode s.conn.clientInfo }
    let s := { s with record := s.record.recordSqlInfoExec s.hash s.conn.sqlInfo }
    if Recording.countsTrans s.conn.record.type then
      let s := s.updateDoing fun doing => { doing with sqlSet := insert s.hash doing.sqlSet }
      s.recorded (s.record.recordSqlInfoExecTran env s.conn s.hash s.conn.sqlInfo)
    else s

/-- `stat_executeSql` of a statement that the parser has rewritten. -/
def statSaveAndExecuteSql (s : Serving) (env : Env) (sqlText : Bytes) : Option Serving :=
  (s.statSaveSql env sqlText).map fun s => s.statExecuteSql env

/-- `stat_parseSql`. -/
def statParseSql (s : Serving) (env : Env) (sqlText : Bytes) (parsed : Option ParsedSql) :
    Option (Int × Serving) :=
  if sqlText.length = 0 then some (0, s)
  else
    let (ret, s) := s.parseSql parsed
    if ret ≠ 0 then some (-1, s)
    else (s.statSaveSql env s.conn.record.sqlInfo.sqlText).map fun s => (0, s)

/-- `stat_parseAndStatSql`. -/
def statParseAndStatSql (s : Serving) (env : Env) (parsed : Option ParsedSql) :
    Option (Int × Serving) :=
  let s := s.updateSqlInfo fun sqlInfo => { sqlInfo with sqlText := [] }
  let (ret, s) := s.parseSql parsed
  if ret ≠ 0 then some (-1, s)
  else (s.statSaveAndExecuteSql env s.conn.record.sqlInfo.sqlText).map fun s => (0, s)

/-- `stat_preparedSql`: the hash comes from the handle, while the pointer stays where it was. -/
def statPreparedSql (s : Serving) (env : Env) (preparedHandle : UInt32) : Int × Serving :=
  match s.conn.preparedCursorManager.getBackendHandleBasePrepared preparedHandle with
  | none => (-1, s)
  | some backendHandle =>
    let s := s.updateSqlInfo fun sqlInfo => { sqlInfo with sqlHashCode := backendHandle.hashCode }
    if s.hash ≤ 0 then (-1, s)
    else
      let s := match s.record.sqlInfoMap s.hash with
        | some sqlInfo => s.updateSqlInfo fun current => { current with sqlText := sqlInfo.sqlText }
        | none => s
      (0, s.statExecuteSql env)

/-- `stat_startTrans`. -/
def statStartTrans (s : Serving) : Serving :=
  s.updateDoing fun doing => { doing with
    transStartTime := doing.startQueryTime
    sqlSet := insert doing.sqlInfo.sqlHashCode doing.sqlSet
    type := .transQuery }

/-- The key of a transaction: the hashes of its statements in order. -/
def transKeys (codes : Finset UInt32) : Bytes :=
  List.intercalate [59] ((ordered codes).map Tool.decimal)

/-- `stat_endTrans`; the clock is read again at the end. -/
def statEndTrans (s : Serving) (env : Env) (isRollBack : Bool) (endTime : UInt64) : Serving :=
  let s := s.updateDoing fun doing => { doing with rollback := doing.rollback || isRollBack }
  let keys := transKeys s.conn.record.sqlSet
  let s :=
    if keys.length ≤ 0 then s
    else
      let s := s.recorded
        (s.record.recordTransInfoEndTrans env (Tool.quickHashCode keys) s.conn endTime)
      s.updateDoing fun doing => { doing with sqlSet := ∅ }
  s.updateDoing fun doing => { doing with type := .init }

/-- `stat_recvOneRow`. -/
def statRecvOneRow (s : Serving) : Serving :=
  s.updateDoing fun doing => { doing with totalRow := doing.totalRow + 1 }

/-- `stat_recvFinishedRow`. -/
def statRecvFinishedRow (s : Serving) (env : Env) (rows : UInt32) : Serving :=
  (s.recorded (s.record.recordSqlInfoRecvResult env s.conn rows s.conn.sqlInfo)).updateDoing
    fun doing => { doing with totalRow := 0 }

/-- `stat_executeErr`. -/
def statExecuteErr (s : Serving) (env : Env) : Serving :=
  let s := s.recorded (s.record.recordSqlInfoExecFail env s.conn s.conn.sqlInfo)
  { s with record := s.record.recordClientQueryExecFail s.conn s.conn.clientInfo }

/-- `stat_readFrontData`, given the number of bytes received from the client. -/
def statReadFrontData (s : Serving) (env : Env) (length : UInt32) : Serving :=
  s.recorded (s.record.recordClientQuerySendSize env s.conn s.conn.addressHashCode length
    s.conn.clientInfo)

/-- `stat_readBackendData`, given the number of bytes received from the backend. -/
def statReadBackendData (s : Serving) (env : Env) (length : UInt32) : Serving :=
  let s := s.recorded (s.record.recordClientQueryRecvSize env s.conn s.conn.addressHashCode length
    s.conn.clientInfo)
  s.recorded (s.record.recordSqlInfoRecvSize env s.conn s.hash length s.conn.sqlInfo)

end Serving

/-- What a protocol reports while it serves a connection. -/
inductive Call
  | saveSql (sqlText : Bytes)
  | executeSql
  | parseSql (parsed : Option ParsedSql)
  | statParseSql (sqlText : Bytes) (parsed : Option ParsedSql)
  | statParseAndStatSql (parsed : Option ParsedSql)
  | statPreparedSql (preparedHandle : UInt32)
  | statStartTrans
  | statEndTrans (isRollBack : Bool) (endTime : UInt64)
  | statRecvOneRow
  | statRecvFinishedRow (rows : UInt32)
  | statExecuteErr
  | statReadFrontData (length : UInt32)
  | statReadBackendData (length : UInt32)
  /-- The protocol adds handles to the connection's manager, or removes some. -/
  | setHandles (manager : HandleManager)

/-- What a call leaves behind. -/
def Call.run (call : Call) (env : Env) (s : Serving) : Option Serving :=
  match call with
  | saveSql sqlText => s.statSaveSql env sqlText
  | executeSql => some (s.statExecuteSql env)
  | parseSql parsed => some (s.parseSql parsed).2
  | statParseSql sqlText parsed => (s.statParseSql env sqlText parsed).map (·.2)
  | statParseAndStatSql parsed => (s.statParseAndStatSql env parsed).map (·.2)
  | statPreparedSql preparedHandle => some (s.statPreparedSql env preparedHandle).2
  | statStartTrans => some s.statStartTrans
  | statEndTrans isRollBack endTime => some (s.statEndTrans env isRollBack endTime)
  | statRecvOneRow => some s.statRecvOneRow
  | statRecvFinishedRow rows => some (s.statRecvFinishedRow env rows)
  | statExecuteErr => some (s.statExecuteErr env)
  | statReadFrontData length => some (s.statReadFrontData env length)
  | statReadBackendData length => some (s.statReadBackendData env length)
  | setHandles manager => some { s with conn := { s.conn with preparedCursorManager := manager } }

end OneProxy.Record
