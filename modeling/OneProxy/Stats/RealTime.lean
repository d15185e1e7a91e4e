import OneProxy.Lib.Runs
import OneProxy.Stats.CounterLaws

/-! The figures of the last seconds: the difference between the statistics and a copy of them. -/

namespace OneProxy.Record

/-- The records of the process: the instance, its copy, and the one that differences go to. -/
structure Statics where
  record : Record
  bakRecord : Option Record
  diffRecord : Record

/-- `get_diffRecord`: entries are written over those of the last call. -/
def getDiffRecord (newRecord oldRecord record : Record) : Record :=
  { record with
    sumClientConn := newRecord.sumClientConn - oldRecord.sumClientConn
    sumCloseClientConn := newRecord.sumCloseClientConn - oldRecord.sumCloseClientConn
    sumCurrentClientConn := newRecord.sumCurrentClientConn - oldRecord.sumCurrentClientConn
    sumHandingClientConn := newRecord.sumHandingClientConn - oldRecord.sumHandingClientConn
    sumWaitClientConn := newRecord.sumWaitClientConn - oldRecord.sumWaitClientConn
    httpServerRecord := newRecord.httpServerRecord.sub oldRecord.httpServerRecord
    sqlInfoMap := StdMap.difference SqlInfo.sub newRecord.sqlInfoMap oldRecord.sqlInfoMap
      record.sqlInfoMap
    transInfoMap := StdMap.difference TransInfo.sub newRecord.transInfoMap oldRecord.transInfoMap
      record.transInfoMap
    threadInfoMap := StdMap.difference ThreadInfo.sub newRecord.threadInfoMap
      oldRecord.threadInfoMap record.threadInfoMap
    clientQueryMap := StdMap.difference ClientQueryInfo.sub newRecord.clientQueryMap
      oldRecord.clientQueryMap record.clientQueryMap
    clientUserAppMap := StdMap.difference ClientUserAppInfo.sub newRecord.clientUserAppMap
      oldRecord.clientUserAppMap record.clientUserAppMap
    recordMutexMap := StdMap.difference RecordMutex.sub newRecord.recordMutexMap
      oldRecord.recordMutexMap record.recordMutexMap
    httpRequestPageCount := StdMap.difference (· - ·) newRecord.httpRequestPageCount
      oldRecord.httpRequestPageCount record.httpRequestPageCount }

namespace Statics

/-- A process that has recorded nothing. -/
def new : Statics := ⟨.new, none, .new⟩

/-- `bak_record`: everything is copied but the global queue's size. -/
def takeBak (s : Statics) : Statics :=
  let bak := s.bakRecord.getD .new
  { s with
    bakRecord := some { s.record with sumWaitInGlobalQueue := bak.sumWaitInGlobalQueue } }

/-- `get_realTimeRecord`: the record that is shown. -/
def getRealTimeRecord (s : Statics) : Record × Statics :=
  match s.bakRecord with
  | none => (s.record, s)
  | some bak =>
    let diff := getDiffRecord s.record bak s.diffRecord
    (diff, { s with diffRecord := diff })

/-- `record_clear`: the copy is gone, and the entries are cleared. -/
def clear (s : Statics) : Statics := { s with record := s.record.recordClear, bakRecord := none }

end Statics

/-- What happens to the records of the process. -/
inductive Action
  | event (event : Event)
  | bakRecord
  | getRealTimeRecord
  | recordClear

/-- Neither the copy nor the entries are replaced. -/
def Action.Quiet : Action → Prop
  | event _ => True
  | bakRecord => False
  | getRealTimeRecord => True
  | recordClear => False

/-- What an action leaves. -/
def Statics.next (s : Statics) : Action → Option Statics
  | .event event => (event.apply s.record).map fun record => { s with record := record }
  | .bakRecord => some s.takeBak
  | .getRealTimeRecord => some s.getRealTimeRecord.2
  | .recordClear => some s.clear

/-- What an action counts. -/
def Statics.counts (s : Statics) : Action → List (Counter × UInt64)
  | .event event => event.counts s.record
  | _ => []

/-- The process from its start on. -/
def process : Runs.System Statics Action := .ofStep (· = .new) Statics.next

/-! ## What a difference must show -/

/-- A statement but for its counters. -/
def SqlInfo.described (info : SqlInfo) : SqlInfo :=
  { info with part := { info.part with
    exec := 0, trans := 0, fail := 0, execTime := 0, totalRow := 0, recvSize := 0 } }

/-- A transaction but for its counters. -/
def TransInfo.described (info : TransInfo) : TransInfo :=
  { info with part := { info.part with exec := 0, totalTime := 0, rollbackTimes := 0 } }

/-- A client but for its counters and the statements that are collected. -/
def ClientQueryInfo.described (info : ClientQueryInfo) : ClientQueryInfo :=
  { info with
    part := { ClientQueryInfoPart.zero with
      hashCode := info.part.hashCode
      onLineStatus := info.part.onLineStatus
      startConnectTime := info.part.startConnectTime }
    sqlList := ∅
    failSqlList := ∅ }

/-- A user but for the logins and the statements that are collected. -/
def ClientUserAppInfo.described (info : ClientUserAppInfo) : ClientUserAppInfo :=
  { info with part := ⟨0, 0⟩, sqlList := ∅ }

/-- What is left of an entry that only counts. -/
def nothingElse {α : Type} (_ : α) : Unit := ()

/-- The two points between which events are counted, and what is shown of them. -/
structure Shown where
  before : Record
  now : Record
  shown : Record

/-- One map of what is shown: as it is described now, and in full where it is new. -/
def MapShown {κ ν δ : Type} (describe : ν → δ) (before now shown : StdMap κ ν) : Prop :=
  ∀ key, (shown key).map describe = (now key).map describe ∧
    (before key = none → shown key = now key)

/-- The figures shown are those counted between the points, and the rest is as it is now. -/
structure RealTime (s : Shown) (counted : Counter → UInt64) : Prop where
  counters : ∀ counter, s.shown.read counter = counted counter
  sqls : MapShown SqlInfo.described s.before.sqlInfoMap s.now.sqlInfoMap s.shown.sqlInfoMap
  transs : MapShown TransInfo.described s.before.transInfoMap s.now.transInfoMap
    s.shown.transInfoMap
  clients : MapShown ClientQueryInfo.described s.before.clientQueryMap s.now.clientQueryMap
    s.shown.clientQueryMap
  users : MapShown ClientUserAppInfo.described s.before.clientUserAppMap s.now.clientUserAppMap
    s.shown.clientUserAppMap
  threads : MapShown ThreadInfo.threadId s.before.threadInfoMap s.now.threadInfoMap
    s.shown.threadInfoMap
  locks : MapShown nothingElse s.before.recordMutexMap s.now.recordMutexMap s.shown.recordMutexMap
  pages : MapShown nothingElse s.before.httpRequestPageCount s.now.httpRequestPageCount
    s.shown.httpRequestPageCount
  /-- Of the statements that a client has run, those that are new. -/
  clientStatements : ∀ key info old, s.now.clientQueryMap key = some info →
    s.before.clientQueryMap key = some old →
    ∃ diff, s.shown.clientQueryMap key = some diff ∧ diff.sqlList = info.sqlList \ old.sqlList ∧
      diff.failSqlList = info.failSqlList \ old.failSqlList
  /-- Of the statements that a user has run, those that are new. -/
  userStatements : ∀ key info old, s.now.clientUserAppMap key = some info →
    s.before.clientUserAppMap key = some old →
    ∃ diff, s.shown.clientUserAppMap key = some diff ∧ diff.sqlList = info.sqlList \ old.sqlList

end OneProxy.Record
