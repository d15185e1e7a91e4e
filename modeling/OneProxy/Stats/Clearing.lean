import OneProxy.Stats.Record

/-! What the statistics still show once they have been cleared. -/

namespace OneProxy.Record

/-- `is_show`. -/
def RecordMutex.isShow (info : RecordMutex) : Prop := ¬ (info.lockNum = 0 ∧ info.unlockNum = 0)

/-- `is_show`: every thread is shown. -/
def ThreadInfo.isShow (_ : ThreadInfo) : Prop := True

/-- `is_show`. -/
def ClientUserAppInfo.isShow (info : ClientUserAppInfo) : Prop := ¬ info.part.loginTimes ≤ 0

/-- `is_show`: a transaction is known by its statements. -/
def TransInfo.isShow (info : TransInfo) : Prop := ¬ info.sqlHashCode.card ≤ 0

/-! ## Counters at zero -/

/-- No lock has been taken or given back. -/
def RecordMutex.Zero (info : RecordMutex) : Prop := info.lockNum = 0 ∧ info.unlockNum = 0

/-- No connection of the thread has been counted. -/
structure ThreadInfo.Zero (info : ThreadInfo) : Prop where
  all : info.sumAllClientConn = 0
  handing : info.sumHandingClientConn = 0
  finished : info.sumFinishedClientConn = 0
  fail : info.sumFailClientConn = 0
  wait : info.sumWaitClientConn = 0

/-- No page has been visited. -/
structure HttpServerRecord.Zero (info : HttpServerRecord) : Prop where
  connects : info.clientConnectNum = 0
  requests : info.clientRequestPageNum = 0
  current : info.clientCurrentConnectNum = 0

/-- Nothing of the client has been counted. -/
structure ClientQueryInfo.Zero (info : ClientQueryInfo) : Prop where
  connects : info.part.connectNum = 0
  serverFails : info.part.connServerFail = 0
  queries : info.part.queryNum = 0
  queryFails : info.part.queryFailNum = 0
  transactions : info.part.trxNum = 0
  selects : info.part.selectNum = 0
  inserts : info.part.insertNum = 0
  updates : info.part.updateNum = 0
  deletes : info.part.deleteNum = 0
  onLineTime : info.part.onLineTime = 0
  sent : info.part.upDataSize = 0
  received : info.part.downDataSize = 0
  statements : info.part.sqlSize = 0

/-- The user has not logged in, and has run nothing. -/
structure ClientUserAppInfo.Zero (info : ClientUserAppInfo) : Prop where
  logins : info.part.loginTimes = 0
  statements : info.part.sqlcount = 0

/-- Nothing of the statement has been counted. -/
structure SqlInfo.Zero (info : SqlInfo) : Prop where
  executions : info.part.exec = 0
  transactions : info.part.trans = 0
  fails : info.part.fail = 0
  time : info.part.execTime = 0
  rows : info.part.totalRow = 0
  received : info.part.recvSize = 0

/-- Nothing of the transaction has been counted. -/
structure TransInfo.Zero (info : TransInfo) : Prop where
  executions : info.part.exec = 0
  totalTime : info.part.totalTime = 0
  rollbacks : info.part.rollbackTimes = 0
  statements : info.part.sqlNum = 0
  longest : info.part.maxTime = 0
  shortest : info.part.minTime = 0
  latest : info.part.lastTime = 0

/-- Every entry is at zero or hidden. -/
def Blank {κ ν : Type} (m : StdMap κ ν) (Zero Shown : ν → Prop) : Prop :=
  ∀ key info, m key = some info → Zero info ∨ ¬ Shown info

/-- No page of the monitor shows anything but zeros. -/
structure Cleared (record : Record) : Prop where
  accepted : record.sumClientConn = 0
  closed : record.sumCloseClientConn = 0
  http : record.httpServerRecord.Zero
  statements : Blank record.sqlInfoMap SqlInfo.Zero SqlInfo.isShow
  transactions : Blank record.transInfoMap TransInfo.Zero TransInfo.isShow
  threads : Blank record.threadInfoMap ThreadInfo.Zero ThreadInfo.isShow
  clients : Blank record.clientQueryMap ClientQueryInfo.Zero ClientQueryInfo.isShow
  users : Blank record.clientUserAppMap ClientUserAppInfo.Zero ClientUserAppInfo.isShow
  locks : Blank record.recordMutexMap RecordMutex.Zero RecordMutex.isShow
  pages : Blank record.httpRequestPageCount (· = 0) fun _ => True

section Blank

variable {κ ν : Type} {m : StdMap κ ν} {Zero Shown : ν → Prop}

/-- A map whose entries have all been brought to zero or hidden is blank. -/
theorem blank_mapValues {clear : ν → ν}
    (clears : ∀ info, Zero (clear info) ∨ ¬ Shown (clear info)) :
    Blank (m.mapValues clear) Zero Shown := by
  intro key info found
  obtain ⟨before, _, cleared⟩ := Option.map_eq_some_iff.mp found
  rw [← cleared]
  exact clears before

end Blank

/-! ## The entries that are cleared -/

/-- A cleared statement is hidden. -/
theorem SqlInfo.clear_hidden (info : SqlInfo) : ¬ info.clear.isShow := by
  simp [isShow, clear, SqlInfoPart.zero]

/-- A cleared client is hidden. -/
theorem ClientQueryInfo.clear_hidden (info : ClientQueryInfo) : ¬ info.clear.isShow := by
  simp [isShow, clear, ClientQueryInfoPart.zero]

/-- A cleared thread is shown with zeros. -/
theorem ThreadInfo.clear_zero (info : ThreadInfo) : info.clear.Zero := by
  constructor <;> rfl

/-- A user is hidden exactly where no login has been counted. -/
theorem ClientUserAppInfo.blank_iff (info : ClientUserAppInfo) :
    info.Zero ∨ ¬ info.isShow ↔ info.part.loginTimes = 0 := by
  have hidden : ¬ info.isShow ↔ info.part.loginTimes = 0 := by
    simp only [isShow, not_not]
    exact UInt64.le_zero_iff
  rw [hidden]
  constructor
  · intro blank
    cases blank with
    | inl zero => exact zero.logins
    | inr none => exact none
  · intro none
    exact Or.inr none

/-- A transaction is hidden exactly where it has no statement. -/
theorem TransInfo.isShow_iff (info : TransInfo) : info.isShow ↔ info.sqlHashCode ≠ ∅ := by
  simp [isShow]

/-! ## The whole record -/

/-- Clearing leaves the transactions and the users as they were. -/
@[simp] theorem recordClear_transInfoMap (record : Record) :
    record.recordClear.transInfoMap = record.transInfoMap := rfl

/-- Clearing leaves the users as they were. -/
@[simp] theorem recordClear_clientUserAppMap (record : Record) :
    record.recordClear.clientUserAppMap = record.clientUserAppMap := rfl

/-- What is left of any record is blank up to the two maps that are left as they were. -/
theorem recordClear_cleared (record : Record)
    (transactions : Blank record.transInfoMap TransInfo.Zero TransInfo.isShow)
    (users : Blank record.clientUserAppMap ClientUserAppInfo.Zero ClientUserAppInfo.isShow) :
    record.recordClear.Cleared where
  accepted := rfl
  closed := rfl
  http := ⟨rfl, rfl, rfl⟩
  statements := blank_mapValues fun info => Or.inr info.clear_hidden
  transactions := transactions
  threads := blank_mapValues fun info => Or.inl info.clear_zero
  clients := blank_mapValues fun info => Or.inr info.clear_hidden
  users := users
  locks := blank_mapValues fun _ => Or.inl ⟨rfl, rfl⟩
  pages := blank_mapValues fun _ => Or.inl rfl

/--
Clearing is complete for the records in which no transaction with a statement has a counter that is
not zero, and no user has logged in.
-/
theorem recordClear_iff (record : Record) :
    record.recordClear.Cleared ↔
      (∀ key info, record.transInfoMap key = some info → info.sqlHashCode ≠ ∅ → info.Zero) ∧
      ∀ key info, record.clientUserAppMap key = some info → info.part.loginTimes = 0 := by
  -- Neither map is touched, so that it is blank afterwards where it was blank before.
  have transactions : Blank record.transInfoMap TransInfo.Zero TransInfo.isShow ↔
      ∀ key info, record.transInfoMap key = some info → info.sqlHashCode ≠ ∅ → info.Zero := by
    apply forall₃_congr
    intro key info found
    rw [TransInfo.isShow_iff, or_comm, ← imp_iff_not_or]
  have users : Blank record.clientUserAppMap ClientUserAppInfo.Zero ClientUserAppInfo.isShow ↔
      ∀ key info, record.clientUserAppMap key = some info → info.part.loginTimes = 0 := by
    apply forall₃_congr
    intro key info found
    exact info.blank_iff
  rw [← transactions, ← users]
  constructor
  · intro cleared
    exact ⟨cleared.transactions, cleared.users⟩
  · intro blank
    exact recordClear_cleared record blank.1 blank.2

/-- The statistics after one user has logged in. -/
def oneLogin : Record := new.recordClientUserAppInfoAdd [] [] [] 7

/-- The login is still counted once the statistics have been cleared. -/
theorem oneLogin_kept : ¬ oneLogin.recordClear.Cleared := by
  intro cleared
  have entry : oneLogin.recordClear.clientUserAppMap 7 = some ⟨⟨1, 0⟩, 7, [], [], [], ∅⟩ := by
    simp [oneLogin, recordClientUserAppInfoAdd, new, ClientUserAppInfo.new]
  have blank := cleared.users 7 _ entry
  rw [ClientUserAppInfo.blank_iff] at blank
  simp at blank

end OneProxy.Record
