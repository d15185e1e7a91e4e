import OneProxy.Lib.KeyedRows
import OneProxy.Stats.Record

/-! The table of executions that `DBManager` writes from the events. -/

namespace OneProxy.Record

/-- A 32-bit value that is read as an `int`. -/
def asInt (value : UInt32) : Int := value.toInt32.toInt

/-- `SqlExecTabT`: the values of one statement on `sql_exec`. -/
structure SqlExecTabT where
  connHashCode : UInt32
  execHashcode : UInt32
  rownum : Int
  /-- The time in seconds. -/
  querytime : UInt64
  trans : Bool
  fails : Bool
  recvsize : Int

/-- A row of `sql_exec`. -/
structure SqlExecRow where
  connhashcode : UInt32
  exechashcode : UInt32
  rownum : Int
  querytime : UInt64
  trans : Int
  fails : Int
  recvsize : Int
  deriving DecidableEq

/-- What identifies an execution in the table. -/
def SqlExecRow.key (row : SqlExecRow) : UInt32 × UInt32 := (row.connhashcode, row.exechashcode)

namespace SqlExecTabT

/-- What identifies the execution that a statement is about. -/
def key (sett : SqlExecTabT) : UInt32 × UInt32 := (sett.connHashCode, sett.execHashcode)

/-- A flag as it is written into a statement. -/
def digit (flag : Bool) : Int := if flag then 1 else 0

/-- `insertDataSql`: the row that is added. -/
def insertDataSql (sett : SqlExecTabT) : SqlExecRow where
  connhashcode := sett.connHashCode
  exechashcode := sett.execHashcode
  rownum := sett.rownum
  querytime := sett.querytime
  trans := digit sett.trans
  fails := digit sett.fails
  recvsize := sett.recvsize

/-- `updateDataSql`: what becomes of a row under its key. -/
def updateDataSql (sett : SqlExecTabT) (row : SqlExecRow) : SqlExecRow :=
  { row with
    rownum := row.rownum + sett.rownum
    trans := row.trans + digit sett.trans
    fails := row.fails + digit sett.fails
    recvsize := row.recvsize + sett.recvsize }

end SqlExecTabT

namespace DBDataT

/-- What `DBManager::start` adds to `sql_exec`. -/
def inserts : DBDataT → Option SqlExecTabT
  | .clientExecSql sis =>
    some ⟨sis.connHashCode, sis.sqlExecHashCode, 0, sis.execTime / 1000, false, false, 0⟩
  | _ => none

/-- What `DBManager::start` changes in `sql_exec`; the other values are zero. -/
def updates : DBDataT → Option SqlExecTabT
  | .clientExecSqlUpdateDatasize ses =>
    some ⟨ses.connHashCode, ses.sqlExecHashCode, 0, 0, false, false, asInt ses.recvSize⟩
  | .clientExecSqlUpdateTrans ses =>
    some ⟨ses.connHashCode, ses.sqlExecHashCode, 0, 0, ses.inTrans ≠ 0, false, 0⟩
  | .clientExecSqlUpdateRownum ses =>
    some ⟨ses.connHashCode, ses.sqlExecHashCode, asInt ses.rowNum, 0, false, false, 0⟩
  | .clientExecSqlUpdateFail ses =>
    some ⟨ses.connHashCode, ses.sqlExecHashCode, 0, 0, false, ses.fail ≠ 0, 0⟩
  | _ => none

/-- The row count of an event. -/
def rowNum : DBDataT → Int
  | .clientExecSqlUpdateRownum ses => asInt ses.rowNum
  | _ => 0

/-- The size of an event. -/
def recvSize : DBDataT → Int
  | .clientExecSqlUpdateDatasize ses => asInt ses.recvSize
  | _ => 0

/-- An event adds its row count and its size. -/
theorem figures_of_updates {data : DBDataT} {sett : SqlExecTabT}
    (changes : data.updates = some sett) :
    data.rowNum = sett.rownum ∧ data.recvSize = sett.recvsize := by
  cases data with
  | clientExecSqlUpdateDatasize | clientExecSqlUpdateTrans | clientExecSqlUpdateRownum
  | clientExecSqlUpdateFail =>
    obtain rfl := Option.some.inj changes
    exact ⟨rfl, rfl⟩
  | _ => simp [updates] at changes

/-- An event that updates nothing has no row count and no size. -/
theorem rowNum_of_updates (data : DBDataT) (none_ : data.updates = none) : data.rowNum = 0 := by
  cases data with
  | clientExecSqlUpdateRownum ses => simp [updates] at none_
  | _ => rfl

theorem recvSize_of_updates (data : DBDataT) (none_ : data.updates = none) : data.recvSize = 0 := by
  cases data with
  | clientExecSqlUpdateDatasize ses => simp [updates] at none_
  | _ => rfl

end DBDataT

/-- `DBManager::start`, as far as `sql_exec` goes. -/
def DBManager.start (table : List SqlExecRow) (dbt : DBDataT) : List SqlExecRow :=
  match dbt.inserts with
  | some sett => table ++ [sett.insertDataSql]
  | none =>
    match dbt.updates with
    | some sett => table.map fun row => if row.key = sett.key then sett.updateDataSql row else row
    | none => table

/-- The table after some events, in the order in which they were queued. -/
def DBManager.table (events : List DBDataT) : List SqlExecRow := events.foldl DBManager.start []

/-- The events as they add rows and change them by key. -/
def execRules : KeyedRows.Rules SqlExecRow (UInt32 × UInt32) DBDataT where
  key := SqlExecRow.key
  insert data := data.inserts.map SqlExecTabT.insertDataSql
  change data := data.updates.map fun sett => (sett.key, sett.updateDataSql)
  key_change := by
    intro data k f row changes
    obtain ⟨sett, _, same⟩ := Option.map_eq_some_iff.mp changes
    obtain ⟨_, rfl⟩ := Prod.mk.inj same
    rfl

/-- What an event makes of a row. -/
theorem changed_eq (data : DBDataT) (row : SqlExecRow) :
    execRules.changed data row = match data.updates with
      | some sett => if row.key = sett.key then sett.updateDataSql row else row
      | none => row := by
  simp only [KeyedRows.Rules.changed, execRules]
  cases data.updates <;> rfl

/-- An event that adds a row changes none. -/
theorem updates_of_inserts {data : DBDataT} {sett : SqlExecTabT} (adds : data.inserts = some sett) :
    data.updates = none := by
  cases data with
  | clientExecSql sis => rfl
  | _ => simp [DBDataT.inserts] at adds

/-- `DBManager::start` follows the rules. -/
theorem start_eq (table : List SqlExecRow) (data : DBDataT) :
    DBManager.start table data = execRules.apply table data := by
  have changed : execRules.changed data = fun row => match data.updates with
      | some sett => if row.key = sett.key then sett.updateDataSql row else row
      | none => row := funext (changed_eq data)
  rw [KeyedRows.Rules.apply, changed, DBManager.start]
  cases adds : data.inserts with
  | some sett => simp [execRules, adds, updates_of_inserts adds]
  | none => cases changes : data.updates <;> simp [execRules, adds]

/-- The table is what the rules make of the events. -/
theorem table_eq (events : List DBDataT) : DBManager.table events = execRules.rows events := by
  have same : DBManager.start = execRules.apply := funext₂ start_eq
  rw [DBManager.table, same, KeyedRows.Rules.foldl_apply]
  rfl

/-- What an event adds to the rows of a key. -/
def DBDataT.addsTo (key : UInt32 × UInt32) (amount : DBDataT → Int) (data : DBDataT) : Int :=
  if data.updates.map SqlExecTabT.key = some key then amount data else 0

/-- One event adds its figures to the rows of its key. -/
theorem changed_figures (data : DBDataT) (row : SqlExecRow) :
    (execRules.changed data row).rownum = row.rownum + data.addsTo row.key DBDataT.rowNum ∧
      (execRules.changed data row).recvsize =
        row.recvsize + data.addsTo row.key DBDataT.recvSize := by
  rw [changed_eq]
  cases changes : data.updates with
  | none => simp [DBDataT.addsTo, changes]
  | some sett =>
    obtain ⟨rows, sizes⟩ := DBDataT.figures_of_updates changes
    by_cases hit : row.key = sett.key
    · simp [DBDataT.addsTo, changes, hit, rows, sizes, SqlExecTabT.updateDataSql]
    · simp [DBDataT.addsTo, changes, hit, Ne.symm hit]

/-- A row adds up the figures of the events of its key. -/
theorem later_figures (events : List DBDataT) (row : SqlExecRow) :
    (execRules.later events row).rownum =
        row.rownum + (events.map (DBDataT.addsTo row.key DBDataT.rowNum)).sum ∧
      (execRules.later events row).recvsize =
        row.recvsize + (events.map (DBDataT.addsTo row.key DBDataT.recvSize)).sum := by
  induction events generalizing row with
  | nil => simp [KeyedRows.Rules.later]
  | cons data rest ih =>
    have first := changed_figures data row
    have key : (execRules.changed data row).key = row.key := execRules.key_changed data row
    obtain ⟨rows, sizes⟩ := ih (execRules.changed data row)
    rw [key] at rows sizes
    constructor
    · exact rows.trans (by rw [first.1, List.map_cons, List.sum_cons, add_assoc])
    · exact sizes.trans (by rw [first.2, List.map_cons, List.sum_cons, add_assoc])

end OneProxy.Record
