import OneProxy.Stats.SqliteDB

/-! What the database of the statistics keeps, whatever is queued and whichever statements fail. -/

namespace OneProxy.Record

open KeyedRows

namespace SqliteDB

/-- What later events leave of the tables. -/
structure Kept (db after : SqliteDB) : Prop where
  sql : Extends SqlRow.hashcode db.sql after.sql
  sqltable : Extends TableRow.hashcode db.sqltable after.sqltable
  sqlTableRel : Extends id db.sqlTableRel after.sqlTableRel
  transSqlRel : Extends id db.transSqlRel after.transSqlRel
  transinfo : db.transinfo <+: after.transinfo
  userSqlRel : db.userSqlRel <+: after.userSqlRel
  /-- The rows of these two are updated, but none is taken away or changes its key. -/
  user : db.user.map UserRow.connHashCode <+: after.user.map UserRow.connHashCode
  sqlExec : db.sqlExec.map SqlExecRow.key <+: after.sqlExec.map SqlExecRow.key

variable {db middle after : SqliteDB}

theorem Kept.refl (db : SqliteDB) : Kept db db :=
  ⟨.refl _, .refl _, .refl _, .refl _, List.prefix_refl _, List.prefix_refl _, List.prefix_refl _,
    List.prefix_refl _⟩

theorem Kept.trans (first : Kept db middle) (second : Kept middle after) : Kept db after where
  sql := first.sql.trans second.sql
  sqltable := first.sqltable.trans second.sqltable
  sqlTableRel := first.sqlTableRel.trans second.sqlTableRel
  transSqlRel := first.transSqlRel.trans second.transSqlRel
  transinfo := first.transinfo.trans second.transinfo
  userSqlRel := first.userSqlRel.trans second.userSqlRel
  user := first.user.trans second.user
  sqlExec := first.sqlExec.trans second.sqlExec

/-! ## What each function keeps -/

theorem kept_saveNewClient (db : SqliteDB) (succeeds : Bool) (utt : UserRow) :
    Kept db (db.saveNewClient succeeds utt) := by
  cases succeeds with
  | false => exact .refl db
  | true => exact { Kept.refl db with user := (List.prefix_append db.user [utt]).map _ }

theorem kept_updateClientData (db : SqliteDB) (succeeds : Bool) (connHashCode : UInt32)
    (senddata recvdata : UInt64) :
    Kept db (db.updateClientData succeeds connHashCode senddata recvdata) := by
  unfold updateClientData
  split
  · refine { Kept.refl db with user := ?_ }
    -- Only the sizes of a row change, and not what it is found by.
    rw [List.map_map, List.map_congr_left]
    intro row _
    simp only [Function.comp_apply]
    split <;> rfl
  · exact .refl db

theorem kept_saveClientSqlRel (db : SqliteDB) (succeeds : Bool) (usrtt : UserSqlRelRow) :
    Kept db (db.saveClientSqlRel succeeds usrtt) := by
  cases succeeds with
  | false => exact .refl db
  | true => exact { Kept.refl db with userSqlRel := List.prefix_append _ _ }

theorem kept_saveSqlExecRecord (db : SqliteDB) (succeeds : Bool) (sett : SqlExecTabT) :
    Kept db (db.saveSqlExecRecord succeeds sett) := by
  cases succeeds with
  | false => exact .refl db
  | true => exact { Kept.refl db with sqlExec := (List.prefix_append db.sqlExec _).map _ }

theorem kept_saveNewSql (db : SqliteDB) (succeeds : Bool) (stt : SqlRow) :
    Kept db (db.saveNewSql succeeds stt) := by
  cases succeeds with
  | false => exact .refl db
  | true => exact { Kept.refl db with sql := extends_addNew _ _ _ }

theorem kept_saveNewTable (db : SqliteDB) (succeeds : Bool) (tt : TableRow) :
    Kept db (db.saveNewTable succeeds tt) := by
  cases succeeds with
  | false => exact .refl db
  | true => exact { Kept.refl db with sqltable := extends_addNew _ _ _ }

theorem kept_saveSqlTableRel (db : SqliteDB) (succeeds : Bool) (strt : SqlTableRelRow) :
    Kept db (db.saveSqlTableRel succeeds strt) := by
  cases succeeds with
  | false => exact .refl db
  | true => exact { Kept.refl db with sqlTableRel := extends_addNew _ _ _ }

theorem kept_updateSqlExec (db : SqliteDB) (succeeds : Bool) (sett : SqlExecTabT) :
    Kept db (db.updateSqlExec succeeds sett) := by
  unfold updateSqlExec
  split
  · refine { Kept.refl db with sqlExec := ?_ }
    rw [List.map_map, List.map_congr_left]
    intro row _
    simp only [Function.comp_apply]
    split <;> rfl
  · exact .refl db

theorem kept_saveTransInfo (db : SqliteDB) (succeeds : Bool) (titt : TransInfoRow) :
    Kept db (db.saveTransInfo succeeds titt) := by
  cases succeeds with
  | false => exact .refl db
  | true => exact { Kept.refl db with transinfo := List.prefix_append _ _ }

theorem kept_saveTransSqlRel (db : SqliteDB) (succeeds : Bool) (tsrtt : TransSqlRelRow) :
    Kept db (db.saveTransSqlRel succeeds tsrtt) := by
  cases succeeds with
  | false => exact .refl db
  | true => exact { Kept.refl db with transSqlRel := extends_addNew _ _ _ }

/-! ## What an event keeps -/

theorem kept_saveTables (succeeds : Nat → Bool) (sqlhc : UInt32) (names : List Bytes) :
    ∀ calls db, Kept db (DBManager.saveTables succeeds sqlhc calls names db) := by
  -- The induction follows the loop: one round is two calls, and the rest starts behind them.
  induction names with
  | nil => exact fun _ db => .refl db
  | cons tn rest ih =>
    intro calls db
    refine Kept.trans ?_ (ih _ _)
    exact Kept.trans (kept_saveNewTable db _ _) (kept_saveSqlTableRel _ _ _)

theorem kept_saveTransSqls (succeeds : Nat → Bool) (transhc : UInt32) (codes : List UInt32) :
    ∀ calls db, Kept db (DBManager.saveTransSqls succeeds transhc calls codes db) := by
  induction codes with
  | nil => exact fun _ db => .refl db
  | cons code rest ih =>
    intro calls db
    refine Kept.trans ?_ (ih _ _)
    exact kept_saveTransSqlRel db _ _

/-- One event keeps what is there. -/
theorem kept_save (db : SqliteDB) (message : DBMessage) : Kept db (DBManager.save db message) := by
  unfold DBManager.save
  cases message.data with
  | clientInfo cit => exact kept_saveNewClient db _ _
  | clientInfoUpdate cit => exact kept_updateClientData db _ _ _ _
  | clientAddSql usrs => exact kept_saveClientSqlRel db _ _
  | clientExecSql sis =>
    refine Kept.trans ?_ (kept_saveTables _ _ _ _ _)
    exact Kept.trans (kept_saveSqlExecRecord db _ _) (kept_saveNewSql _ _ _)
  | clientExecTrans tis =>
    refine Kept.trans ?_ (kept_saveTransSqls _ _ _ _ _)
    exact kept_saveTransInfo db _ _
  | clientExecSqlUpdateDatasize | clientExecSqlUpdateTrans | clientExecSqlUpdateRownum
  | clientExecSqlUpdateFail => exact kept_updateSqlExec db _ _

/-- So do all events of a run. -/
theorem kept_saveAll (db : SqliteDB) (messages : List DBMessage) :
    Kept db (DBManager.saveAll db messages) := by
  induction messages generalizing db with
  | nil => exact .refl db
  | cons message rest ih => exact (kept_save db message).trans (ih _)

/-- No statement, no table and no relation is stored twice. -/
structure Unique (db : SqliteDB) : Prop where
  sql : (db.sql.map SqlRow.hashcode).Nodup
  sqltable : (db.sqltable.map TableRow.hashcode).Nodup
  sqlTableRel : db.sqlTableRel.Nodup
  transSqlRel : db.transSqlRel.Nodup

theorem Kept.unique (kept : Kept db after) (unique : db.Unique) : after.Unique where
  sql := kept.sql.distinct unique.sql
  sqltable := kept.sqltable.distinct unique.sqltable
  sqlTableRel := by simpa using kept.sqlTableRel.distinct (by simpa using unique.sqlTableRel)
  transSqlRel := by simpa using kept.transSqlRel.distinct (by simpa using unique.transSqlRel)

theorem unique_empty : empty.Unique :=
  ⟨List.nodup_nil, List.nodup_nil, List.nodup_nil, List.nodup_nil⟩

end SqliteDB

end OneProxy.Record
