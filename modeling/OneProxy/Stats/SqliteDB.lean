import OneProxy.Stats.DBManager
import OneProxy.Stats.StoredSql
import OneProxy.Stats.Transactions

/-! The database of the statistics: its tables, and what `DBManager` writes into them. -/

namespace OneProxy.Record

open KeyedRows

/-! ## The tables -/

/-- A row of `user`. -/
structure UserRow where
  connHashCode : UInt32
  hashcode : UInt32
  caddr : Bytes
  cport : Int
  saddr : Bytes
  sport : Int
  /-- The time in seconds. -/
  conndatetime : UInt64
  senddata : Int
  recvdata : Int

/-- A row of `sql`. -/
structure SqlRow where
  hashcode : UInt32
  sql : Bytes
  tabs : Int
  sqlType : Int

/-- A row of `sqltable`. -/
structure TableRow where
  hashcode : UInt32
  tabname : Bytes

/-- A row of `sql_table_rel`. -/
structure SqlTableRelRow where
  sqlhc : UInt32
  tabhc : UInt32
  deriving DecidableEq

/-- A row of `user_sql_rel`. -/
structure UserSqlRelRow where
  connhc : UInt32
  sqlexechc : UInt32
  sqlhc : UInt32
  /-- The time in seconds. -/
  exectime : UInt64

/-- A row of `trans_sql_rel`. -/
structure TransSqlRelRow where
  transhc : UInt32
  sqlhc : UInt32
  deriving DecidableEq

/-- `SqliteDB`: the tables that `create_tables` makes. -/
structure SqliteDB where
  sql : List SqlRow
  sqlTableRel : List SqlTableRelRow
  sqltable : List TableRow
  transinfo : List TransInfoRow
  transSqlRel : List TransSqlRelRow
  userSqlRel : List UserSqlRelRow
  user : List UserRow
  sqlExec : List SqlExecRow

namespace SqliteDB

/-- A database file that has just been made. -/
def empty : SqliteDB := ⟨[], [], [], [], [], [], [], []⟩

/-! Each function leaves the tables as they are where one of its statements fails. -/

/-- `save_newClient`. -/
def saveNewClient (db : SqliteDB) (succeeds : Bool) (utt : UserRow) : SqliteDB :=
  if succeeds then { db with user := db.user ++ [utt] } else db

/-- `update_clientData`. -/
def updateClientData (db : SqliteDB) (succeeds : Bool) (connHashCode : UInt32)
    (senddata recvdata : UInt64) : SqliteDB :=
  if connHashCode > 0 ∧ succeeds then
    { db with user := db.user.map fun row =>
        if row.connHashCode = connHashCode then { row with
          senddata := row.senddata + senddata.toNat
          recvdata := row.recvdata + recvdata.toNat }
        else row }
  else db

/-- `save_clientSqlRel`. -/
def saveClientSqlRel (db : SqliteDB) (succeeds : Bool) (usrtt : UserSqlRelRow) : SqliteDB :=
  if succeeds then { db with userSqlRel := db.userSqlRel ++ [usrtt] } else db

/-- `save_sqlExecRecord`. -/
def saveSqlExecRecord (db : SqliteDB) (succeeds : Bool) (sett : SqlExecTabT) : SqliteDB :=
  if succeeds then { db with sqlExec := db.sqlExec ++ [sett.insertDataSql] } else db

/-- `save_newSql`. -/
def saveNewSql (db : SqliteDB) (succeeds : Bool) (stt : SqlRow) : SqliteDB :=
  if succeeds then { db with sql := addNew SqlRow.hashcode db.sql stt } else db

/-- `save_newTable`. -/
def saveNewTable (db : SqliteDB) (succeeds : Bool) (tt : TableRow) : SqliteDB :=
  if succeeds then { db with sqltable := addNew TableRow.hashcode db.sqltable tt } else db

/-- `save_sqlTableRel`. -/
def saveSqlTableRel (db : SqliteDB) (succeeds : Bool) (strt : SqlTableRelRow) : SqliteDB :=
  if succeeds then { db with sqlTableRel := addNew id db.sqlTableRel strt } else db

/-- `update_sqlExec`: without a record there is nothing to update. -/
def updateSqlExec (db : SqliteDB) (succeeds : Bool) (sett : SqlExecTabT) : SqliteDB :=
  if succeeds ∧ ∃ row ∈ db.sqlExec, row.key = sett.key then
    { db with sqlExec := db.sqlExec.map fun row =>
        if row.key = sett.key then sett.updateDataSql row else row }
  else db

/-- `save_transInfo`. -/
def saveTransInfo (db : SqliteDB) (succeeds : Bool) (titt : TransInfoRow) : SqliteDB :=
  if succeeds then { db with transinfo := db.transinfo ++ [titt] } else db

/-- `save_transSqlRel`. -/
def saveTransSqlRel (db : SqliteDB) (succeeds : Bool) (tsrtt : TransSqlRelRow) : SqliteDB :=
  if succeeds then { db with transSqlRel := addNew id db.transSqlRel tsrtt } else db

end SqliteDB

/-! ## The events -/

/-- The texts that an event has written between quotes. -/
def DBDataT.texts : DBDataT → List Bytes
  | .clientInfo cit => [cit.clientIp, cit.serverIp]
  | .clientExecSql sis => sis.sql :: sis.tabNameVec
  | _ => []

/--
An event as `DBManager` takes it off its list: with the time, and with what becomes of each of the
functions that are called for it.

A text with a quote or a NUL would not be data in its statement.
-/
structure DBMessage where
  data : DBDataT
  /-- `SystemApi::system_timeTM`, in seconds. -/
  now : UInt64
  /-- Whether all statements of a call succeed, the calls being counted from zero. -/
  succeeds : Nat → Bool
  plain : ∀ text ∈ data.texts, 39 ∉ text ∧ 0 ∉ text

/-- The loop over the tables of a statement; every round makes two calls. -/
def DBManager.saveTables (succeeds : Nat → Bool) (sqlhc : UInt32) :
    Nat → List Bytes → SqliteDB → SqliteDB
  | _, [], db => db
  | calls, tn :: rest, db =>
    let tt : TableRow := ⟨Tool.quickHashCode tn, tn⟩
    let db := db.saveNewTable (succeeds calls) tt
    let db := db.saveSqlTableRel (succeeds (calls + 1)) ⟨sqlhc, tt.hashcode⟩
    saveTables succeeds sqlhc (calls + 2) rest db

/-- The loop over the statements of a transaction. -/
def DBManager.saveTransSqls (succeeds : Nat → Bool) (transhc : UInt32) :
    Nat → List UInt32 → SqliteDB → SqliteDB
  | _, [], db => db
  | calls, sqlHashCode :: rest, db =>
    let db := db.saveTransSqlRel (succeeds calls) ⟨transhc, sqlHashCode⟩
    saveTransSqls succeeds transhc (calls + 1) rest db

/-- `DBManager::start`, on all tables. The time that a transaction took is taken backwards. -/
def DBManager.save (db : SqliteDB) (message : DBMessage) : SqliteDB :=
  match message.data with
  | .clientInfo cit =>
    db.saveNewClient (message.succeeds 0) ⟨cit.connHashCode, cit.hashcode, cit.clientIp,
      asInt cit.cport, cit.serverIp, asInt cit.sport, cit.startConnectTime / 1000, 0, 0⟩
  | .clientInfoUpdate cit =>
    db.updateClientData (message.succeeds 0) cit.connHashCode cit.sendSize cit.recvSize
  | .clientAddSql usrs =>
    db.saveClientSqlRel (message.succeeds 0)
      ⟨usrs.connHashcode, usrs.sqlexecHashcode, usrs.sqlHashcode, message.now⟩
  | .clientExecSql sis =>
    let db := db.saveSqlExecRecord (message.succeeds 0)
      ⟨sis.connHashCode, sis.sqlExecHashCode, 0, sis.execTime / 1000, false, false, 0⟩
    let db := db.saveNewSql (message.succeeds 1)
      ⟨sis.sqlHashCode, sis.sql, asInt sis.tabCnt.toUInt32, asInt sis.queryType⟩
    saveTables message.succeeds sis.sqlHashCode 2 sis.tabNameVec db
  | .clientExecTrans tis =>
    let db := db.saveTransInfo (message.succeeds 0) ⟨tis.connHashCode, tis.transHashCode,
      (tis.startTime - tis.endTime).toUInt32, tis.startTime / 1000, tis.endTime / 1000⟩
    saveTransSqls message.succeeds tis.transHashCode 1 tis.sqlVec db
  | data =>
    match data.updates with
    | some sett => db.updateSqlExec (message.succeeds 0) sett
    | none => db

/-- The database after some events, in the order in which they were queued. -/
def DBManager.saveAll (db : SqliteDB) (messages : List DBMessage) : SqliteDB :=
  messages.foldl DBManager.save db

end OneProxy.Record
