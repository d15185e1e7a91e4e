import OneProxy.Stats.ConnHash
import OneProxy.Stats.SqliteDBLaws
import OneProxy.Stats.StoredExecutions

/-! The rows that the rows of the database refer to. -/

namespace OneProxy.Record

open KeyedRows

/-! ## Where the rows come from -/

/-- The events of some messages. -/
def eventsOf (messages : List DBMessage) : List DBDataT := messages.map DBMessage.data

namespace SqliteDB

/-- Every row that refers to others was written for some event. -/
structure Origins (events : List DBDataT) (db : SqliteDB) : Prop where
  userSqlRel : ∀ row ∈ db.userSqlRel, ∃ usrs, .clientAddSql usrs ∈ events ∧
    row.connhc = usrs.connHashcode ∧ row.sqlexechc = usrs.sqlexecHashcode ∧
      row.sqlhc = usrs.sqlHashcode
  sqlTableRel : ∀ row ∈ db.sqlTableRel, ∃ sis, .clientExecSql sis ∈ events ∧
    row.sqlhc = sis.sqlHashCode ∧ ∃ tn ∈ sis.tabNameVec, row.tabhc = Tool.quickHashCode tn
  transSqlRel : ∀ row ∈ db.transSqlRel, ∃ tis, .clientExecTrans tis ∈ events ∧
    row.transhc = tis.transHashCode
  transinfo : ∀ row ∈ db.transinfo, ∃ tis, .clientExecTrans tis ∈ events ∧
    row.connhashcode = tis.connHashCode
  sqlExec : ∀ key ∈ db.sqlExec.map SqlExecRow.key, ∃ sis, .clientExecSql sis ∈ events ∧
    key = sis.execKey

/-- Every event has the rows that others refer to. -/
structure Complete (events : List DBDataT) (db : SqliteDB) : Prop where
  user : ∀ cit, .clientInfo cit ∈ events → cit.connHashCode ∈ db.user.map UserRow.connHashCode
  sqlExec : ∀ sis, .clientExecSql sis ∈ events → sis.execKey ∈ db.sqlExec.map SqlExecRow.key
  sql : ∀ sis, .clientExecSql sis ∈ events → sis.sqlHashCode ∈ db.sql.map SqlRow.hashcode
  sqltable : ∀ sis, .clientExecSql sis ∈ events → ∀ tn ∈ sis.tabNameVec,
    Tool.quickHashCode tn ∈ db.sqltable.map TableRow.hashcode
  transinfo : ∀ tis, .clientExecTrans tis ∈ events →
    tis.transHashCode ∈ db.transinfo.map TransInfoRow.transhashcode

variable {db after : SqliteDB} {events : List DBDataT}

/-- The loop over the tables changes two tables only. -/
theorem saveTables_spec (succeeds : Nat → Bool) (sqlhc : UInt32) (names : List Bytes) :
    ∀ calls (db : SqliteDB), let after := DBManager.saveTables succeeds sqlhc calls names db
      after.userSqlRel = db.userSqlRel ∧ after.transSqlRel = db.transSqlRel ∧
        after.transinfo = db.transinfo ∧ after.sqlExec = db.sqlExec ∧
        (∀ row ∈ after.sqlTableRel, row ∈ db.sqlTableRel ∨
          row.sqlhc = sqlhc ∧ ∃ tn ∈ names, row.tabhc = Tool.quickHashCode tn) ∧
        ((∀ n, succeeds n) → ∀ tn ∈ names,
          Tool.quickHashCode tn ∈ after.sqltable.map TableRow.hashcode) := by
  -- The induction follows the loop.
  induction names with
  | nil => exact fun _ db => ⟨rfl, rfl, rfl, rfl, fun row inside => Or.inl inside, by simp⟩
  | cons tn rest ih =>
    intro calls db
    let tt : TableRow := ⟨Tool.quickHashCode tn, tn⟩
    let next := (db.saveNewTable (succeeds calls) tt).saveSqlTableRel (succeeds (calls + 1))
      ⟨sqlhc, tt.hashcode⟩
    obtain ⟨users, transSqls, trans, execs, rels, tables⟩ := ih (calls + 2) next
    -- A round adds one row to each of the two tables at most.
    have other : next.userSqlRel = db.userSqlRel ∧ next.transSqlRel = db.transSqlRel ∧
        next.transinfo = db.transinfo ∧ next.sqlExec = db.sqlExec := by
      simp only [next, saveNewTable, saveSqlTableRel]
      split <;> split <;> exact ⟨rfl, rfl, rfl, rfl⟩
    have added : ∀ row ∈ next.sqlTableRel, row ∈ db.sqlTableRel ∨ row = ⟨sqlhc, tt.hashcode⟩ := by
      intro row inside
      have kept : (db.saveNewTable (succeeds calls) tt).sqlTableRel = db.sqlTableRel := by
        unfold saveNewTable
        split <;> rfl
      simp only [next, saveSqlTableRel] at inside
      split at inside
      · exact (mem_addNew id inside).imp_left fun old => kept ▸ old
      · exact Or.inl (kept ▸ inside)
    refine ⟨users.trans other.1, transSqls.trans other.2.1, trans.trans other.2.2.1,
      execs.trans other.2.2.2, ?_, ?_⟩
    · intro row inside
      rcases rels row inside with old | ⟨same, tn', member, named⟩
      · refine (added row old).imp_right fun new => ?_
        subst new
        exact ⟨rfl, tn, List.mem_cons_self, rfl⟩
      · exact Or.inr ⟨same, tn', List.mem_cons_of_mem tn member, named⟩
    · intro done tn' member
      rcases List.mem_cons.mp member with rfl | later
      · -- The table is stored in this round, and stays stored in the others.
        have stored : Tool.quickHashCode tn' ∈ next.sqltable.map TableRow.hashcode := by
          simp only [next, saveNewTable, saveSqlTableRel, done, if_true]
          exact key_mem_addNew TableRow.hashcode db.sqltable tt
        exact (kept_saveTables succeeds sqlhc rest (calls + 2) next).sqltable.mem_keys stored
      · exact tables done tn' later

/-- The loop over the statements of a transaction changes one table only. -/
theorem saveTransSqls_spec (succeeds : Nat → Bool) (transhc : UInt32) (codes : List UInt32) :
    ∀ calls (db : SqliteDB), let after := DBManager.saveTransSqls succeeds transhc calls codes db
      after.userSqlRel = db.userSqlRel ∧ after.sqlTableRel = db.sqlTableRel ∧
        after.transinfo = db.transinfo ∧ after.sqlExec = db.sqlExec ∧
        ∀ row ∈ after.transSqlRel, row ∈ db.transSqlRel ∨ row.transhc = transhc := by
  induction codes with
  | nil => exact fun _ db => ⟨rfl, rfl, rfl, rfl, fun row inside => Or.inl inside⟩
  | cons code rest ih =>
    intro calls db
    let next := db.saveTransSqlRel (succeeds calls) ⟨transhc, code⟩
    obtain ⟨users, rels, trans, execs, transSqls⟩ := ih (calls + 1) next
    have other : next.userSqlRel = db.userSqlRel ∧ next.sqlTableRel = db.sqlTableRel ∧
        next.transinfo = db.transinfo ∧ next.sqlExec = db.sqlExec := by
      simp only [next, saveTransSqlRel]
      split <;> exact ⟨rfl, rfl, rfl, rfl⟩
    refine ⟨users.trans other.1, rels.trans other.2.1, trans.trans other.2.2.1,
      execs.trans other.2.2.2, fun row inside => ?_⟩
    rcases transSqls row inside with old | same
    · simp only [next, saveTransSqlRel] at old
      split at old
      · exact (mem_addNew id old).imp_right fun new => congrArg TransSqlRelRow.transhc new
      · exact Or.inl old
    · exact Or.inr same

/-- More events may have come in. -/
theorem Origins.mono {more : List DBDataT} (origins : Origins events db)
    (sub : ∀ data ∈ events, data ∈ more) : Origins more db where
  userSqlRel row inside :=
    let ⟨usrs, member, same⟩ := origins.userSqlRel row inside
    ⟨usrs, sub _ member, same⟩
  sqlTableRel row inside :=
    let ⟨sis, member, same⟩ := origins.sqlTableRel row inside
    ⟨sis, sub _ member, same⟩
  transSqlRel row inside :=
    let ⟨tis, member, same⟩ := origins.transSqlRel row inside
    ⟨tis, sub _ member, same⟩
  transinfo row inside :=
    let ⟨tis, member, same⟩ := origins.transinfo row inside
    ⟨tis, sub _ member, same⟩
  sqlExec key inside :=
    let ⟨sis, member, same⟩ := origins.sqlExec key inside
    ⟨sis, sub _ member, same⟩

/-- An update leaves every execution under its key, and the other tables as they are. -/
theorem Origins.update (origins : Origins events db) (succeeds : Bool) (sett : SqlExecTabT) :
    Origins events (db.updateSqlExec succeeds sett) := by
  unfold updateSqlExec
  split
  · refine { origins with sqlExec := fun key inside => origins.sqlExec key ?_ }
    rw [List.map_map] at inside
    rw [List.map_congr_left] at inside
    · exact inside
    intro row _
    simp only [Function.comp_apply]
    split <;> rfl
  · exact origins

/-- The rows that an event adds come from that event. -/
theorem Origins.save (origins : Origins events db) (message : DBMessage) :
    Origins (events ++ [message.data]) (DBManager.save db message) := by
  have old := origins.mono fun data inside => List.mem_append_left [message.data] inside
  have new : message.data ∈ events ++ [message.data] := by simp
  obtain ⟨data, now, succeeds, plain⟩ := message
  dsimp only at old new ⊢
  cases data with
  | clientInfo cit =>
    simp only [DBManager.save, saveNewClient]
    split
    · exact { old with }
    · exact old
  | clientInfoUpdate cit =>
    simp only [DBManager.save, updateClientData]
    split
    · exact { old with }
    · exact old
  | clientAddSql usrs =>
    simp only [DBManager.save, saveClientSqlRel]
    split
    · refine { old with userSqlRel := fun row inside => ?_ }
      rcases List.mem_append.mp inside with before | added
      · exact old.userSqlRel row before
      · rw [List.mem_singleton.mp added]
        exact ⟨usrs, new, rfl, rfl, rfl⟩
    · exact old
  | clientExecSql sis =>
    dsimp only [DBManager.save]
    -- The two rows of the statement come before the loop over its tables.
    have execs : Origins (events ++ [.clientExecSql sis]) (db.saveSqlExecRecord (succeeds 0)
        ⟨sis.connHashCode, sis.sqlExecHashCode, 0, sis.execTime / 1000, false, false, 0⟩) := by
      simp only [saveSqlExecRecord]
      split
      · refine { old with sqlExec := fun key inside => ?_ }
        rw [List.map_append, List.mem_append] at inside
        rcases inside with before | added
        · exact old.sqlExec key before
        · exact ⟨sis, new, List.mem_singleton.mp added⟩
      · exact old
    generalize db.saveSqlExecRecord (succeeds 0) _ = middle at execs ⊢
    have mid : Origins (events ++ [.clientExecSql sis]) (middle.saveNewSql (succeeds 1)
        ⟨sis.sqlHashCode, sis.sql, asInt sis.tabCnt.toUInt32, asInt sis.queryType⟩) := by
      simp only [saveNewSql]
      split
      · exact { execs with }
      · exact execs
    generalize middle.saveNewSql (succeeds 1) _ = next at mid ⊢
    obtain ⟨users, transSqls, trans, execs, rels, _⟩ :=
      saveTables_spec succeeds sis.sqlHashCode sis.tabNameVec 2 next
    constructor
    · exact users ▸ mid.userSqlRel
    · intro row inside
      rcases rels row inside with before | ⟨named, tables⟩
      · exact mid.sqlTableRel row before
      · exact ⟨sis, new, named, tables⟩
    · exact transSqls ▸ mid.transSqlRel
    · exact trans ▸ mid.transinfo
    · exact execs ▸ mid.sqlExec
  | clientExecTrans tis =>
    dsimp only [DBManager.save]
    have mid : Origins (events ++ [.clientExecTrans tis]) (db.saveTransInfo (succeeds 0)
        ⟨tis.connHashCode, tis.transHashCode, (tis.startTime - tis.endTime).toUInt32,
          tis.startTime / 1000, tis.endTime / 1000⟩) := by
      simp only [saveTransInfo]
      split
      · refine { old with transinfo := fun row inside => ?_ }
        rcases List.mem_append.mp inside with before | added
        · exact old.transinfo row before
        · rw [List.mem_singleton.mp added]
          exact ⟨tis, new, rfl⟩
      · exact old
    generalize db.saveTransInfo (succeeds 0) _ = next at mid ⊢
    obtain ⟨users, rels, trans, execs, transSqls⟩ :=
      saveTransSqls_spec succeeds tis.transHashCode tis.sqlVec 1 next
    constructor
    · exact users ▸ mid.userSqlRel
    · exact rels ▸ mid.sqlTableRel
    · intro row inside
      rcases transSqls row inside with before | named
      · exact mid.transSqlRel row before
      · exact ⟨tis, new, named⟩
    · exact trans ▸ mid.transinfo
    · exact execs ▸ mid.sqlExec
  | clientExecSqlUpdateDatasize | clientExecSqlUpdateTrans | clientExecSqlUpdateRownum
  | clientExecSqlUpdateFail => exact old.update _ _

/-- What an event needs is there after it, if its statements succeed. -/
theorem Complete.save (complete : Complete events db) (message : DBMessage)
    (succeed : ∀ n, message.succeeds n = true) :
    Complete (events ++ [message.data]) (DBManager.save db message) := by
  have kept := kept_save db message
  -- What earlier events left stays; only the rows of the new event are to be found.
  have split : ∀ data, data ∈ events ++ [message.data] → data ∈ events ∨ data = message.data := by
    intro data inside
    simpa using inside
  constructor
  · intro cit inside
    rcases split _ inside with old | new
    · exact kept.user.subset (complete.user cit old)
    · simp [DBManager.save, ← new, saveNewClient, succeed]
  · intro sis inside
    rcases split _ inside with old | new
    · exact kept.sqlExec.subset (complete.sqlExec sis old)
    · have execs : ∀ middle : SqliteDB, sis.execKey ∈ (DBManager.saveTables message.succeeds
          sis.sqlHashCode 2 sis.tabNameVec middle).sqlExec.map SqlExecRow.key ↔
            sis.execKey ∈ middle.sqlExec.map SqlExecRow.key := by
        intro middle
        rw [(saveTables_spec message.succeeds sis.sqlHashCode sis.tabNameVec 2 middle).2.2.2.1]
      simp only [DBManager.save, ← new]
      rw [execs]
      simp [saveNewSql, saveSqlExecRecord, succeed, SqlExecTabT.insertDataSql, SqlExecRow.key,
        SqlInfoS.execKey]
  · intro sis inside
    rcases split _ inside with old | new
    · exact kept.sql.mem_keys (complete.sql sis old)
    · simp only [DBManager.save, ← new]
      refine (kept_saveTables _ _ _ _ _).sql.mem_keys ?_
      simp only [saveNewSql, succeed, if_true]
      exact key_mem_addNew SqlRow.hashcode _ _
  · intro sis inside tn named
    rcases split _ inside with old | new
    · exact kept.sqltable.mem_keys (complete.sqltable sis old tn named)
    · simp only [DBManager.save, ← new]
      exact (saveTables_spec message.succeeds sis.sqlHashCode sis.tabNameVec 2 _).2.2.2.2.2
        succeed tn named
  · intro tis inside
    rcases split _ inside with old | new
    · have there := complete.transinfo tis old
      exact (kept.transinfo.map TransInfoRow.transhashcode).subset there
    · simp only [DBManager.save, ← new]
      rw [(saveTransSqls_spec message.succeeds tis.transHashCode tis.sqlVec 1 _).2.2.1]
      simp [saveTransInfo, succeed]

/-- Both hold after all events of a queue. -/
theorem origins_saveAll (messages : List DBMessage) (origins : Origins events db) :
    Origins (events ++ eventsOf messages) (DBManager.saveAll db messages) := by
  induction messages generalizing db events with
  | nil => simpa [eventsOf, DBManager.saveAll] using origins
  | cons message rest ih => simpa [eventsOf, DBManager.saveAll] using ih (origins.save message)

theorem complete_saveAll (messages : List DBMessage) (complete : Complete events db)
    (succeed : ∀ message ∈ messages, ∀ n, message.succeeds n = true) :
    Complete (events ++ eventsOf messages) (DBManager.saveAll db messages) := by
  induction messages generalizing db events with
  | nil => simpa [eventsOf, DBManager.saveAll] using complete
  | cons message rest ih =>
    have later := ih (complete.save message (succeed message List.mem_cons_self))
      fun other inside => succeed other (List.mem_cons_of_mem message inside)
    simpa [eventsOf, DBManager.saveAll] using later

end SqliteDB

/-! ## What the server queues -/

/-- A client's statement comes after the execution that it names. -/
def Paired (events : List DBDataT) : Prop :=
  ∀ usrs, .clientAddSql usrs ∈ events → usrs.connHashcode ≠ 0 ∧ ∃ sis, .clientExecSql sis ∈ events ∧
    sis.execKey = (usrs.connHashcode, usrs.sqlexecHashcode) ∧ sis.sqlHashCode = usrs.sqlHashcode

theorem Paired.append {front back : List DBDataT} (before : Paired front) (after : Paired back) :
    Paired (front ++ back) := by
  intro usrs inside
  rcases List.mem_append.mp inside with old | new
  · obtain ⟨named, sis, there, same⟩ := before usrs old
    exact ⟨named, sis, List.mem_append_left back there, same⟩
  · obtain ⟨named, sis, there, same⟩ := after usrs new
    exact ⟨named, sis, List.mem_append_right front there, same⟩

/-- What begins two lists in a row begins the first, or goes on into the second. -/
theorem prefix_split {α : Type} {done front back : List α} (begins : done <+: front ++ back) :
    done <+: front ∨ ∃ more, more <+: back ∧ done = front ++ more := by
  rcases List.prefix_or_prefix_of_prefix begins (List.prefix_append front back) with short | long
  · exact Or.inl short
  · obtain ⟨more, rfl⟩ := long
    exact Or.inr ⟨more, (List.prefix_append_right_inj front).mp begins, rfl⟩

namespace Server

variable {s t u : Serving}

/-- A call's events are paired at each point of the queue. -/
structure Pairs (s t : Serving) : Prop where
  hashed : Hashed s.record → Hashed t.record
  dbData : Hashed s.record → ∃ added, t.dbData = s.dbData ++ added ∧
    ∀ done, done <+: added → Paired done

theorem Pairs.trans (first : Pairs s t) (second : Pairs t u) : Pairs s u := by
  refine ⟨fun hashed => second.hashed (first.hashed hashed), fun hashed => ?_⟩
  obtain ⟨front, same, before⟩ := first.dbData hashed
  obtain ⟨back, same', after⟩ := second.dbData (first.hashed hashed)
  refine ⟨front ++ back, by rw [same', same, List.append_assoc], fun done begins => ?_⟩
  rcases prefix_split begins with short | ⟨more, inside, rfl⟩
  · exact before done short
  · exact (before front (List.prefix_refl front)).append (after more inside)

/-- A quiet call that adds no statement of a client. -/
theorem Pairs.of_quiet (quiet : Quiet s t)
    (dbData : ∃ added, t.dbData = s.dbData ++ added ∧ ∀ usrs, .clientAddSql usrs ∉ added) :
    Pairs s t := by
  constructor
  · intro hashed sql view there
    rw [quiet.views.sqls] at there
    exact hashed sql view there
  · intro _
    obtain ⟨added, same, none⟩ := dbData
    exact ⟨added, same, fun done begins usrs inside => absurd (begins.subset inside) (none usrs)⟩

/-- A call that records no statement of a client. -/
theorem pairs_recorded {result : Record × Option DBDataT} (quiet : Quiet s (s.recorded result))
    (event : ∀ usrs, result.2 ≠ some (.clientAddSql usrs)) : Pairs s (s.recorded result) :=
  .of_quiet quiet ⟨result.2.toList, rfl, fun usrs inside => event usrs (Option.mem_toList.mp inside)⟩

/-- A call that adds no events. -/
theorem pairs_silent (quiet : Quiet s t) (same : t.dbData = s.dbData) : Pairs s t :=
  .of_quiet quiet ⟨[], by simp [same], fun _ => List.not_mem_nil⟩

/-- The event of a current execution is none of a client's statement. -/
theorem execEvent_ne {env : Env} {conn : Conn} {type : SqlExecS → DBDataT}
    {recvSize fail inTrans rowNum : UInt32} (differ : ∀ ses usrs, type ses ≠ .clientAddSql usrs)
    (usrs : ClientSqlRetS) :
    execEvent env conn type recvSize fail inTrans rowNum ≠ some (.clientAddSql usrs) := by
  unfold execEvent
  split
  · exact fun same => differ _ usrs (Option.some.inj same)
  · simp

/-- A saved entry has the hash that it is kept under. -/
theorem hashCode_savedSql {record : Record} {conn : Conn} {info : SqlInfo} (hashed : Hashed record)
    (filled : savedSql conn ((record.sqlInfoMap conn.record.sqlInfo.sqlHashCode).getD .new) =
      some info) : info.part.hashCode = conn.record.sqlInfo.sqlHashCode := by
  generalize there : (record.sqlInfoMap conn.record.sqlInfo.sqlHashCode).getD .new = old at filled
  unfold savedSql at filled
  by_cases blank : old.part.hashCode = 0
  · -- A blank entry is filled in.
    simp only [blank, if_true, Option.bind_eq_bind, Option.bind_eq_some_iff,
      Option.some.injEq] at filled
    obtain ⟨tables, _, same⟩ := filled
    rw [← same]
  · simp only [blank, if_false, Option.some.injEq] at filled
    rw [← filled]
    cases entry : record.sqlInfoMap conn.record.sqlInfo.sqlHashCode with
    | none =>
      rw [entry] at there
      exact absurd (there ▸ rfl) blank
    | some kept =>
      rw [entry] at there
      have view : record.sqlView conn.record.sqlInfo.sqlHashCode = some old.view := by
        rw [sqlView, entry, ← there]
        rfl
      exact (hashed _ _ view).resolve_left blank

/-- An execution, and maybe the statement of a client after it, are paired. -/
theorem paired_saved {sis : SqlInfoS} {event : Option DBDataT} {done : List DBDataT}
    (about : ∀ usrs, event = some (.clientAddSql usrs) → usrs.connHashcode ≠ 0 ∧
      sis.execKey = (usrs.connHashcode, usrs.sqlexecHashcode) ∧ sis.sqlHashCode = usrs.sqlHashcode)
    (begins : done <+: .clientExecSql sis :: event.toList) : Paired done := by
  intro usrs inside
  cases done with
  | nil => exact absurd inside List.not_mem_nil
  | cons first rest =>
    -- The execution is the first of the two.
    obtain ⟨rfl, later⟩ := List.cons_prefix_cons.mp begins
    rcases List.mem_cons.mp inside with same | added
    · exact absurd same (by simp)
    · obtain ⟨named, key, same⟩ := about usrs (Option.mem_toList.mp (later.subset added))
      exact ⟨named, sis, List.mem_cons_self, key, same⟩

/-- Saving a statement queues its execution, and then the client's statement. -/
theorem pairs_statSaveSql {env : Env} {sqlText : Bytes}
    (done : s.statSaveSql env sqlText = some t) : Pairs s t := by
  refine ⟨fun hashed => hashed_saved hashed (saved_statSaveSql done), fun hashed => ?_⟩
  simp only [Serving.statSaveSql, Option.bind_eq_bind, Option.bind_eq_some_iff, Prod.exists,
    Option.some.injEq] at done
  obtain ⟨record, conn, event, saved, rfl⟩ := done
  simp only [recordSqlInfoAddSql, Option.bind_eq_bind, Option.bind_eq_some_iff] at saved
  obtain ⟨info, filled, saved⟩ := saved
  have named := hashCode_savedSql hashed filled
  by_cases saving : env.statsUserDB = true
  · simp only [saving, not_true_eq_false, if_false, Option.bind_eq_some_iff, Option.some.injEq,
      Prod.mk.injEq] at saved
    obtain ⟨tables, _, rfl, rfl, rfl⟩ := saved
    refine ⟨_, List.append_assoc _ _ _, fun done begins => paired_saved ?_ begins⟩
    intro usrs added
    simp only [recordClientQueryAddSql] at added
    split at added
    · next current =>
      obtain rfl := DBDataT.clientAddSql.inj (Option.some.inj added)
      exact ⟨(UInt32.pos_iff_ne_zero).mp current.2.1, rfl, named⟩
    · exact absurd added (by simp)
  · -- Nothing is queued where events are not saved.
    obtain ⟨rfl, rfl, rfl⟩ := (by simpa [saving] using saved)
    refine ⟨[], ?_, fun done begins usrs inside => ?_⟩
    · simp [Serving.recorded, recordClientQueryAddSql, saving, Serving.updateSqlInfo,
        Serving.updateDoing]
    · exact absurd (begins.subset inside) List.not_mem_nil

theorem pairs_statExecuteSql (s : Serving) (env : Env) : Pairs s (s.statExecuteSql env) := by
  simp only [Serving.statExecuteSql]
  split
  · exact pairs_silent (quiet_updateDoing s _) rfl
  · have counted := (quiet_updateDoing s fun doing =>
      { doing with startQueryTime := env.millisecondTime, totalRow := 0 }).trans (quiet_executed _)
    split
    · refine Pairs.trans ?_
        (pairs_recorded (quiet_executedTran _ env) (execEvent_ne fun _ _ => by simp))
      exact pairs_silent (counted.trans (quiet_updateDoing _ _)) rfl
    · exact pairs_silent counted rfl

/-- Parsing a statement is not recorded. -/
theorem pairs_parseSql (s : Serving) (parsed : Option ParsedSql) :
    Pairs s (s.parseSql parsed).2 :=
  pairs_silent (quiet_parseSql s parsed) (by cases parsed <;> rfl)

theorem pairs_along (env : Env) : Along env Pairs where
  refl := fun s => pairs_silent (.refl s) rfl
  trans := .trans
  updateSqlInfo := fun s _ => pairs_silent (quiet_updateDoing s _) rfl
  parseSql := pairs_parseSql
  statSaveSql := pairs_statSaveSql
  statExecuteSql := fun s => pairs_statExecuteSql s env

/-- The events of a call are paired. -/
theorem pairs_run {call : Call} {env : Env} (ran : call.run env s = some t) : Pairs s t := by
  -- What is left are the calls that record something by themselves.
  by_cases composed : call.Composed
  · exact (pairs_along env).run composed ran
  have quiet := run_cases ran
  cases call with
  | statEndTrans isRollBack endTime =>
    obtain rfl := Option.some.inj ran
    refine .of_quiet quiet ?_
    simp only [Serving.statEndTrans]
    split
    · exact ⟨[], by simp [Serving.updateDoing], fun _ => List.not_mem_nil⟩
    · refine ⟨_, rfl, fun usrs inside => ?_⟩
      simp only [recordTransInfoEndTrans] at inside
      split at inside <;> simp at inside
  | statRecvFinishedRow rows =>
    obtain rfl := Option.some.inj ran
    exact .of_quiet quiet ⟨_, rfl, fun usrs inside =>
      execEvent_ne (fun _ _ => by simp) usrs (Option.mem_toList.mp inside)⟩
  | statExecuteErr =>
    obtain rfl := Option.some.inj ran
    exact .of_quiet quiet ⟨_, rfl, fun usrs inside =>
      execEvent_ne (fun _ _ => by simp) usrs (Option.mem_toList.mp inside)⟩
  | statReadFrontData length =>
    obtain rfl := Option.some.inj ran
    refine .of_quiet quiet ⟨_, rfl, fun usrs inside => ?_⟩
    simp only [recordClientQuerySendSize, sizeEvent] at inside
    split at inside <;> simp at inside
  | statReadBackendData length =>
    obtain rfl := Option.some.inj ran
    refine .of_quiet quiet ⟨_, List.append_assoc _ _ _, fun usrs inside => ?_⟩
    rcases List.mem_append.mp inside with first | second
    · simp only [recordClientQueryRecvSize, sizeEvent] at first
      split at first <;> simp at first
    · exact execEvent_ne (fun _ _ => by simp) usrs (Option.mem_toList.mp second)
  | statStartTrans | statRecvOneRow | setHandles =>
    obtain rfl := Option.some.inj ran
    exact pairs_silent quiet rfl
  | _ => exact absurd trivial composed

/-! ## The queue -/

variable {a b : Server}

/-- The events of the queue, without their connections. -/
def queue (s : Server) : List DBDataT := s.dbData.map (·.2)

/-- A client's row has been queued for a hash, if it is one. -/
def Rowed (events : List DBDataT) (hash : UInt32) : Prop :=
  hash ≠ 0 → ∃ cit, .clientInfo cit ∈ events ∧ cit.connHashCode = hash

/-- The events that others refer to are queued before them. -/
structure Referring (events : List DBDataT) : Prop where
  paired : Paired events
  rowed : ∀ data ∈ events, ∀ hash, data.joins = some hash → Rowed events hash

/-- The queue refers to itself at each of its points, and is ready for the connections' events. -/
structure Ready (s : Server) : Prop where
  referring : ∀ done, done <+: s.queue → Referring done
  accepted : ∀ id ns, s.accepted id = some ns → Rowed s.queue ns.connHashCode
  conns : ∀ id conn, s.conns id = some conn → Rowed s.queue conn.connectionHashcode

theorem Rowed.append {events : List DBDataT} {hash : UInt32} (rowed : Rowed events hash)
    (more : List DBDataT) : Rowed (events ++ more) hash := fun named =>
  let ⟨cit, inside, same⟩ := rowed named
  ⟨cit, List.mem_append_left more inside, same⟩

/-- The queue goes on with events that are paired and have their rows. -/
theorem referring_append {front back : List DBDataT}
    (before : ∀ done, done <+: front → Referring done)
    (paired : ∀ done, done <+: back → Paired done)
    (rowed : ∀ data ∈ back, ∀ hash, data.joins = some hash → Rowed front hash) :
    ∀ done, done <+: front ++ back → Referring done := by
  intro done begins
  rcases prefix_split begins with short | ⟨more, inside, rfl⟩
  · exact before done short
  · have whole := before front (List.prefix_refl front)
    refine ⟨whole.paired.append (paired more inside), fun data member hash joins => ?_⟩
    rcases List.mem_append.mp member with old | new
    · exact (whole.rowed data old hash joins).append more
    · exact (rowed data (inside.subset new) hash joins).append more

/-- A new client's row is queued, unless its hash is zero. -/
theorem rowed_addNewClient {record : Record} {env : Env} {connHashCode hashCode : UInt32}
    {caddress saddress : Bytes} {cport sport : UInt32} (saving : env.statsUserDB = true)
    (events : List DBDataT) :
    Rowed (events ++ (record.recordClientQueryAddNewClient env connHashCode hashCode caddress cport
      saddress sport).2.toList) connHashCode := by
  intro named
  have positive : ¬ connHashCode ≤ 0 := fun below => named (UInt32.le_zero_iff.mp below)
  refine ⟨⟨connHashCode, caddress, cport, saddress, sport, hashCode, env.millisecondTime, 0, 0⟩,
    List.mem_append_right events ?_, rfl⟩
  simp [recordClientQueryAddNewClient, saving, positive]

/-- The connection comes from the proxy, and its events are saved. -/
def Proxied : Step → Prop
  | .newConnection .. => False
  | step => step.Saving

instance : DecidablePred Proxied
  | .accept env .. => inferInstanceAs (Decidable (env.statsUserDB = true))
  | .newConnection .. => .isFalse id
  | .call _ env _ => inferInstanceAs (Decidable (env.statsUserDB = true))
  | .addTask _ | .allocServerFail _ | .finish .. | .clear => .isTrue trivial

/-- Every step keeps the queue ready. -/
theorem Ready.step {step : Step} (hashed : Hashed a.record) (ready : a.Ready)
    (proxied : Proxied step) (moved : a.next step = some b) : b.Ready := by
  cases step with
  | accept env address port listenAddr listenPort =>
    obtain rfl := Option.some.inj moved
    let hash := Tool.quickConnHashCode address port listenAddr listenPort env.millisecondTime
    let added := (a.record.recordClientQueryAddNewClient env hash (Tool.quickHashCode address)
      address port listenAddr listenPort).2.toList
    have grown : (a.acceptClientRequest env address port listenAddr listenPort).queue =
        a.queue ++ added := by
      simp [queue, acceptClientRequest, recorded, added, hash]
    -- The row refers to nothing.
    have alone : ∀ data ∈ added, data.joins = none ∧ ∀ usrs, data ≠ .clientAddSql usrs := by
      intro data inside
      obtain ⟨isRow, _, joins⟩ := addNewClient_row (Option.mem_toList.mp inside)
      refine ⟨joins, fun usrs same => ?_⟩
      rw [same] at isRow
      exact absurd isRow (by simp [DBDataT.row])
    constructor
    · rw [grown]
      refine referring_append ready.referring ?_ ?_
      · exact fun done begins usrs inside =>
          absurd rfl ((alone _ (begins.subset inside)).2 usrs)
      · intro data inside hash' joins
        rw [(alone data inside).1] at joins
        exact absurd joins (by simp)
    · intro other ns there
      rw [grown]
      by_cases self : other = a.made
      · subst self
        simp only [acceptClientRequest, recorded, Function.update_self, Option.some.injEq] at there
        subst there
        exact rowed_addNewClient proxied a.queue
      · refine (ready.accepted other ns ?_).append added
        simpa [acceptClientRequest, recorded, self] using there
    · intro other conn there
      rw [grown]
      exact (ready.conns other conn there).append added
  | addTask id =>
    obtain ⟨ns, waiting, same⟩ := Option.map_eq_some_iff.mp moved
    subst same
    refine ⟨ready.referring, fun other ns' there => ?_, fun other conn there => ?_⟩
    · by_cases self : other = id
      · simp [self] at there
      · exact ready.accepted other ns' (by simpa [self] using there)
    · by_cases self : other = id
      · subst self
        simp only [Function.update_self, Option.some.injEq] at there
        subst there
        exact ready.accepted other ns waiting
      · exact ready.conns other conn (by simpa [self] using there)
  | newConnection => exact proxied.elim
  | call id env call =>
    obtain ⟨conn, serving, there, ran, same⟩ := serve_spec moved
    subst same
    obtain ⟨added, same, paired⟩ := (pairs_run ran).dbData hashed
    have kept := kept_run ran
    rw [List.nil_append] at same
    have grown : ({ a with
        record := serving.record
        conns := Function.update a.conns id (some serving.conn)
        dbData := a.dbData ++ serving.dbData.map fun data => (id, data) } : Server).queue =
          a.queue ++ added := by
      simp [queue, same, Function.comp_def]
    have own := ready.conns id conn there
    constructor
    · rw [grown]
      refine referring_append ready.referring paired fun data inside hash joins => ?_
      -- What the call adds is of its own connection, whose row is there.
      obtain ⟨events, same', ofConn⟩ := kept.dbData
      rw [List.nil_append, same] at same'
      rw [(ofConn data (same' ▸ inside)).2 hash joins]
      exact own
    · intro other ns waiting
      rw [grown]
      exact (ready.accepted other ns waiting).append added
    · intro other conn' open'
      rw [grown]
      by_cases self : other = id
      · subst self
        simp only [Function.update_self, Option.some.injEq] at open'
        subst open'
        rw [kept.connectionHashcode]
        exact own.append added
      · exact (ready.conns other conn' (by simpa [self] using open')).append added
  | allocServerFail id =>
    obtain ⟨conn, _, same⟩ := Option.map_eq_some_iff.mp moved
    subst same
    exact ⟨ready.referring, ready.accepted, ready.conns⟩
  | finish id onLineTime =>
    obtain ⟨conn, _, same⟩ := Option.map_eq_some_iff.mp moved
    subst same
    refine ⟨ready.referring, ready.accepted, fun other conn' there => ?_⟩
    by_cases self : other = id
    · simp [self] at there
    · exact ready.conns other conn' (by simpa [self] using there)
  | clear =>
    obtain rfl := Option.some.inj moved
    exact ⟨ready.referring, ready.accepted, ready.conns⟩

/-- The server's runs whose connections come from the proxy, with their events saved. -/
def proxied : Runs.System Server Step := system.restrict fun _ step => Proxied step

theorem ready_of_reachable (reached : Runs.Reachable proxied a) : a.Ready := by
  refine Runs.Reachable.restrict_invariant (fun _ => hashed_of_reachable) ?_ ?_ reached
  · intro start begun
    subst begun
    refine ⟨fun done begins => ?_, fun _ _ there => ?_, fun _ _ there => ?_⟩
    · rw [List.prefix_nil.mp begins]
      exact ⟨fun _ inside => absurd inside List.not_mem_nil,
        fun _ inside => absurd inside List.not_mem_nil⟩
    · exact absurd there (by simp [new])
    · exact absurd there (by simp [new])
  · exact fun s step t hashed ready allowed moved => ready.step hashed allowed moved

end Server

/-! ## The rows -/

/-- Every row that another row refers to is there. -/
structure SqliteDB.Refers (db : SqliteDB) : Prop where
  userSqlRel : ∀ row ∈ db.userSqlRel,
    (row.connhc, row.sqlexechc) ∈ db.sqlExec.map SqlExecRow.key ∧
      row.sqlhc ∈ db.sql.map SqlRow.hashcode ∧ row.connhc ∈ db.user.map UserRow.connHashCode
  sqlTableRel : ∀ row ∈ db.sqlTableRel, row.sqlhc ∈ db.sql.map SqlRow.hashcode ∧
    row.tabhc ∈ db.sqltable.map TableRow.hashcode
  transSqlRel : ∀ row ∈ db.transSqlRel,
    row.transhc ∈ db.transinfo.map TransInfoRow.transhashcode
  /-- A connection whose hash is zero has no row. -/
  sqlExec : ∀ key ∈ db.sqlExec.map SqlExecRow.key, key.1 ≠ 0 →
    key.1 ∈ db.user.map UserRow.connHashCode
  transinfo : ∀ row ∈ db.transinfo, row.connhashcode ≠ 0 →
    row.connhashcode ∈ db.user.map UserRow.connHashCode

/-- Rows that come from events refer to what is there, if the events refer to each other. -/
theorem refers_of_referring {events : List DBDataT} {db : SqliteDB}
    (referring : Server.Referring events) (origins : db.Origins events)
    (complete : db.Complete events) : db.Refers := by
  have user : ∀ hash, Server.Rowed events hash → hash ≠ 0 →
      hash ∈ db.user.map UserRow.connHashCode := by
    intro hash rowed named
    obtain ⟨cit, inside, same⟩ := rowed named
    exact same ▸ complete.user cit inside
  constructor
  · intro row inside
    obtain ⟨usrs, member, conn, exec, sql⟩ := origins.userSqlRel row inside
    obtain ⟨named, sis, execMember, key, same⟩ := referring.paired usrs member
    rw [conn, exec, sql, ← key, ← same]
    refine ⟨complete.sqlExec sis execMember, complete.sql sis execMember, ?_⟩
    exact user _ (referring.rowed _ member _ rfl) named
  · intro row inside
    obtain ⟨sis, member, named, tn, table, hash⟩ := origins.sqlTableRel row inside
    rw [named, hash]
    exact ⟨complete.sql sis member, complete.sqltable sis member tn table⟩
  · intro row inside
    obtain ⟨tis, member, named⟩ := origins.transSqlRel row inside
    exact named ▸ complete.transinfo tis member
  · intro key inside named
    obtain ⟨sis, member, rfl⟩ := origins.sqlExec key inside
    exact user _ (referring.rowed _ member _ rfl) named
  · intro row inside named
    obtain ⟨tis, member, same⟩ := origins.transinfo row inside
    rw [same] at named ⊢
    exact user _ (referring.rowed _ member _ rfl) named

namespace Server

variable {s : Server} {messages : List DBMessage}

/-- A client comes through the proxy and saves a statement. -/
def proxiedOne : List Step :=
  [.accept savingEnv [49] 1 [50] 2, .addTask 0, .call 0 savingEnv (.saveSql [97])]

end Server

end OneProxy.Record
