import OneProxy.Stats.CounterLaws
import OneProxy.Stats.Serving

/-! What a protocol's calls keep, and what the saving of a statement changes. -/

namespace OneProxy.Record

/-- What the entry of a statement says of it, but for its figures. -/
structure SqlView where
  hashCode : UInt32
  sqlText : Bytes
  clientSet : Finset UInt32

/-- What the entry of a client says of it, but for its figures. -/
structure ClientView where
  hashCode : UInt32
  ipAddr : Bytes
  sqlList : Finset UInt32

/-- The view of an entry. -/
def SqlInfo.view (info : SqlInfo) : SqlView := ⟨info.part.hashCode, info.sqlText, info.clientSet⟩

/-- The view of an entry. -/
def ClientQueryInfo.view (info : ClientQueryInfo) : ClientView :=
  ⟨info.part.hashCode, info.ipAddr, info.sqlList⟩

/-- The statements of a record. -/
def sqlView (record : Record) (hashCode : UInt32) : Option SqlView :=
  (record.sqlInfoMap hashCode).map SqlInfo.view

/-- The clients of a record. -/
def clientView (record : Record) (hashCode : UInt32) : Option ClientView :=
  (record.clientQueryMap hashCode).map ClientQueryInfo.view

/-- A record that only counts more than another. -/
structure SameViews (record after : Record) : Prop where
  sqls : after.sqlView = record.sqlView
  clients : after.clientView = record.clientView

variable {record after later : Record}

theorem SameViews.refl (record : Record) : SameViews record record := ⟨rfl, rfl⟩

theorem SameViews.trans (first : SameViews record after) (second : SameViews after later) :
    SameViews record later :=
  ⟨second.sqls.trans first.sqls, second.clients.trans first.clients⟩

/-- A change of entries behind a pointer keeps what it does not touch. -/
theorem map_adjustAt {ν δ : Type} {view : ν → δ} {f : ν → ν} (keeps : ∀ v, view (f v) = view v)
    (m : StdMap UInt32 ν) (pointer : Option UInt32) :
    (fun key => (m.adjustAt pointer f key).map view) = fun key => (m key).map view := by
  funext key
  cases pointer with
  | none => rfl
  | some target =>
    by_cases same : key = target
    · subst same
      cases there : m key with
      | none => simp [StdMap.adjustAt, there]
      | some v => simp [StdMap.adjustAt, there, keeps]
    · simp [StdMap.adjustAt, same]

theorem sameViews_updateClient {f : ClientQueryInfo → ClientQueryInfo}
    (keeps : ∀ info, (f info).view = info.view) (hashCode : UInt32) (clientInfo : Option UInt32) :
    SameViews record (record.updateClient hashCode clientInfo f) :=
  ⟨rfl, map_adjustAt keeps record.clientQueryMap (record.clientTarget hashCode clientInfo)⟩

theorem sameViews_countClient {f : ClientQueryInfoPart → ClientQueryInfoPart}
    (keeps : ∀ part, (f part).hashCode = part.hashCode) (hashCode : UInt32)
    (clientInfo : Option UInt32) : SameViews record (record.countClient hashCode clientInfo f) :=
  sameViews_updateClient
    (fun info => by simp [ClientQueryInfo.view, keeps info.part]) hashCode clientInfo

theorem sameViews_countSql {f : SqlInfoPart → SqlInfoPart}
    (keeps : ∀ part, (f part).hashCode = part.hashCode) (hashCode : UInt32)
    (sqlInfo : Option UInt32) : SameViews record (record.countSql hashCode sqlInfo f) :=
  ⟨map_adjustAt (fun info => by simp [SqlInfo.view, keeps info.part]) record.sqlInfoMap
    (record.sqlTarget hashCode sqlInfo), rfl⟩

/-- Counting a kind of statement keeps the client's hash. -/
theorem hashCode_countKind (type : UInt32) (part : ClientQueryInfoPart) :
    (countKind type part).hashCode = part.hashCode := by
  unfold countKind
  split
  · rfl
  · split
    · rfl
    · split
      · rfl
      · split <;> rfl

theorem sameViews_recordClientQueryExec (sqlHashCode clientAddressHashCode : UInt32)
    (clientInfo : Option UInt32) :
    SameViews record
      (record.recordClientQueryExec sqlHashCode clientAddressHashCode clientInfo) := by
  unfold recordClientQueryExec
  split
  · exact SameViews.refl record
  · exact sameViews_countClient (by intro part; exact hashCode_countKind _ _)
      clientAddressHashCode clientInfo

/-- The hash of the connection that an event joins on, if it is one of a row's later events. -/
def DBDataT.joins : DBDataT → Option UInt32
  | .clientInfoUpdate data => some data.connHashCode
  | .clientAddSql data => some data.connHashcode
  | .clientExecSql data => some data.connHashCode
  | .clientExecTrans data => some data.connHashCode
  | _ => none

/-- The hash of the connection in the row of a client. -/
def DBDataT.row : DBDataT → Option UInt32
  | .clientInfo data => some data.connHashCode
  | _ => none

/-- An event is no row, and joins on a connection's hash if on any. -/
def DBDataT.Of (hashCode : UInt32) (data : DBDataT) : Prop :=
  data.row = none ∧ ∀ joined, data.joins = some joined → joined = hashCode

/-- What every call keeps of a connection, and the events that it adds. -/
structure Kept (s t : Serving) : Prop where
  address : t.conn.address = s.conn.address
  addressHashCode : t.conn.addressHashCode = s.conn.addressHashCode
  clientInfo : t.conn.clientInfo = s.conn.clientInfo
  connectionHashcode : t.conn.connectionHashcode = s.conn.connectionHashcode
  dbData : ∃ added, t.dbData = s.dbData ++ added ∧
    ∀ data ∈ added, data.Of s.conn.connectionHashcode

/-- What a call keeps that saves no statement. -/
structure Quiet (s t : Serving) : Prop extends Kept s t where
  views : SameViews s.record t.record
  sqlInfo : t.conn.sqlInfo = s.conn.sqlInfo

variable {s t u : Serving}

theorem Kept.refl (s : Serving) : Kept s s :=
  ⟨rfl, rfl, rfl, rfl, [], by simp, by simp⟩

theorem Kept.trans (first : Kept s t) (second : Kept t u) : Kept s u := by
  obtain ⟨before, same, ofFirst⟩ := first.dbData
  obtain ⟨added, same', ofSecond⟩ := second.dbData
  refine ⟨second.address.trans first.address, second.addressHashCode.trans first.addressHashCode,
    second.clientInfo.trans first.clientInfo,
    second.connectionHashcode.trans first.connectionHashcode, before ++ added, ?_, ?_⟩
  · rw [same', same, List.append_assoc]
  · intro data member
    rw [first.connectionHashcode] at ofSecond
    exact (List.mem_append.mp member).elim (ofFirst data) (ofSecond data)

theorem Quiet.refl (s : Serving) : Quiet s s := ⟨Kept.refl s, SameViews.refl _, rfl⟩

theorem Quiet.trans (first : Quiet s t) (second : Quiet t u) : Quiet s u :=
  ⟨first.toKept.trans second.toKept, first.views.trans second.views,
    second.sqlInfo.trans first.sqlInfo⟩

/-- A call that only changes what the connection is doing. -/
theorem quiet_updateDoing (s : Serving) (f : DoingRecord → DoingRecord) :
    Quiet s (s.updateDoing f) :=
  ⟨⟨rfl, rfl, rfl, rfl, [], by simp [Serving.updateDoing], by simp⟩, SameViews.refl _, rfl⟩

/-- A call that only counts. -/
theorem quiet_record (views : SameViews s.record after) : Quiet s { s with record := after } :=
  ⟨⟨rfl, rfl, rfl, rfl, [], by simp, by simp⟩, views, rfl⟩

/-- A call that counts, and adds an event. -/
theorem quiet_recorded {result : Record × Option DBDataT} (views : SameViews s.record result.1)
    (event : ∀ data, result.2 = some data → data.Of s.conn.connectionHashcode) :
    Quiet s (s.recorded result) := by
  refine ⟨⟨rfl, rfl, rfl, rfl, result.2.toList, rfl, ?_⟩, views, rfl⟩
  intro data member
  exact event data (Option.mem_toList.mp member)

/-- The events of one execution are no rows. -/
theorem of_execEvent {env : Env} {conn : Conn} {type : SqlExecS → DBDataT}
    {recvSize fail inTrans rowNum : UInt32} (row : ∀ data, (type data).row = none)
    (joins : ∀ data, (type data).joins = none) (data : DBDataT)
    (added : execEvent env conn type recvSize fail inTrans rowNum = some data) :
    data.Of conn.connectionHashcode := by
  unfold execEvent at added
  split at added
  · simp only [Option.some.injEq] at added
    subst added
    exact ⟨row _, fun joined same => by simp [joins] at same⟩
  · simp at added

/-- The event of moved bytes carries the connection's hash. -/
theorem of_sizeEvent {env : Env} {conn : Conn} {hashCode : UInt32} {sendSize recvSize : UInt64}
    (data : DBDataT) (added : sizeEvent env conn hashCode sendSize recvSize = some data) :
    data.Of conn.connectionHashcode := by
  unfold sizeEvent at added
  split at added
  · simp only [Option.some.injEq] at added
    subst added
    exact ⟨rfl, fun joined same => (Option.some.inj same).symm⟩
  · simp at added

theorem quiet_parseSql (s : Serving) (parsed : Option ParsedSql) :
    Quiet s (s.parseSql parsed).2 := by
  cases parsed with
  | none => exact Quiet.refl s
  | some parsed =>
    simp only [Serving.parseSql]
    refine Quiet.trans ?_ (quiet_updateDoing _ _)
    exact quiet_updateDoing s _

/-- An execution is counted for the client, and for the statement. -/
theorem quiet_executed (s : Serving) :
    Quiet s { s with
      record := (s.record.recordClientQueryExec s.hash s.conn.addressHashCode
        s.conn.clientInfo).recordSqlInfoExec s.hash s.conn.sqlInfo } := by
  apply quiet_record
  refine (sameViews_recordClientQueryExec s.hash s.conn.addressHashCode s.conn.clientInfo).trans ?_
  exact sameViews_countSql (by intro _; rfl) s.hash s.conn.sqlInfo

/-- An execution within a transaction is counted. -/
theorem quiet_executedTran (s : Serving) (env : Env) :
    Quiet s (s.recorded (s.record.recordSqlInfoExecTran env s.conn s.hash s.conn.sqlInfo)) := by
  apply quiet_recorded
  · dsimp only [recordSqlInfoExecTran]
    apply sameViews_countSql
    intro _
    rfl
  · exact of_execEvent (fun _ => rfl) fun _ => rfl

theorem quiet_statExecuteSql (s : Serving) (env : Env) : Quiet s (s.statExecuteSql env) := by
  have begun := quiet_updateDoing s fun doing =>
    { doing with startQueryTime := env.millisecondTime, totalRow := 0 }
  simp only [Serving.statExecuteSql]
  split
  · exact begun
  · have counted := begun.trans (quiet_executed _)
    split
    · exact (counted.trans (quiet_updateDoing _ _)).trans (quiet_executedTran _ env)
    · exact counted

theorem quiet_statPreparedSql (s : Serving) (env : Env) (preparedHandle : UInt32) :
    Quiet s (s.statPreparedSql env preparedHandle).2 := by
  simp only [Serving.statPreparedSql]
  split
  · exact Quiet.refl s
  · rename_i backendHandle _
    have found := quiet_updateDoing s fun doing =>
      { doing with sqlInfo := { doing.sqlInfo with sqlHashCode := backendHandle.hashCode } }
    split
    · exact found
    · refine Quiet.trans ?_ (quiet_statExecuteSql _ env)
      split
      · exact found.trans (quiet_updateDoing _ _)
      · exact found

theorem quiet_statEndTrans (s : Serving) (env : Env) (isRollBack : Bool) (endTime : UInt64) :
    Quiet s (s.statEndTrans env isRollBack endTime) := by
  simp only [Serving.statEndTrans]
  refine Quiet.trans ?_ (quiet_updateDoing _ _)
  have begun := quiet_updateDoing s fun doing =>
    { doing with rollback := doing.rollback || isRollBack }
  split
  · exact begun
  · refine Quiet.trans (Quiet.trans begun ?_) (quiet_updateDoing _ _)
    apply quiet_recorded ⟨rfl, rfl⟩
    intro data added
    simp only [recordTransInfoEndTrans] at added
    split at added
    · simp only [Option.some.injEq] at added
      subst added
      exact ⟨rfl, fun joined same => (Option.some.inj same).symm⟩
    · simp at added

theorem quiet_statExecuteErr (s : Serving) (env : Env) : Quiet s (s.statExecuteErr env) := by
  have failed : Quiet s
      (s.recorded (s.record.recordSqlInfoExecFail env s.conn s.conn.sqlInfo)) := by
    apply quiet_recorded
    · dsimp only [recordSqlInfoExecFail]
      apply sameViews_countSql
      intro _
      rfl
    · exact of_execEvent (fun _ => rfl) fun _ => rfl
  refine failed.trans (quiet_record ?_)
  apply sameViews_updateClient
  intro _
  rfl

theorem quiet_statRecvFinishedRow (s : Serving) (env : Env) (rows : UInt32) :
    Quiet s (s.statRecvFinishedRow env rows) := by
  refine Quiet.trans ?_ (quiet_updateDoing _ _)
  apply quiet_recorded
  · dsimp only [recordSqlInfoRecvResult]
    apply sameViews_countSql
    intro _
    rfl
  · exact of_execEvent (fun _ => rfl) fun _ => rfl

theorem quiet_statReadFrontData (s : Serving) (env : Env) (length : UInt32) :
    Quiet s (s.statReadFrontData env length) := by
  apply quiet_recorded
  · dsimp only [recordClientQuerySendSize]
    apply sameViews_countClient
    intro _
    rfl
  · exact of_sizeEvent

/-- The bytes of an answer are counted for the client. -/
theorem quiet_received (s : Serving) (env : Env) (length : UInt32) :
    Quiet s (s.recorded (s.record.recordClientQueryRecvSize env s.conn s.conn.addressHashCode length
      s.conn.clientInfo)) := by
  apply quiet_recorded
  · dsimp only [recordClientQueryRecvSize]
    apply sameViews_countClient
    intro _
    rfl
  · exact of_sizeEvent

theorem quiet_statReadBackendData (s : Serving) (env : Env) (length : UInt32) :
    Quiet s (s.statReadBackendData env length) := by
  refine (quiet_received s env length).trans (quiet_recorded ?_ ?_)
  · dsimp only [recordSqlInfoRecvSize]
    apply sameViews_countSql
    intro _
    rfl
  · exact of_execEvent (fun _ => rfl) fun _ => rfl

/-! ## Saving a statement -/

/-- The view of a statement's entry once it is saved: one without a hash is filled in. -/
def filledView (conn : Conn) (sqlText : Bytes) (view : SqlView) : SqlView :=
  if view.hashCode = 0 then
    ⟨Tool.quickHashCode sqlText, sqlText, insert conn.addressHashCode view.clientSet⟩
  else view

/-- The view of an entry as `operator[]` makes it. -/
def blankView : SqlView := ⟨0, [], ∅⟩

/-- What saving a statement changes. -/
structure Saved (s t : Serving) (sqlText : Bytes) : Prop extends Kept s t where
  sqls : t.record.sqlView = Function.update s.record.sqlView (Tool.quickHashCode sqlText)
    (some (filledView s.conn sqlText
      ((s.record.sqlView (Tool.quickHashCode sqlText)).getD blankView)))
  clients : t.record.clientView = StdMap.adjustAt s.record.clientView
    (s.record.clientTarget s.conn.addressHashCode s.conn.clientInfo)
    fun view => { view with sqlList := insert (Tool.quickHashCode sqlText) view.sqlList }
  sqlInfo : t.conn.sqlInfo = some (Tool.quickHashCode sqlText)
  hash : t.hash = Tool.quickHashCode sqlText
  sqlText : t.conn.record.sqlInfo.sqlText = sqlText

/-- The view of a saved entry. -/
theorem view_of_savedSql {conn : Conn} {info saved : SqlInfo}
    (filled : savedSql conn info = some saved)
    (hashed : conn.record.sqlInfo.sqlHashCode = Tool.quickHashCode conn.record.sqlInfo.sqlText) :
    saved.view = filledView conn conn.record.sqlInfo.sqlText info.view := by
  unfold savedSql at filled
  unfold filledView
  by_cases blank : info.part.hashCode = 0
  · have blankView : info.view.hashCode = 0 := blank
    simp only [blank, if_true, Option.bind_eq_bind, Option.bind_eq_some_iff,
      Option.some.injEq] at filled
    obtain ⟨_, _, same⟩ := filled
    subst same
    simp [SqlInfo.view, hashed, blank]
  · have named : ¬ info.view.hashCode = 0 := blank
    simp only [blank, if_false, Option.some.injEq] at filled
    rw [if_neg named, ← filled]

/-- What `record_sqlInfoAddSql` leaves of the connection, and its event. -/
theorem recordSqlInfoAddSql_conn {env : Env} {conn conn' : Conn} {event : Option DBDataT}
    (saved : record.recordSqlInfoAddSql env conn = some (after, conn', event)) :
    (∃ execHash, conn' =
      { conn with sqlInfo := some conn.record.sqlInfo.sqlHashCode, currExecSqlHash := execHash }) ∧
    ∀ data, event = some data → data.Of conn.connectionHashcode := by
  -- Without events the hash of the last execution stays; with them it is a new one.
  simp only [recordSqlInfoAddSql, Option.bind_eq_bind, Option.bind_eq_some_iff] at saved
  obtain ⟨info, _, rest⟩ := saved
  split at rest
  · simp only [Option.some.injEq, Prod.mk.injEq] at rest
    obtain ⟨_, same, none⟩ := rest
    subst same none
    exact ⟨⟨conn.currExecSqlHash, rfl⟩, fun data added => by simp at added⟩
  · simp only [Option.bind_eq_some_iff, Option.some.injEq, Prod.mk.injEq] at rest
    obtain ⟨_, _, _, same, some⟩ := rest
    subst same some
    refine ⟨⟨_, rfl⟩, ?_⟩
    intro data added
    simp only [Option.some.injEq] at added
    subst added
    exact ⟨rfl, fun joined same => (Option.some.inj same).symm⟩

/-- The view of a record in which one statement's entry is new. -/
theorem sqlView_update (record : Record) (hashCode : UInt32) (info : SqlInfo) :
    { record with sqlInfoMap := Function.update record.sqlInfoMap hashCode (some info) }.sqlView =
      Function.update record.sqlView hashCode (some info.view) := by
  funext key
  by_cases same : key = hashCode
  · subst same
    simp [sqlView]
  · simp [sqlView, same]

/-- The view of a record in which a client's statements are more. -/
theorem clientView_updateClient {f : ClientQueryInfo → ClientQueryInfo}
    {g : ClientView → ClientView} (commutes : ∀ info, (f info).view = g info.view)
    (hashCode : UInt32) (clientInfo : Option UInt32) :
    (record.updateClient hashCode clientInfo f).clientView =
      StdMap.adjustAt record.clientView (record.clientTarget hashCode clientInfo) g := by
  funext key
  unfold updateClient clientView
  cases record.clientTarget hashCode clientInfo with
  | none => rfl
  | some target =>
    by_cases same : key = target
    · subst same
      cases there : record.clientQueryMap key with
      | none => simp [StdMap.adjustAt, there]
      | some info => simp [StdMap.adjustAt, there, commutes]
    · simp [StdMap.adjustAt, same]

/-- The view of an entry, or of the one that `operator[]` makes. -/
theorem view_getD (record : Record) (hashCode : UInt32) :
    ((record.sqlInfoMap hashCode).getD .new).view = (record.sqlView hashCode).getD blankView := by
  unfold sqlView
  cases record.sqlInfoMap hashCode <;> rfl

/-- The event of a client's statement carries the connection's hash. -/
theorem of_recordClientQueryAddSql {env : Env} {conn : Conn} {clientInfo : Option UInt32}
    (data : DBDataT) (added : (record.recordClientQueryAddSql env conn clientInfo).2 = some data) :
    data.Of conn.connectionHashcode := by
  simp only [recordClientQueryAddSql] at added
  split at added
  · simp only [Option.some.injEq] at added
    subst added
    exact ⟨rfl, fun joined same => (Option.some.inj same).symm⟩
  · simp at added

/-- `stat_saveSql` fills in the entry, points to it, and adds it to the client's statements. -/
theorem saved_statSaveSql {env : Env} {sqlText : Bytes}
    (done : s.statSaveSql env sqlText = some t) :
    Saved s t sqlText := by
  simp only [Serving.statSaveSql, Option.bind_eq_bind, Option.bind_eq_some_iff,
    Option.some.injEq] at done
  obtain ⟨⟨record, conn, event⟩, added, same⟩ := done
  subst same
  obtain ⟨info, filled, changed⟩ := sqlInfoMap_of_saved added
  obtain ⟨⟨execHash, pointed⟩, ofEvent⟩ := recordSqlInfoAddSql_conn added
  subst changed pointed
  have view := view_of_savedSql filled rfl
  rw [view_getD] at view
  constructor
  · -- Both events are of this connection.
    refine ⟨rfl, rfl, rfl, rfl, event.toList ++ _, List.append_assoc _ _ _, ?_⟩
    intro data member
    rcases List.mem_append.mp member with first | second
    · exact ofEvent data (Option.mem_toList.mp first)
    · have ofSecond := of_recordClientQueryAddSql data (Option.mem_toList.mp second)
      exact ofSecond
  · calc
      _ = _ := sqlView_update s.record (Tool.quickHashCode sqlText) info
      _ = _ := by rw [view]; rfl
  · exact clientView_updateClient (fun _ => rfl) s.conn.addressHashCode s.conn.clientInfo
  · rfl
  · rfl
  · rfl

/-- The text that a call saves, if it saves one. -/
def Call.saves : Call → Option Bytes
  | saveSql sqlText => some sqlText
  | statParseSql sqlText (some parsed) => if sqlText.length = 0 then none else some parsed.sqlText
  | statParseAndStatSql (some parsed) => some parsed.sqlText
  | _ => none

/-- Saving before or after quiet calls is saving. -/
theorem Saved.of_quiet {sqlText : Bytes} (before : Quiet s t) (saved : Saved t u sqlText) :
    Saved s u sqlText := by
  constructor
  · exact before.toKept.trans saved.toKept
  · rw [saved.sqls, before.views.sqls]
    unfold filledView
    rw [before.addressHashCode]
  · -- A quiet call neither moves the pointer nor removes the entry it falls back on.
    have target : t.record.clientTarget t.conn.addressHashCode t.conn.clientInfo =
        s.record.clientTarget s.conn.addressHashCode s.conn.clientInfo := by
      rw [before.addressHashCode, before.clientInfo]
      unfold clientTarget recordGetClientQueryInfo
      have there : (t.record.clientQueryMap s.conn.addressHashCode).isSome =
          (s.record.clientQueryMap s.conn.addressHashCode).isSome := by
        have same := congrFun before.views.clients s.conn.addressHashCode
        unfold clientView at same
        rw [← Option.isSome_map, same, Option.isSome_map]
      rw [there]
    rw [saved.clients, before.views.clients, target]
  · exact saved.sqlInfo
  · exact saved.hash
  · exact saved.sqlText

/-- What a call does: one that saves a text saves it, and any other is quiet. -/
theorem run_cases {call : Call} {env : Env} (ran : call.run env s = some t) :
    match call.saves with
    | some sqlText => ∃ u, Saved s u sqlText ∧ Quiet u t
    | none => Quiet s t := by
  cases call with
  | saveSql sqlText => exact ⟨t, saved_statSaveSql ran, Quiet.refl t⟩
  | statParseSql sqlText parsed =>
    obtain ⟨⟨ret, u⟩, done, same⟩ := Option.map_eq_some_iff.mp ran
    simp only at same
    subst same
    by_cases empty : sqlText.length = 0
    · simp only [Serving.statParseSql, empty, if_true, Option.some.injEq, Prod.mk.injEq] at done
      obtain ⟨_, rfl⟩ := done
      cases parsed <;> simpa [Call.saves, empty] using Quiet.refl s
    · simp only [Serving.statParseSql, empty, if_false] at done
      have parse := quiet_parseSql s parsed
      cases parsed with
      | none =>
        -- Nothing is saved of a statement that cannot be parsed.
        simp only [Serving.parseSql, ne_eq, Int.reduceNeg, reduceCtorEq, not_false_eq_true,
          if_true, Option.some.injEq, Prod.mk.injEq] at done
        obtain ⟨_, rfl⟩ := done
        exact Quiet.refl s
      | some parsed =>
        simp only [Call.saves, empty, if_false]
        obtain ⟨v, saved, same⟩ := Option.map_eq_some_iff.mp done
        obtain ⟨_, rfl⟩ := Prod.mk.inj same
        exact ⟨v, (saved_statSaveSql saved).of_quiet parse, Quiet.refl v⟩
  | statParseAndStatSql parsed =>
    obtain ⟨⟨ret, u⟩, done, same⟩ := Option.map_eq_some_iff.mp ran
    simp only at same
    subst same
    have cleared := quiet_updateDoing s fun doing =>
      { doing with sqlInfo := { doing.sqlInfo with sqlText := [] } }
    simp only [Serving.statParseAndStatSql] at done
    have parse := cleared.trans (quiet_parseSql _ parsed)
    cases parsed with
    | none =>
      simp only [Serving.parseSql, ne_eq, Int.reduceNeg, reduceCtorEq, not_false_eq_true, if_true,
        Option.some.injEq, Prod.mk.injEq] at done
      obtain ⟨_, rfl⟩ := done
      exact cleared
    | some parsed =>
      obtain ⟨v, savedAndExecuted, same⟩ := Option.map_eq_some_iff.mp done
      obtain ⟨_, rfl⟩ := Prod.mk.inj same
      obtain ⟨w, saved, executed⟩ := Option.map_eq_some_iff.mp savedAndExecuted
      subst executed
      exact ⟨w, (saved_statSaveSql saved).of_quiet parse, quiet_statExecuteSql w env⟩
  | _ =>
    simp only [Call.run, Option.some.injEq] at ran
    subst ran
    simp only [Call.saves]
    first
      | exact quiet_statExecuteSql s env
      | exact quiet_parseSql s _
      | exact quiet_statPreparedSql s env _
      | exact quiet_statEndTrans s env _ _
      | exact quiet_statRecvFinishedRow s env _
      | exact quiet_statExecuteErr s env
      | exact quiet_statReadFrontData s env _
      | exact quiet_statReadBackendData s env _
      | exact quiet_updateDoing s _
      | exact ⟨⟨rfl, rfl, rfl, rfl, [], by simp, by simp⟩, SameViews.refl _, rfl⟩

/-! ## Relations along a call -/

/-- A relation from what is before to what is after, along the parts that calls are made of. -/
structure Along (env : Env) (R : Serving → Serving → Prop) : Prop where
  refl : ∀ s, R s s
  trans : ∀ {s t u}, R s t → R t u → R s u
  updateSqlInfo : ∀ s f, R s (s.updateSqlInfo f)
  parseSql : ∀ s parsed, R s (s.parseSql parsed).2
  statSaveSql : ∀ {s t sqlText}, s.statSaveSql env sqlText = some t → R s t
  statExecuteSql : ∀ s, R s (s.statExecuteSql env)

variable {env : Env} {R : Serving → Serving → Prop} {ret : Int}

theorem Along.statParseSql (along : Along env R) {sqlText : Bytes} {parsed : Option ParsedSql}
    (done : s.statParseSql env sqlText parsed = some (ret, t)) : R s t := by
  simp only [Serving.statParseSql] at done
  split at done
  · obtain ⟨_, rfl⟩ := Prod.mk.inj (Option.some.inj done)
    exact along.refl s
  · split at done
    · obtain ⟨_, rfl⟩ := Prod.mk.inj (Option.some.inj done)
      exact along.parseSql s parsed
    · obtain ⟨v, saved, same⟩ := Option.map_eq_some_iff.mp done
      obtain ⟨_, rfl⟩ := Prod.mk.inj same
      exact along.trans (along.parseSql s parsed) (along.statSaveSql saved)

theorem Along.statParseAndStatSql (along : Along env R) {parsed : Option ParsedSql}
    (done : s.statParseAndStatSql env parsed = some (ret, t)) : R s t := by
  let cleared := s.updateSqlInfo fun sqlInfo => { sqlInfo with sqlText := [] }
  have begun : R s (cleared.parseSql parsed).2 :=
    along.trans (along.updateSqlInfo s _) (along.parseSql cleared parsed)
  simp only [Serving.statParseAndStatSql] at done
  split at done
  · obtain ⟨_, rfl⟩ := Prod.mk.inj (Option.some.inj done)
    exact begun
  · obtain ⟨v, savedAndExecuted, same⟩ := Option.map_eq_some_iff.mp done
    obtain ⟨_, rfl⟩ := Prod.mk.inj same
    obtain ⟨w, saved, rfl⟩ := Option.map_eq_some_iff.mp savedAndExecuted
    exact along.trans (along.trans begun (along.statSaveSql saved)) (along.statExecuteSql w)

theorem Along.statPreparedSql (along : Along env R) (s : Serving) (preparedHandle : UInt32) :
    R s (s.statPreparedSql env preparedHandle).2 := by
  unfold Serving.statPreparedSql
  split
  · exact along.refl s
  · simp only
    have named := fun hashCode =>
      along.updateSqlInfo s fun sqlInfo => { sqlInfo with sqlHashCode := hashCode }
    split
    · exact named _
    · -- The text is filled in if the statement has an entry.
      split
      · exact along.trans (along.trans (named _) (along.updateSqlInfo _ _))
          (along.statExecuteSql _)
      · exact along.trans (named _) (along.statExecuteSql _)

/-- The calls that are made of these parts. -/
def Call.Composed : Call → Prop
  | saveSql _ | executeSql | parseSql _ => True
  | statParseSql .. | statParseAndStatSql _ | statPreparedSql _ => True
  | _ => False

theorem Along.run (along : Along env R) {call : Call} (composed : call.Composed)
    (ran : call.run env s = some t) : R s t := by
  cases call with
  | saveSql sqlText => exact along.statSaveSql ran
  | executeSql =>
    obtain rfl := Option.some.inj ran
    exact along.statExecuteSql s
  | parseSql parsed =>
    obtain rfl := Option.some.inj ran
    exact along.parseSql s parsed
  | statParseSql sqlText parsed =>
    obtain ⟨⟨ret, u⟩, done, rfl⟩ := Option.map_eq_some_iff.mp ran
    exact along.statParseSql done
  | statParseAndStatSql parsed =>
    obtain ⟨⟨ret, u⟩, done, rfl⟩ := Option.map_eq_some_iff.mp ran
    exact along.statParseAndStatSql done
  | statPreparedSql preparedHandle =>
    obtain rfl := Option.some.inj ran
    exact along.statPreparedSql s preparedHandle
  | _ => exact composed.elim

end OneProxy.Record
