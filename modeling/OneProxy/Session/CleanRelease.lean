import OneProxy.Session.Attribution
import OneProxy.Session.ReleaseLaws

/-! Which backends come back to the pool when a connection is released. -/

namespace OneProxy

open ConnectionPool Recording

/-- The parser recognises the beginning or the end of a transaction. -/
def ParsedSql.OfTrans (parsed : ParsedSql) : Prop :=
  parsed.isStartTrans = true ∨ parsed.isCommit = true ∨ parsed.isRollBack = true

namespace StatCall

/-- What the parser says of the statement that a call gives to it. -/
def parsed : StatCall → Option ParsedSql
  | parseSql parsed => parsed
  | statParseSql sqlText parsed => if sqlText.length = 0 then none else parsed
  | statParseAndStatSql parsed => parsed
  | _ => none

/-- The call leaves the connection in a transaction. -/
def OpensTrans (call : StatCall) : Prop :=
  call = .statStartTrans ∨ ∃ parsed, call.parsed = some parsed ∧ parsed.OfTrans

/-- The call reports the end of a transaction. -/
def EndsTrans (call : StatCall) : Prop := ∃ isRollBack, call = .statEndTrans isRollBack

end StatCall

/-- What was called while a connection was served, with the times of the calls. -/
abbrev History := List (UInt64 × StatCall)

namespace History

/-- The recording that a history leaves behind. -/
def run (history : History) (r : Recording) : Recording :=
  history.foldl (fun r step => step.2.run step.1 r) r

/-- A transaction was opened and not ended since. -/
def OpenTrans (history : History) : Prop :=
  ∃ earlier step later, history = earlier ++ step :: later ∧ step.2.OpensTrans ∧
    ∀ other ∈ later, ¬ other.2.EndsTrans

end History

/-- The connection is in a transaction. -/
def Recording.InTrans (r : Recording) : Prop := r.conn.record.type.inTrans

namespace Recording

variable {r : Recording}

/-- A statement of a transaction sets a type that means one. -/
theorem inTrans_parseSql_of_trans {parsed : ParsedSql} (ofTrans : parsed.OfTrans) :
    (r.parseSql (some parsed)).2.InTrans := by
  -- Whichever flag is asked first, each of the three types lies in the range.
  unfold ParsedSql.OfTrans at ofTrans
  simp only [InTrans, parseSql, updateRecord, updateSqlInfo]
  split
  · decide
  · split
    · decide
    · split
      · decide
      · simp_all

/-- Parsing takes no connection out of its transaction. -/
theorem inTrans_parseSql (parsed : Option ParsedSql) (within : r.InTrans) :
    (r.parseSql parsed).2.InTrans := by
  cases parsed with
  | none => exact within
  | some parsed =>
    by_cases ofTrans : parsed.OfTrans
    · exact inTrans_parseSql_of_trans ofTrans
    · -- A statement of no kind leaves the type as it is.
      simp only [ParsedSql.OfTrans, not_or, Bool.not_eq_true] at ofTrans
      obtain ⟨start, commit, rollBack⟩ := ofTrans
      simpa [InTrans, parseSql, updateRecord, updateSqlInfo, start, commit, rollBack] using within

/-- What leaves the type of the connection alone leaves it in its transaction. -/
theorem InTrans.of_type {after : Recording} (within : r.InTrans)
    (type : after.conn.record.type = r.conn.record.type) : after.InTrans := by
  unfold InTrans
  rw [type]
  exact within

theorem inTrans_statSaveSql (sqlText : Bytes) (within : r.InTrans) :
    (r.statSaveSql sqlText).InTrans := by
  apply within.of_type
  exact (statSaveSql_spec r sqlText).2.2.2.1

theorem inTrans_statExecuteSql (now : UInt64) (within : r.InTrans) :
    (r.statExecuteSql now).InTrans := by
  apply within.of_type
  exact type_statExecuteSql r now

end Recording

namespace StatCall

variable {call : StatCall} {now : UInt64} {r : Recording}

/-- A call that opens a transaction leaves the connection in one. -/
theorem inTrans_run_of_opens (opens : call.OpensTrans) : (call.run now r).InTrans := by
  -- A call opens a transaction by itself, or by the statement that it parses.
  obtain same | ⟨statement, given, ofTrans⟩ := opens
  · subst same
    show QueryType.transQuery.inTrans
    decide
  · cases call with
    | parseSql parsed =>
      have same : parsed = some statement := given
      subst same
      exact inTrans_parseSql_of_trans ofTrans
    | statParseSql sqlText parsed =>
      simp only [StatCall.parsed] at given
      split at given
      · contradiction
      · rename_i some'
        subst given
        simp only [run, Recording.statParseSql, if_neg some']
        exact inTrans_statSaveSql _ (inTrans_parseSql_of_trans ofTrans)
    | statParseAndStatSql parsed =>
      have same : parsed = some statement := given
      subst same
      apply inTrans_statExecuteSql
      apply inTrans_statSaveSql
      exact inTrans_parseSql_of_trans ofTrans
    | _ => simp [StatCall.parsed] at given

/-- Only the end of a transaction takes the connection out of it. -/
theorem inTrans_run (within : r.InTrans) (goesOn : ¬ call.EndsTrans) :
    (call.run now r).InTrans := by
  cases call with
  | parseSql parsed => exact inTrans_parseSql parsed within
  | statParseSql sqlText parsed =>
    simp only [run, Recording.statParseSql]
    split
    · exact within
    · split
      · exact inTrans_parseSql parsed within
      · exact inTrans_statSaveSql _ (inTrans_parseSql parsed within)
  | statParseAndStatSql parsed =>
    simp only [run, Recording.statParseAndStatSql]
    split
    · exact inTrans_parseSql parsed within
    · apply inTrans_statExecuteSql
      apply inTrans_statSaveSql
      exact inTrans_parseSql parsed within
  | statPreparedSql preparedHandle =>
    -- The statement is another one, and the transaction is the same.
    simp only [run, Recording.statPreparedSql]
    split
    · exact within
    · split
      · exact within
      · apply inTrans_statExecuteSql
        split
        · exact within
        · exact within
  | statStartTrans =>
    show QueryType.transQuery.inTrans
    decide
  | statEndTrans isRollBack => exact absurd ⟨isRollBack, rfl⟩ goesOn
  | statRecvFinishedRow rows =>
    apply within.of_type
    simp [run, Recording.statRecvFinishedRow, recordSqlInfoRecvResult, updateRecord]
  | statExecuteErr =>
    apply within.of_type
    simp [run, Recording.statExecuteErr, recordSqlInfoExecFail]
  | statReadBackendData received =>
    cases received with
    | none => exact within
    | some size =>
      apply within.of_type
      simp [run, Recording.statReadBackendData, recordSqlInfoRecvSize]
  | statRecvOneRow => exact within
  | setStatus status => exact within
  | setHandles manager => exact within

end StatCall

namespace History

/-- A connection stays in its transaction as long as nothing ends it. -/
theorem inTrans_run {history : History} {r : Recording} (within : r.InTrans)
    (goesOn : ∀ step ∈ history, ¬ step.2.EndsTrans) : (history.run r).InTrans := by
  induction history generalizing r with
  | nil => exact within
  | cons step rest ih =>
    have next := @StatCall.inTrans_run _ step.1 _ within (goesOn step (by simp))
    exact ih next fun other later => goesOn other (List.mem_cons_of_mem step later)

/-- After a transaction that was opened and not ended, the connection is in one. -/
theorem OpenTrans.inTrans {history : History} (unfinished : history.OpenTrans) (r : Recording) :
    (history.run r).InTrans := by
  obtain ⟨earlier, step, later, split, opens, goesOn⟩ := unfinished
  subst split
  have opened : (step.2.run step.1 (run earlier r)).InTrans := StatCall.inTrans_run_of_opens opens
  have rest := inTrans_run opened goesOn
  simpa only [run, List.foldl_append, List.foldl_cons] using rest

end History

namespace Release

/-- No backend has been dealt with twice, and one that was returned is forgotten. -/
structure Once (r : Release) : Prop where
  once : (r.returned ++ r.released).Nodup
  forgotten : ∀ slot ∈ r.returned, r.conn.sock.backend slot = none

variable {r : Release} {slot : BackendSlot}

/-- Returning a backend deals with it once. -/
theorem Once.giveBack (o : r.Once) (early : r.released = []) :
    (r.giveBack slot).Once ∧ (r.giveBack slot).released = [] := by
  cases held : r.conn.sock.backend slot with
  | none =>
    have same : r.conn.updateSock (·.setBackend slot none) = r.conn := by
      simp only [Connection.updateSock, SocketSet.setBackend_none _ _ held]
    simp only [Release.giveBack, held, same]
    exact ⟨o, early⟩
  | some ns =>
    simp only [Release.giveBack, held]
    split
    · exact ⟨⟨o.once, o.forgotten⟩, early⟩
    · -- What is still held has not been returned before.
      have fresh : slot ∉ r.returned := by
        intro again
        rw [o.forgotten slot again] at held
        contradiction
      have distinct : r.returned.Nodup := by
        have both := o.once
        rwa [early, List.append_nil] at both
      refine ⟨⟨?_, ?_⟩, early⟩
      · simp only [early, List.append_nil]
        refine List.nodup_append.mpr ⟨distinct, by simp, ?_⟩
        intro a there b last same
        have here : a = slot := by simpa [same] using last
        exact fresh (here ▸ there)
      · intro other there
        by_cases same : other = slot
        · subst same
          exact SocketSet.backend_setBackend _ _ _
        · have before : other ∈ r.returned := by simpa [same] using there
          simp only [Connection.updateSock]
          rw [SocketSet.backend_setBackend_of_ne _ _ _ same]
          exact o.forgotten other before

/-- Having a backend destroyed that was not destroyed before deals with it once. -/
theorem Once.letGo (o : r.Once) (before : slot ∉ r.released) :
    (r.letGo slot).Once ∧ ∀ other ∈ (r.letGo slot).released, other ∈ r.released ∨ other = slot := by
  cases held : r.conn.sock.backend slot with
  | none =>
    simp only [Release.letGo, held]
    exact ⟨o, fun other there => Or.inl there⟩
  | some ns =>
    -- A socket that is in the slot has not gone back to the pool.
    have kept : slot ∉ r.returned := by
      intro again
      rw [o.forgotten slot again] at held
      contradiction
    simp only [Release.letGo, held]
    refine ⟨⟨?_, o.forgotten⟩, ?_⟩
    · rw [← List.append_assoc]
      refine List.nodup_append.mpr ⟨o.once, by simp, ?_⟩
      intro a there b last same
      have here : a = slot := by simpa [same] using last
      subst here
      exact (List.mem_append.mp there).elim kept before
    · intro other there
      simpa using there

/-- Having a backend destroyed puts nothing into the pool. -/
theorem idleSock_letGo : (r.letGo slot).sk.pool.idleSock = r.sk.pool.idleSock ∧
    (r.letGo slot).returned = r.returned := by
  unfold Release.letGo
  split
  · exact ⟨rfl, rfl⟩
  · refine ⟨?_, rfl⟩
    simp only [releaseBackendSocket]
    split
    · rfl
    · split
      · rfl
      · rfl

/-- Destroying a backend that is not the pool's deals with none of the pool's. -/
theorem destroy_keeps : (r.destroy slot).sk.pool = r.sk.pool ∧
    (r.destroy slot).returned = r.returned ∧ (r.destroy slot).released = r.released := by
  unfold Release.destroy
  split
  · exact ⟨rfl, rfl, rfl⟩
  · exact ⟨rfl, rfl, rfl⟩

end Release

section

variable (sk : Sockets) (conn : Connection) (type : ConnFinishType)

/-- No release deals with a backend twice. -/
theorem release_once :
    ((protocolReleaseBackendConnect sk conn type).returned ++
      (protocolReleaseBackendConnect sk conn type).released).Nodup := by
  have start : (Release.mk sk conn (releaseType conn type) [] []).Once := ⟨by simp, by simp⟩
  simp only [protocolReleaseBackendConnect]
  split
  · -- First come the returns, of which the second is tried even if the first fails.
    have given : ∀ r : Release, r.Once → r.released = [] →
        ((r.giveBack .masters).giveBack .slavers).Once ∧
          ((r.giveBack .masters).giveBack .slavers).released = [] := by
      intro r once early
      obtain ⟨first, stillEarly⟩ := @Release.Once.giveBack r .masters once early
      exact first.giveBack stillEarly
    have gone : ∀ r : Release, r.Once → r.released = [] →
        ((r.letGo .masters).letGo .slavers).Once := by
      intro r once early
      obtain ⟨first, only⟩ := @Release.Once.letGo r .masters once (by simp [early])
      refine (first.letGo ?_).1
      intro there
      have here := only .slavers there
      simp [early] at here
    split
    · obtain ⟨once, early⟩ := given _ start rfl
      split
      · exact (gone _ once early).once
      · exact once.once
    · split
      · exact (gone _ start rfl).once
      · exact start.once
  · obtain ⟨_, returned, released⟩ := @Release.destroy_keeps
      (Release.destroy ⟨sk, conn, type, [], []⟩ .masters) .slavers
    obtain ⟨_, returnedFirst, releasedFirst⟩ := @Release.destroy_keeps
      ⟨sk, conn, type, [], []⟩ .masters
    simp [returned, released, returnedFirst, releasedFirst]

/-- After an error, a connection returns nothing to the pool. -/
theorem release_of_err (failed : releaseType conn type = .err) :
    (protocolReleaseBackendConnect sk conn type).sk.pool.idleSock = sk.pool.idleSock ∧
      (protocolReleaseBackendConnect sk conn type).returned = [] := by
  simp only [protocolReleaseBackendConnect, failed]
  split
  · obtain ⟨idle, returned⟩ := @Release.idleSock_letGo
      (Release.letGo ⟨sk, conn, .err, [], []⟩ .masters) .slavers
    obtain ⟨idleFirst, returnedFirst⟩ := @Release.idleSock_letGo
      ⟨sk, conn, .err, [], []⟩ .masters
    exact ⟨idle.trans idleFirst, returned.trans returnedFirst⟩
  · -- Without a pool the sockets are the connection's own.
    obtain ⟨pool, returned, _⟩ := @Release.destroy_keeps
      (Release.destroy ⟨sk, conn, type, [], []⟩ .masters) .slavers
    obtain ⟨poolFirst, returnedFirst, _⟩ := @Release.destroy_keeps
      ⟨sk, conn, type, [], []⟩ .masters
    exact ⟨congrArg idleSock (pool.trans poolFirst), returned.trans returnedFirst⟩

end

/-- An error of any kind makes the release one after an error. -/
theorem releaseType_err {conn : Connection} {type : ConnFinishType}
    (failed : conn.record.type.inTrans ∨ conn.status = .error ∨ type = .err) :
    releaseType conn type = .err := by
  unfold releaseType
  obtain within | status | finish := failed
  · rw [if_pos within]
  · simp [status]
  · simp [finish]

/--
Only clean backends come back to the pool, and each backend is dealt with at most once.

The connection may have come by any sockets and databases meanwhile.
-/
theorem clean_release (r : Recording) (history : History) (sock : SocketSet) (database : ConnDB)
    (sk : Sockets) (type : ConnFinishType) :
    let conn := { (history.run r).conn with sock := sock, database := database }
    let release := protocolReleaseBackendConnect sk conn type
    (history.OpenTrans ∨ conn.status = .error ∨ type = .err →
        release.sk.pool.idleSock = sk.pool.idleSock ∧ release.returned = []) ∧
      (release.returned ++ release.released).Nodup := by
  intro conn release
  refine ⟨?_, release_once sk conn type⟩
  intro failed
  apply release_of_err
  apply releaseType_err
  obtain unfinished | other := failed
  · exact Or.inl (unfinished.inTrans r)
  · exact Or.inr other

/-- The statement `begin`. -/
def beginSql : ParsedSql := ⟨[98, 101, 103, 105, 110], 0, [], true, false, false⟩

/-- A backend that is in use, and no other. -/
def oneUsed : Sockets where
  store := ⟨fun _ => { NetworkSocket.new [] 3306 with fd := 7 }, 1, [],
    fun _ => ⟨[], 3306, 1, 9, 0, true⟩⟩
  pool := { ConnectionPool.new 0 with usedSock :=
    (∅ : Std.TreeMap UInt32 SockInfo).insert 7 ⟨0, true, true, 0⟩ }

/-- A database whose connections are kept in the pool. -/
def pooled : ConnDB := ⟨some ⟨false, true, [0], [], false, false⟩, some 0, none, some 0⟩

/-- A client that goes away in its transaction: its backend does not come back to the pool. -/
theorem clean_release_begin :
    (protocolReleaseBackendConnect oneUsed
      { (History.run [(5, .parseSql (some beginSql))] ⟨fun _ => none, .new⟩).conn with
        sock := ⟨none, some 0, none, some 0⟩, database := pooled } .frontClose).returned = [] := by
  have opens : (StatCall.parseSql (some beginSql)).OpensTrans := Or.inr ⟨beginSql, rfl, Or.inl rfl⟩
  have unfinished : History.OpenTrans [(5, .parseSql (some beginSql))] :=
    ⟨[], _, [], rfl, opens, by simp⟩
  have clean := clean_release ⟨fun _ => none, .new⟩ [(5, .parseSql (some beginSql))]
    ⟨none, some 0, none, some 0⟩ pooled oneUsed .frontClose
  exact (clean.1 (Or.inl unfinished)).2

end OneProxy
