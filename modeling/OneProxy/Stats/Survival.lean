import OneProxy.Lib.Tracing
import OneProxy.Stats.ClientSql
import OneProxy.Stats.CounterLaws
import OneProxy.Stats.ServerLaws

/-! What the statistics count after a clear, and in which entries. -/

namespace OneProxy.Record

/-- What a run has made known since the last clear. -/
structure History where
  /-- The last client that connected under a hash. -/
  connected : UInt32 → Option Bytes
  /-- The first statement that was saved under a hash. -/
  saved : UInt32 → Option Bytes

namespace History

/-- Nothing is known. -/
def blank : History := ⟨fun _ => none, fun _ => none⟩

/-- A client connects. -/
def connect (h : History) (address : Bytes) : History :=
  { h with connected := Function.update h.connected (Tool.quickHashCode address) (some address) }

/-- A statement is saved; the first one under a hash stays. -/
def save (h : History) (sqlText : Bytes) : History :=
  let hash := Tool.quickHashCode sqlText
  { h with saved := Function.update h.saved hash (some ((h.saved hash).getD sqlText)) }

/-- What a step adds. -/
def note (h : History) : Step → History
  | .accept _ address _ _ _ => h.connect address
  | .newConnection _ _ address _ _ _ => h.connect address
  | .call _ _ call => call.saves.elim h h.save
  | .clear => blank
  | _ => h

end History

namespace Server

variable {s t : Server} {h : History}

/-- The server with what its run has made known. -/
def historySystem : Runs.System (Server × History) Step :=
  system.traced .blank fun _ step h => h.note step

/-- The entries say what is known since the last clear; the others have no hash. -/
structure Known (record : Record) (h : History) : Prop where
  connected : ∀ key address, h.connected key = some address →
    ∃ sqlList, record.clientView key = some ⟨key, address, sqlList⟩
  unconnected : ∀ key view, h.connected key = none → record.clientView key = some view →
    view.hashCode = 0
  saved : ∀ key sqlText, h.saved key = some sqlText → key ≠ 0 → Tool.quickHashCode sqlText = key ∧
    ∃ clientSet, record.sqlView key = some ⟨key, sqlText, clientSet⟩
  unsaved : ∀ key view, h.saved key = none → record.sqlView key = some view → view.hashCode = 0

theorem Known.same {record after : Record} (known : Known record h)
    (same : SameViews record after) : Known after h := by
  refine ⟨?_, ?_, ?_, ?_⟩
  · rw [same.clients]
    exact known.connected
  · rw [same.clients]
    exact known.unconnected
  · rw [same.sqls]
    exact known.saved
  · rw [same.sqls]
    exact known.unsaved

/-- A client that connects is known with its address. -/
theorem Known.connect {record : Record} (known : Known record h) (env : Env) (connHashCode : UInt32)
    (caddress : Bytes) (cport : UInt32) (saddress : Bytes) (sport : UInt32) :
    Known (record.recordClientQueryAddNewClient env connHashCode (Tool.quickHashCode caddress)
      caddress cport saddress sport).1 (h.connect caddress) := by
  -- Under the hash of the address there is an entry with this address now; the others stay.
  refine ⟨?_, ?_, known.saved, known.unsaved⟩
  · intro key address there
    rw [clientView_addNewClient]
    by_cases self : key = Tool.quickHashCode caddress
    · subst self
      simp only [History.connect, Function.update_self, Option.some.injEq] at there
      subst there
      exact ⟨_, Function.update_self _ _ _⟩
    · simp only [History.connect, Function.update_of_ne self] at there
      rw [Function.update_of_ne self]
      exact known.connected key address there
  · intro key view there
    rw [clientView_addNewClient]
    by_cases self : key = Tool.quickHashCode caddress
    · subst self
      simp [History.connect] at there
    · simp only [History.connect, Function.update_of_ne self] at there
      rw [Function.update_of_ne self]
      exact known.unconnected key view there

/-- A clear leaves nothing known. -/
theorem known_recordClear (record : Record) : Known record.recordClear .blank := by
  refine ⟨fun _ _ there => by simp [History.blank] at there, ?_,
    fun _ _ there => by simp [History.blank] at there, ?_⟩
  · intro key view _ there
    rw [clientView_recordClear, Option.map_eq_some_iff] at there
    obtain ⟨_, _, blank⟩ := there
    rw [← blank]
  · intro key view _ there
    rw [sqlView_recordClear, Option.map_eq_some_iff] at there
    obtain ⟨_, _, blank⟩ := there
    rw [← blank]
    rfl

/-- A call changes no client's hash and no client's address. -/
theorem clientView_saved {s t : Serving} {sqlText : Bytes} (saved : Saved s t sqlText)
    (key : UInt32) :
    ∃ grows : Finset UInt32 → Finset UInt32, t.record.clientView key =
      (s.record.clientView key).map fun view => { view with sqlList := grows view.sqlList } := by
  rw [saved.clients]
  cases s.record.clientTarget s.conn.addressHashCode s.conn.clientInfo with
  | none => exact ⟨id, by simp [StdMap.adjustAt]⟩
  | some target =>
    by_cases self : key = target
    · subst self
      exact ⟨insert (Tool.quickHashCode sqlText), by simp [StdMap.adjustAt]⟩
    · exact ⟨id, by simp [StdMap.adjustAt, self]⟩

/-- A statement that is saved is known. -/
theorem Known.save {s t : Serving} {sqlText : Bytes} (known : Known s.record h)
    (saved : Saved s t sqlText) : Known t.record (h.save sqlText) := by
  refine ⟨?_, ?_, ?_, ?_⟩
  · intro key address there
    obtain ⟨grows, view⟩ := clientView_saved saved key
    obtain ⟨sqlList, old⟩ := known.connected key address there
    exact ⟨grows sqlList, by rw [view, old]; rfl⟩
  · intro key view there new
    obtain ⟨grows, same⟩ := clientView_saved saved key
    rw [same, Option.map_eq_some_iff] at new
    obtain ⟨old, before, rfl⟩ := new
    exact known.unconnected key old there before
  · intro key text there named
    rw [saved.sqls]
    by_cases self : key = Tool.quickHashCode sqlText
    · subst self
      simp only [History.save, Function.update_self, Option.some.injEq] at there
      rw [Function.update_self]
      cases before : h.saved (Tool.quickHashCode sqlText) with
      | none =>
        -- The entry is new or has no hash, so that it is filled in.
        rw [before, Option.getD_none] at there
        subst there
        have blank : ((s.record.sqlView (Tool.quickHashCode sqlText)).getD blankView).hashCode =
            0 := by
          cases old : s.record.sqlView (Tool.quickHashCode sqlText) with
          | none => rfl
          | some view => exact known.unsaved _ view before old
        rw [filledView, if_pos blank]
        exact ⟨rfl, _, rfl⟩
      | some first =>
        obtain rfl : first = text := by simpa [before] using there
        obtain ⟨hashed, clientSet, old⟩ := known.saved _ _ before named
        refine ⟨hashed, clientSet, ?_⟩
        rw [old, Option.getD_some, filledView, if_neg named]
    · simp only [History.save, Function.update_of_ne self] at there
      rw [Function.update_of_ne self]
      exact known.saved key text there named
  · intro key view there new
    by_cases self : key = Tool.quickHashCode sqlText
    · subst self
      simp [History.save] at there
    · simp only [History.save, Function.update_of_ne self] at there
      rw [saved.sqls, Function.update_of_ne self] at new
      exact known.unsaved key view there new

/-- Every step makes known what it notes. -/
theorem Known.step {step : Step} (known : Known s.record h) (moved : s.next step = some t) :
    Known t.record (h.note step) := by
  -- What is noted of a step is what its events do to the entries.
  cases step with
  | accept env address port listenAddr listenPort =>
    obtain rfl := Option.some.inj moved
    exact known.connect env (Tool.quickConnHashCode address port listenAddr listenPort
      env.millisecondTime) address port listenAddr listenPort
  | addTask id =>
    obtain ⟨ns, _, same⟩ := Option.map_eq_some_iff.mp moved
    subst same
    exact known
  | newConnection env time address port saddress sport =>
    obtain rfl := Option.some.inj moved
    exact known.connect env time.toUInt32 address port saddress sport
  | call id env call =>
    obtain ⟨conn, serving, _, ran, same⟩ := serve_spec moved
    subst same
    have cases := run_cases ran
    cases saves : call.saves with
    | none =>
      rw [saves] at cases
      simpa [History.note, saves] using known.same cases.views
    | some sqlText =>
      rw [saves] at cases
      obtain ⟨u, saved, rest⟩ := cases
      have filled : Known u.record (h.save sqlText) := Known.save known saved
      simpa [History.note, saves] using filled.same rest.views
  | allocServerFail id => exact known.same (sameViews_allocServerFail moved)
  | finish id onLineTime => exact known.same (sameViews_finish moved)
  | clear =>
    obtain rfl := Option.some.inj moved
    exact known_recordClear s.record

/-- What a run has made known is in the entries. -/
theorem known_of_reachable (reached : Runs.Reachable historySystem (s, h)) : Known s.record h := by
  have invariant : ∀ p : Server × History, Runs.Reachable historySystem p →
      Known p.1.record p.2 := by
    intro p reached
    refine @Runs.Reachable.invariant _ _ _ (fun p : Server × History => Known p.1.record p.2) ?_ ?_
      p reached
    · intro start begun
      obtain ⟨empty, blank⟩ := begun
      rw [show start.1 = new from empty, blank]
      exact ⟨fun _ _ there => by simp [History.blank] at there,
        fun _ _ _ there => by simp [new, Record.new, clientView] at there,
        fun _ _ there => by simp [History.blank] at there,
        fun _ _ _ there => by simp [new, Record.new, sqlView] at there⟩
    · intro a step b known moved
      rw [moved.2]
      exact known.step moved.1
  exact invariant _ reached

end Server

/-- What is counted of an open connection: a statement's execution, or bytes. -/
inductive Count
  /-- `stat_parseAndStatSql` of a statement that can be parsed. -/
  | execute (parsed : ParsedSql)
  /-- `stat_preparedSql` of a handle that was prepared for a statement. -/
  | executePrepared (preparedHandle : UInt32) (sqlText : Bytes)
  /-- `stat_readFrontData`; the bytes of a client come before its statement is known. -/
  | upData (length : UInt32)
  /-- `stat_readBackendData` for the current statement, if there has been one. -/
  | downData (length : UInt32) (sqlText : Option Bytes)

namespace Count

/-- The call that counts. -/
def call : Count → Call
  | execute parsed => .statParseAndStatSql (some parsed)
  | executePrepared preparedHandle _ => .statPreparedSql preparedHandle
  | upData length => .statReadFrontData length
  | downData length _ => .statReadBackendData length

/-- The counter of the client, and what it goes up by. -/
def client : Count → ClientCounter × UInt64
  | execute _ | executePrepared _ _ => (.query, 1)
  | upData length => (.upData, length.toUInt64)
  | downData length _ => (.downData, length.toUInt64)

/-- The counter of the statement, and what it goes up by. -/
def sql : Count → SqlCounter × UInt64
  | execute _ | executePrepared _ _ => (.exec, 1)
  | upData length | downData length _ => (.recvSize, length.toUInt64)

/-- The statement that is counted. -/
def text : Count → Option Bytes
  | execute parsed => some parsed.sqlText
  | executePrepared _ sqlText => some sqlText
  | upData _ => none
  | downData _ sqlText => sqlText

/-- The connection has the handle for the statement, or the statement as its current one. -/
def Of (count : Count) (conn : Conn) : Prop :=
  match count with
  | execute _ | upData _ => True
  | executePrepared preparedHandle sqlText => ∃ backendHandle,
    conn.preparedCursorManager.getBackendHandleBasePrepared preparedHandle = some backendHandle ∧
      backendHandle.hashCode = Tool.quickHashCode sqlText
  | downData _ (some sqlText) => conn.record.sqlInfo.sqlHashCode = Tool.quickHashCode sqlText
  | downData _ none => conn.record.sqlInfo.sqlHashCode = 0

end Count

/-- The client's entry that a connection counts in is shown, has its address, and has counted. -/
def CountsClient (record after : Record) (conn : Conn) (figure : ClientCounter × UInt64) : Prop :=
  ∃ key info, record.clientTarget conn.addressHashCode conn.clientInfo = some key ∧
    after.clientQueryMap key = some info ∧ info.isShow ∧ info.ipAddr = conn.address ∧
    after.read (.client key figure.1) = record.read (.client key figure.1) + figure.2

/-- The statement's entry that a connection counts in is shown, has its text, and has counted. -/
def CountsSql (record after : Record) (conn : Conn) (sqlText : Bytes)
    (figure : SqlCounter × UInt64) : Prop :=
  ∃ key info, after.sqlTarget conn.record.sqlInfo.sqlHashCode conn.sqlInfo = some key ∧
    after.sqlInfoMap key = some info ∧ info.isShow ∧ info.sqlText = sqlText ∧
    after.read (.sql key figure.1) = record.read (.sql key figure.1) + figure.2

namespace Server

variable {s t : Server} {h : History}

/-- A connection's count is in entries that are shown with its address and the statement's text. -/
def ShowsCount (s t : Server) (id : Nat) (conn : Conn) (count : Count) : Prop :=
  CountsClient s.record t.record conn count.client ∧
    ∀ conn' sqlText, t.conns id = some conn' → count.text = some sqlText →
      CountsSql s.record t.record conn' sqlText count.sql

/-- The statement's entry is known, or will be, and is the one that the connection counts in. -/
def SqlRenewed (h : History) (conn : Conn) (sqlText : Bytes) : Count → Prop
  | .execute _ => h.saved (Tool.quickHashCode sqlText) = none ∨
      h.saved (Tool.quickHashCode sqlText) = some sqlText
  | _ => h.saved (Tool.quickHashCode sqlText) = some sqlText ∧
      (conn.sqlInfo = none ∨ conn.sqlInfo = some (Tool.quickHashCode sqlText))

/--
Since the last clear the client has connected, as the last one under its hash, and the statement of
the connection was saved, as the first one under its hash.
-/
def Renewed (h : History) (conn : Conn) (count : Count) : Prop :=
  (conn.addressHashCode ≠ 0 ∧ h.connected conn.addressHashCode = some conn.address) ∧
    ∀ sqlText, count.text = some sqlText →
      Tool.quickHashCode sqlText ≠ 0 ∧ SqlRenewed h conn sqlText count

end Server

/-! ## What the counting calls add -/

variable {record : Record}

/-- Executing a statement moves no pointer to statements. -/
theorem sqlInfoMap_recordClientQueryExec (sqlHashCode clientAddressHashCode : UInt32)
    (clientInfo : Option UInt32) :
    (record.recordClientQueryExec sqlHashCode clientAddressHashCode clientInfo).sqlInfoMap =
      record.sqlInfoMap := by
  unfold recordClientQueryExec
  split <;> rfl

/-- What is counted of a statement depends on the statements alone. -/
theorem sqlCounts_congr {after : Record} (same : after.sqlInfoMap = record.sqlInfoMap)
    (hashCode : UInt32) (sqlInfo : Option UInt32) (figures : List (SqlCounter × UInt64)) :
    after.sqlCounts hashCode sqlInfo figures = record.sqlCounts hashCode sqlInfo figures := by
  simp only [sqlCounts, sqlTarget, recordGetSqlInfo, same]

/-- What is counted of a statement is none of other counters. -/
theorem amount_sqlCounts_outside (record : Record) (hashCode : UInt32) (sqlInfo : Option UInt32)
    {figures : List (SqlCounter × UInt64)} {counter : Counter}
    (outside : ∀ key, ∀ figure ∈ figures, counter ≠ .sql key figure.1) :
    Ledger.amount (record.sqlCounts hashCode sqlInfo figures) counter = 0 := by
  unfold sqlCounts
  split
  · rename_i key _
    split
    · induction figures with
      | nil => rfl
      | cons figure rest ih =>
        have differ := outside key figure List.mem_cons_self
        have later := ih fun key figure member => outside key figure (List.mem_cons_of_mem _ member)
        simp only [Ledger.tagged, List.map_cons, Ledger.amount_cons, if_neg differ,
          zero_add] at later ⊢
        exact later
    · rfl
  · rfl

/-- What an execution adds to a counter that is not one of transactions. -/
theorem read_statExecuteSql {u : Serving} (env : Env) (named : u.hash ≠ 0) {counter : Counter}
    (plain : ∀ key, counter ≠ .sql key .trans) :
    (u.statExecuteSql env).record.read counter = u.record.read counter +
      Ledger.amount ((Event.clientQueryExec u.hash u.conn.addressHashCode u.conn.clientInfo).counts
        u.record) counter +
      Ledger.amount (u.record.sqlCounts u.hash u.conn.sqlInfo [(.exec, 1)]) counter := by
  let queried := u.record.recordClientQueryExec u.hash u.conn.addressHashCode u.conn.clientInfo
  let executed := queried.recordSqlInfoExec u.hash u.conn.sqlInfo
  have first : queried.read counter = _ :=
    @read_apply u.record _ (.clientQueryExec u.hash u.conn.addressHashCode u.conn.clientInfo) rfl
      counter
  have second : executed.read counter = queried.read counter +
      Ledger.amount (queried.sqlCounts u.hash u.conn.sqlInfo [(.exec, 1)]) counter :=
    @read_apply queried _ (.sqlInfoExec u.hash u.conn.sqlInfo) rfl counter
  rw [sqlCounts_congr (sqlInfoMap_recordClientQueryExec _ _ _), first] at second
  have positive : ¬ u.hash ≤ 0 := fun below => named (UInt32.le_zero_iff.mp below)
  have outcome : (u.statExecuteSql env).record = executed ∨
      (u.statExecuteSql env).record =
        (executed.recordSqlInfoExecTran env u.conn u.hash u.conn.sqlInfo).1 := by
    simp only [Serving.statExecuteSql]
    split
    · rename_i below
      exact absurd below positive
    · split
      · exact Or.inr rfl
      · exact Or.inl rfl
  rcases outcome with same | same
  · rw [same, second]
  · -- A statement in a transaction counts there as well.
    have third :=
      @read_apply executed _ (.sqlInfoExecTran env u.conn u.hash u.conn.sqlInfo) rfl counter
    have none_added : Ledger.amount ((Event.sqlInfoExecTran env u.conn u.hash
        u.conn.sqlInfo).counts executed) counter = 0 := by
      refine amount_sqlCounts_outside executed u.hash u.conn.sqlInfo ?_
      intro key figure member
      obtain rfl := List.mem_singleton.mp member
      exact plain key
    rw [same, third, none_added, second, add_zero]

/-- What is counted of a client whose entry is there. -/
theorem amount_clientCounts {hashCode key : UInt32} {clientInfo : Option UInt32}
    (target : record.clientTarget hashCode clientInfo = some key)
    (there : (record.clientQueryMap key).isSome) (figures : List (ClientCounter × UInt64))
    (counter : ClientCounter) :
    Ledger.amount (record.clientCounts hashCode clientInfo figures) (.client key counter) =
      Ledger.amount figures counter := by
  simp only [clientCounts, target, there, if_true]
  exact Ledger.amount_tagged (fun _ _ same => (Counter.client.inj same).2) figures counter

/-- What is counted of a statement whose entry is there. -/
theorem amount_sqlCounts {hashCode key : UInt32} {sqlInfo : Option UInt32}
    (target : record.sqlTarget hashCode sqlInfo = some key)
    (there : (record.sqlInfoMap key).isSome) (figures : List (SqlCounter × UInt64))
    (counter : SqlCounter) :
    Ledger.amount (record.sqlCounts hashCode sqlInfo figures) (.sql key counter) =
      Ledger.amount figures counter := by
  simp only [sqlCounts, target, there, if_true]
  exact Ledger.amount_tagged (fun _ _ same => (Counter.sql.inj same).2) figures counter

/-- The kind of a statement is counted apart from its execution. -/
theorem amount_kindCounts_query (type : UInt32) :
    Ledger.amount (kindCounts type) ClientCounter.query = 0 := by
  unfold kindCounts
  split
  · simp
  · split
    · simp
    · split
      · simp
      · split <;> simp

/-- What is counted of a client is no statement's. -/
theorem amount_clientCounts_sql (hashCode : UInt32) (clientInfo : Option UInt32)
    (figures : List (ClientCounter × UInt64)) (key : UInt32) (counter : SqlCounter) :
    Ledger.amount (record.clientCounts hashCode clientInfo figures) (.sql key counter) = 0 := by
  unfold clientCounts
  split
  · split
    · exact Ledger.amount_tagged_outside (by simp) figures
    · rfl
  · rfl

/-- An execution counts one query of the client. -/
theorem client_statExecuteSql {u : Serving} (env : Env) (named : u.hash ≠ 0) {key : UInt32}
    (target : u.record.clientTarget u.conn.addressHashCode u.conn.clientInfo = some key)
    (there : (u.record.clientQueryMap key).isSome)
    (statement : (u.record.sqlInfoMap u.hash).isSome) :
    (u.statExecuteSql env).record.read (.client key .query) =
      u.record.read (.client key .query) + 1 := by
  obtain ⟨info, entry⟩ := Option.isSome_iff_exists.mp statement
  have none_added : Ledger.amount (u.record.sqlCounts u.hash u.conn.sqlInfo [(.exec, 1)])
      (.client key .query) = 0 := amount_sqlCounts_outside _ _ _ (by simp)
  rw [read_statExecuteSql env named (by simp), none_added]
  simp only [Event.counts, entry]
  rw [amount_clientCounts target there, Ledger.amount_cons, amount_kindCounts_query]
  simp

/-- An execution counts once for the statement. -/
theorem sql_statExecuteSql {u : Serving} (env : Env) (named : u.hash ≠ 0) {key : UInt32}
    (target : u.record.sqlTarget u.hash u.conn.sqlInfo = some key)
    (there : (u.record.sqlInfoMap key).isSome) :
    (u.statExecuteSql env).record.read (.sql key .exec) = u.record.read (.sql key .exec) + 1 := by
  have none_added : Ledger.amount ((Event.clientQueryExec u.hash u.conn.addressHashCode
      u.conn.clientInfo).counts u.record) (.sql key .exec) = 0 := by
    simp only [Event.counts]
    split
    · exact amount_clientCounts_sql _ _ _ _ _
    · rfl
  rw [read_statExecuteSql env named (by simp), none_added, amount_sqlCounts target there]
  simp

/-- Executing keeps the hash of the statement. -/
theorem hash_statExecuteSql (u : Serving) (env : Env) : (u.statExecuteSql env).hash = u.hash := by
  simp only [Serving.statExecuteSql]
  split
  · rfl
  · split <;> rfl

/-- Saving counts nothing, and the statement is the current one afterwards. -/
theorem read_statSaveSql {s u : Serving} {env : Env} {sqlText : Bytes}
    (done : s.statSaveSql env sqlText = some u) :
    (∀ counter, u.record.read counter = s.record.read counter) ∧
      u.hash = Tool.quickHashCode sqlText := by
  simp only [Serving.statSaveSql, Option.bind_eq_bind, Option.bind_eq_some_iff,
    Option.some.injEq] at done
  obtain ⟨⟨record, conn, event⟩, added, same⟩ := done
  obtain ⟨⟨execHash, pointed⟩, _⟩ := recordSqlInfoAddSql_conn added
  subst same
  constructor
  · intro counter
    have listed := @read_apply record _ (.clientQueryAddSql env conn conn.clientInfo) rfl counter
    exact (listed.trans (add_zero _)).trans (read_recordSqlInfoAddSql added counter)
  · rw [pointed]
    rfl

/-- The execution of a statement that is parsed: it is saved, and executed after that. -/
theorem execute_spec {s t : Serving} {env : Env} {parsed : ParsedSql}
    (ran : (Call.statParseAndStatSql (some parsed)).run env s = some t) :
    ∃ u, Saved s u parsed.sqlText ∧ (∀ counter, u.record.read counter = s.record.read counter) ∧
      u.hash = Tool.quickHashCode parsed.sqlText ∧ t = u.statExecuteSql env := by
  obtain ⟨⟨ret, v⟩, done, same⟩ := Option.map_eq_some_iff.mp ran
  simp only at same
  subst same
  obtain ⟨w, savedAndExecuted, same⟩ := Option.map_eq_some_iff.mp done
  obtain ⟨_, rfl⟩ := Prod.mk.inj same
  obtain ⟨u, saved, executed⟩ := Option.map_eq_some_iff.mp savedAndExecuted
  obtain ⟨reads, hash⟩ := read_statSaveSql saved
  have cleared := quiet_updateDoing s fun doing =>
    { doing with sqlInfo := { doing.sqlInfo with sqlText := [] } }
  have parse := cleared.trans (quiet_parseSql _ (some parsed))
  exact ⟨u, (saved_statSaveSql saved).of_quiet parse, reads, hash, executed.symm⟩

/-- The execution of a prepared statement whose handle is found. -/
theorem executePrepared_spec {s : Serving} {env : Env} {preparedHandle : UInt32}
    {backendHandle : BackendHandle}
    (found : s.conn.preparedCursorManager.getBackendHandleBasePrepared preparedHandle =
      some backendHandle) (named : backendHandle.hashCode ≠ 0) :
    ∃ u, Quiet s u ∧ u.record = s.record ∧ u.hash = backendHandle.hashCode ∧
      (s.statPreparedSql env preparedHandle).2 = u.statExecuteSql env := by
  have positive : ¬ backendHandle.hashCode ≤ 0 := fun below => named (UInt32.le_zero_iff.mp below)
  let current := s.updateSqlInfo fun sqlInfo => { sqlInfo with sqlHashCode :=
    backendHandle.hashCode }
  have quiet : Quiet s current := quiet_updateDoing s _
  have hash : current.hash = backendHandle.hashCode := rfl
  simp only [Serving.statPreparedSql, found]
  -- The pointer of the connection stays where it was; only hash and text change.
  split
  · rename_i below
    exact absurd below positive
  · split
    · rename_i sqlInfo _
      exact ⟨current.updateSqlInfo fun current => { current with sqlText := sqlInfo.sqlText },
        quiet.trans (quiet_updateDoing current _), rfl, rfl, rfl⟩
    · exact ⟨current, quiet, rfl, rfl, rfl⟩

namespace Server

variable {s t : Server} {h : History} {after : Record} {conn : Conn}

/-! ## When the entries are shown -/

/-- An entry that counts a client says that the client has connected. -/
theorem connected_of_countsClient {figure : ClientCounter × UInt64} (known : Known after h)
    (target : record.clientTarget conn.addressHashCode conn.clientInfo = some conn.addressHashCode)
    (counts : CountsClient record after conn figure) :
    conn.addressHashCode ≠ 0 ∧ h.connected conn.addressHashCode = some conn.address := by
  obtain ⟨key, info, found, entry, shown, address, _⟩ := counts
  obtain rfl := Option.some.inj (target.symm.trans found)
  have view : after.clientView conn.addressHashCode = some info.view := by simp [clientView, entry]
  cases connected : h.connected conn.addressHashCode with
  | none => exact absurd (known.unconnected _ _ connected view) shown
  | some last =>
    obtain ⟨sqlList, same⟩ := known.connected _ _ connected
    have fields : info.view = ⟨conn.addressHashCode, last, sqlList⟩ :=
      Option.some.inj (view.symm.trans same)
    have hash : info.part.hashCode = conn.addressHashCode := congrArg ClientView.hashCode fields
    have last' : info.ipAddr = last := congrArg ClientView.ipAddr fields
    exact ⟨hash ▸ shown, by rw [← last', address]⟩

/-- A client that has connected is counted in an entry that says so. -/
theorem countsClient_of_connected {figure : ClientCounter × UInt64} (known : Known after h)
    (target : record.clientTarget conn.addressHashCode conn.clientInfo = some conn.addressHashCode)
    (named : conn.addressHashCode ≠ 0)
    (connected : h.connected conn.addressHashCode = some conn.address)
    (reads : after.read (.client conn.addressHashCode figure.1) =
      record.read (.client conn.addressHashCode figure.1) + figure.2) :
    CountsClient record after conn figure := by
  obtain ⟨sqlList, view⟩ := known.connected _ _ connected
  obtain ⟨info, entry, same⟩ := Option.map_eq_some_iff.mp view
  have hash : info.part.hashCode = conn.addressHashCode := congrArg ClientView.hashCode same
  have address : info.ipAddr = conn.address := congrArg ClientView.ipAddr same
  refine ⟨conn.addressHashCode, info, target, entry, ?_, address, reads⟩
  show info.part.hashCode ≠ 0
  rw [hash]
  exact named

/-- An entry that counts a statement says that the statement was the first one saved there. -/
theorem saved_of_countsSql {sqlText : Bytes} {figure : SqlCounter × UInt64} (known : Known after h)
    (hashed : Hashed after) (counts : CountsSql record after conn sqlText figure) :
    Tool.quickHashCode sqlText ≠ 0 ∧ h.saved (Tool.quickHashCode sqlText) = some sqlText ∧
      (conn.sqlInfo = none ∨ conn.sqlInfo = some (Tool.quickHashCode sqlText)) := by
  obtain ⟨key, info, found, entry, shown, text, _⟩ := counts
  have view : after.sqlView key = some info.view := by simp [sqlView, entry]
  -- A blank entry is not shown, whatever its key.
  have named : key ≠ 0 := by
    rintro rfl
    rcases hashed 0 info.view view with zero | zero <;> exact shown zero
  cases saved : h.saved key with
  | none => exact absurd (known.unsaved key info.view saved view) shown
  | some first =>
    obtain ⟨hash, clientSet, same⟩ := known.saved key first saved named
    have fields : info.view = ⟨key, first, clientSet⟩ := Option.some.inj (view.symm.trans same)
    have first' : info.sqlText = first := congrArg SqlView.sqlText fields
    obtain rfl : first = sqlText := first'.symm.trans text
    subst hash
    refine ⟨named, saved, ?_⟩
    cases pointer : conn.sqlInfo with
    | none => exact Or.inl rfl
    | some target =>
      rw [pointer] at found
      exact Or.inr found

/-- A statement that was saved is counted in an entry that says so. -/
theorem countsSql_of_saved {sqlText : Bytes} {figure : SqlCounter × UInt64} (known : Known after h)
    (named : Tool.quickHashCode sqlText ≠ 0)
    (saved : h.saved (Tool.quickHashCode sqlText) = some sqlText)
    (current : conn.record.sqlInfo.sqlHashCode = Tool.quickHashCode sqlText)
    (pointer : conn.sqlInfo = none ∨ conn.sqlInfo = some (Tool.quickHashCode sqlText))
    (reads : after.read (.sql (Tool.quickHashCode sqlText) figure.1) =
      record.read (.sql (Tool.quickHashCode sqlText) figure.1) + figure.2) :
    CountsSql record after conn sqlText figure := by
  obtain ⟨_, clientSet, view⟩ := known.saved _ _ saved named
  obtain ⟨info, entry, same⟩ := Option.map_eq_some_iff.mp view
  have hash : info.part.hashCode = Tool.quickHashCode sqlText := congrArg SqlView.hashCode same
  have text : info.sqlText = sqlText := congrArg SqlView.sqlText same
  refine ⟨Tool.quickHashCode sqlText, info, ?_, entry, ?_, text, reads⟩
  · -- Without a pointer the entry is looked up by the current hash.
    rcases pointer with none | some
    · simp [sqlTarget, none, recordGetSqlInfo, current, entry]
    · simp [sqlTarget, some]
  · show info.part.hashCode ≠ 0
    rw [hash]
    exact named

/-- The client's entry that an open connection counts in. -/
theorem Registered.clientTarget {id : Nat} (registered : s.Registered)
    (there : s.conns id = some conn) :
    s.record.clientTarget conn.addressHashCode conn.clientInfo = some conn.addressHashCode := by
  obtain ⟨_, entry, pointer⟩ := registered.conns id conn there
  rcases pointer with none | some
  · rw [none]
    exact recordGetClientQueryInfo_of_isSome entry
  · rw [some]
    rfl

/-- A counting call connects nobody. -/
theorem connected_note (h : History) (id : Nat) (env : Env) (call : Call) :
    (h.note (.call id env call)).connected = h.connected := by
  simp only [History.note]
  cases call.saves <;> rfl

/-- A count that executes no new statement saves none. -/
theorem quiet_count {env : Env} {count : Count} {s t : Serving}
    (ran : count.call.run env s = some t) (old : ∀ parsed, count ≠ .execute parsed) :
    count.call.saves = none ∧ Quiet s t := by
  have cases := run_cases ran
  cases count with
  | execute parsed => exact absurd rfl (old parsed)
  | executePrepared preparedHandle sqlText => exact ⟨rfl, cases⟩
  | upData length => exact ⟨rfl, cases⟩
  | downData length sqlText => exact ⟨rfl, cases⟩

/-- What is shown was renewed before. -/
theorem renewed_of_shows {id : Nat} {env : Env} {count : Count}
    (reached : Runs.Reachable historySystem (s, h)) (there : s.conns id = some conn)
    (moved : s.next (.call id env count.call) = some t) (shows_ : s.ShowsCount t id conn count) :
    Renewed h conn count := by
  have before : Runs.Reachable system s := reached.of_traced
  have known := (known_of_reachable reached).step moved
  have hashed := hashed_of_reachable (before.next moved)
  have target := (registered_of_reachable before).clientTarget there
  obtain ⟨conn', serving, open', ran, same⟩ := serve_spec moved
  obtain rfl := Option.some.inj (there.symm.trans open')
  subst same
  obtain ⟨client, sql⟩ := shows_
  constructor
  · have connected := connected_of_countsClient known target client
    rwa [connected_note] at connected
  · intro sqlText names
    obtain ⟨named, saved, pointer⟩ := saved_of_countsSql known hashed
      (sql serving.conn sqlText (Function.update_self _ _ _) names)
    refine ⟨named, ?_⟩
    cases count with
    | execute parsed =>
      obtain rfl : parsed.sqlText = sqlText := Option.some.inj names
      -- The first statement under the hash is this one, or there was none before.
      simp only [History.note, Count.call, Call.saves, Option.elim_some, History.save,
        Function.update_self, Option.some.injEq] at saved
      cases first : h.saved (Tool.quickHashCode parsed.sqlText) with
      | none => exact Or.inl first
      | some other =>
        rw [first, Option.getD_some] at saved
        exact Or.inr (saved ▸ first)
    | executePrepared preparedHandle text =>
      obtain ⟨_, quiet⟩ := quiet_count ran (by simp)
      exact ⟨saved, quiet.sqlInfo ▸ pointer⟩
    | upData length => simp [Count.text] at names
    | downData length text =>
      obtain ⟨_, quiet⟩ := quiet_count ran (by simp)
      exact ⟨saved, quiet.sqlInfo ▸ pointer⟩

/-- A new statement is counted with its client. -/
theorem shows_execute {id : Nat} {env : Env} {parsed : ParsedSql}
    (reached : Runs.Reachable historySystem (s, h)) (there : s.conns id = some conn)
    (moved : s.next (.call id env (Count.execute parsed).call) = some t)
    (renewed : Renewed h conn (.execute parsed)) : s.ShowsCount t id conn (.execute parsed) := by
  have before : Runs.Reachable system s := reached.of_traced
  have known := (known_of_reachable reached).step moved
  have registered := registered_of_reachable before
  have target := registered.clientTarget there
  have present := (registered.conns id conn there).2.1
  obtain ⟨conn', serving, open', ran, same⟩ := serve_spec moved
  obtain rfl := Option.some.inj (there.symm.trans open')
  subst same
  obtain ⟨u, saved, reads, hash, rfl⟩ := execute_spec ran
  have quiet := quiet_statExecuteSql u env
  obtain ⟨⟨address, connected⟩, statement⟩ := renewed
  obtain ⟨named, first⟩ := statement parsed.sqlText rfl
  have named' : u.hash ≠ 0 := hash ▸ named
  have entry : (u.record.sqlView u.hash).isSome := by
    rw [hash, saved.sqls, Function.update_self]
    rfl
  have statement' : (u.record.sqlInfoMap u.hash).isSome := by simpa [sqlView] using entry
  have client' : (u.record.clientQueryMap conn.addressHashCode).isSome := by
    simpa [clientView] using (stays_saved saved).clients _ present
  -- The save may have set a pointer, but to the entry of this statement.
  have target' : u.record.clientTarget u.conn.addressHashCode u.conn.clientInfo =
      some conn.addressHashCode := by
    rw [saved.addressHashCode, saved.clientInfo]
    rcases (registered.conns id conn there).2.2 with none | some
    · simp [clientTarget, none, recordGetClientQueryInfo, client']
    · simp [clientTarget, some]
  have pointed : u.record.sqlTarget u.hash u.conn.sqlInfo = some u.hash := by
    rw [saved.sqlInfo, hash]
    rfl
  constructor
  · refine countsClient_of_connected known target address ?_ ?_
    · rw [connected_note]
      exact connected
    · exact (client_statExecuteSql env named' target' client' statement').trans
        (congrArg (· + 1) (reads _))
  · intro conn' sqlText closed names
    obtain rfl : (u.statExecuteSql env).conn = conn' := by simpa using closed
    obtain rfl : parsed.sqlText = sqlText := Option.some.inj names
    refine countsSql_of_saved known named ?_ ((hash_statExecuteSql u env).trans hash)
      (Or.inr (quiet.sqlInfo.trans saved.sqlInfo)) ?_
    · simp only [History.note, Count.call, Call.saves, Option.elim_some, History.save,
        Function.update_self, Option.some.injEq]
      rcases first with none | same <;> simp [*]
    · rw [← hash]
      exact (sql_statExecuteSql env named' pointed statement').trans (congrArg (· + 1) (reads _))

/-- A prepared statement is counted with its client. -/
theorem shows_executePrepared {id : Nat} {env : Env} {preparedHandle : UInt32} {sqlText : Bytes}
    (reached : Runs.Reachable historySystem (s, h)) (there : s.conns id = some conn)
    (of : (Count.executePrepared preparedHandle sqlText).Of conn)
    (moved : s.next (.call id env (Count.executePrepared preparedHandle sqlText).call) = some t)
    (renewed : Renewed h conn (.executePrepared preparedHandle sqlText)) :
    s.ShowsCount t id conn (.executePrepared preparedHandle sqlText) := by
  have before : Runs.Reachable system s := reached.of_traced
  have known' := known_of_reachable reached
  have known := known'.step moved
  have registered := registered_of_reachable before
  have target := registered.clientTarget there
  have present := (registered.conns id conn there).2.1
  obtain ⟨conn', serving, open', ran, same⟩ := serve_spec moved
  obtain rfl := Option.some.inj (there.symm.trans open')
  subst same
  obtain ⟨⟨address, connected⟩, statement⟩ := renewed
  obtain ⟨named, first, pointer⟩ := statement sqlText rfl
  obtain ⟨backendHandle, found, prepared⟩ := of
  obtain ⟨u, begun, same, hash, executed⟩ := @executePrepared_spec ⟨s.record, conn, []⟩ env
    preparedHandle backendHandle found (prepared ▸ named)
  have record : u.record = s.record := same
  obtain rfl : (Serving.statPreparedSql ⟨s.record, conn, []⟩ env preparedHandle).2 = serving :=
    Option.some.inj ran
  rw [executed] at known ⊢
  have quiet := begun.trans (quiet_statExecuteSql u env)
  rw [prepared] at hash
  have named' : u.hash ≠ 0 := hash ▸ named
  have statement' : (u.record.sqlInfoMap u.hash).isSome := by
    obtain ⟨_, clientSet, view⟩ := known'.saved _ _ first named
    rw [record, hash]
    obtain ⟨info, entry, _⟩ := Option.map_eq_some_iff.mp view
    simp [entry]
  have client' : (u.record.clientQueryMap conn.addressHashCode).isSome := by
    rw [record]
    simpa [clientView] using present
  have target' : u.record.clientTarget u.conn.addressHashCode u.conn.clientInfo =
      some conn.addressHashCode := by
    rw [begun.addressHashCode, begun.clientInfo, record]
    exact target
  -- The pointer is still that of the statement executed before, if there was one.
  have pointed : u.record.sqlTarget u.hash u.conn.sqlInfo = some u.hash := by
    rw [begun.sqlInfo]
    rcases pointer with none | some
    · simp [sqlTarget, none, recordGetSqlInfo, statement']
    · simp [sqlTarget, some, hash]
  constructor
  · refine countsClient_of_connected known target address connected ?_
    rw [← record]
    exact client_statExecuteSql env named' target' client' statement'
  · intro conn' text closed names
    obtain rfl : (u.statExecuteSql env).conn = conn' := by simpa using closed
    obtain rfl : sqlText = text := Option.some.inj names
    refine countsSql_of_saved known named first ((hash_statExecuteSql u env).trans hash) ?_ ?_
    · rw [quiet.sqlInfo]
      exact pointer
    · rw [← hash, ← record]
      exact sql_statExecuteSql env named' pointed statement'

/-- The bytes of a client are counted. -/
theorem shows_upData {id : Nat} {env : Env} {length : UInt32}
    (reached : Runs.Reachable historySystem (s, h)) (there : s.conns id = some conn)
    (moved : s.next (.call id env (Count.upData length).call) = some t)
    (renewed : Renewed h conn (.upData length)) : s.ShowsCount t id conn (.upData length) := by
  -- Bytes concern the client only.
  have before : Runs.Reachable system s := reached.of_traced
  have known := (known_of_reachable reached).step moved
  have registered := registered_of_reachable before
  have target := registered.clientTarget there
  have present : (s.record.clientQueryMap conn.addressHashCode).isSome := by
    simpa [clientView] using (registered.conns id conn there).2.1
  obtain ⟨conn', serving, open', ran, same⟩ := serve_spec moved
  obtain rfl := Option.some.inj (there.symm.trans open')
  subst same
  obtain rfl := Option.some.inj ran
  obtain ⟨⟨address, connected⟩, _⟩ := renewed
  refine ⟨countsClient_of_connected known target address connected ?_, ?_⟩
  · have counted := @read_apply s.record
      _ (.clientQuerySendSize env conn conn.addressHashCode length
      conn.clientInfo) rfl (.client conn.addressHashCode .upData)
    simp only [Event.counts] at counted
    rw [amount_clientCounts target present, Ledger.amount_cons, Ledger.amount_nil, if_pos rfl,
      add_zero] at counted
    exact counted
  · intro conn' sqlText _ names
    simp [Count.text] at names

/-- The bytes of a backend are counted with the current statement. -/
theorem shows_downData {id : Nat} {env : Env} {length : UInt32} {sqlText : Option Bytes}
    (reached : Runs.Reachable historySystem (s, h)) (there : s.conns id = some conn)
    (of : (Count.downData length sqlText).Of conn)
    (moved : s.next (.call id env (Count.downData length sqlText).call) = some t)
    (renewed : Renewed h conn (.downData length sqlText)) :
    s.ShowsCount t id conn (.downData length sqlText) := by
  have before : Runs.Reachable system s := reached.of_traced
  have known' := known_of_reachable reached
  have known := known'.step moved
  have registered := registered_of_reachable before
  have target := registered.clientTarget there
  have present : (s.record.clientQueryMap conn.addressHashCode).isSome := by
    simpa [clientView] using (registered.conns id conn there).2.1
  obtain ⟨conn', serving, open', ran, same⟩ := serve_spec moved
  obtain rfl := Option.some.inj (there.symm.trans open')
  subst same
  obtain rfl := Option.some.inj ran
  obtain ⟨⟨address, connected⟩, statement⟩ := renewed
  let received := (s.record.recordClientQueryRecvSize env conn conn.addressHashCode length
    conn.clientInfo).1
  let hash := conn.record.sqlInfo.sqlHashCode
  -- The client's bytes are counted first, then the statement's.
  have first : ∀ counter, received.read counter = s.record.read counter +
      Ledger.amount (s.record.clientCounts conn.addressHashCode conn.clientInfo
        [(.downData, length.toUInt64)]) counter := fun counter =>
    @read_apply s.record
      _ (.clientQueryRecvSize env conn conn.addressHashCode length conn.clientInfo)
      rfl counter
  have second : ∀ counter, (received.recordSqlInfoRecvSize env conn hash length
      conn.sqlInfo).1.read counter = received.read counter +
        Ledger.amount (s.record.sqlCounts hash conn.sqlInfo [(.recvSize, length.toUInt64)])
            counter :=
    fun counter =>
      @read_apply received _ (.sqlInfoRecvSize env conn hash length conn.sqlInfo) rfl counter
  constructor
  · refine countsClient_of_connected known target address connected ?_
    have counted := second (.client conn.addressHashCode .downData)
    rw [amount_sqlCounts_outside _ _ _ (by simp), add_zero, first,
      amount_clientCounts target present, Ledger.amount_cons, Ledger.amount_nil, if_pos rfl,
      add_zero] at counted
    exact counted
  · intro conn' text closed names
    have same : (Serving.statReadBackendData ⟨s.record, conn, []⟩ env length).conn = conn' := by
      simpa using closed
    obtain rfl : conn = conn' := same
    obtain rfl : sqlText = some text := names
    have current : hash = Tool.quickHashCode text := of
    obtain ⟨named, saved, pointer⟩ := statement text rfl
    refine countsSql_of_saved known named saved current pointer ?_
    obtain ⟨_, clientSet, view⟩ := known'.saved _ _ saved named
    obtain ⟨info, entry, _⟩ := Option.map_eq_some_iff.mp view
    have target' : s.record.sqlTarget hash conn.sqlInfo = some (Tool.quickHashCode text) := by
      rcases pointer with none | some
      · simp [sqlTarget, none, recordGetSqlInfo, current, entry]
      · simp [sqlTarget, some]
    have counted := second (.sql (Tool.quickHashCode text) .recvSize)
    rw [amount_sqlCounts target' (by simp [entry]), first, amount_clientCounts_sql, add_zero,
      Ledger.amount_cons, Ledger.amount_nil, if_pos rfl, add_zero] at counted
    exact counted

/--
A count of an open connection is in entries that are shown with its address and its statement
exactly if the client has connected, and the statement was saved, since the last clear.
-/
theorem shows_iff {id : Nat} {env : Env} {count : Count}
    (reached : Runs.Reachable historySystem (s, h)) (there : s.conns id = some conn)
    (of : count.Of conn) (moved : s.next (.call id env count.call) = some t) :
    s.ShowsCount t id conn count ↔ Renewed h conn count := by
  constructor
  · exact renewed_of_shows reached there moved
  · intro renewed
    -- One lemma for each figure.
    cases count with
    | execute parsed => exact shows_execute reached there moved renewed
    | executePrepared preparedHandle sqlText =>
      exact shows_executePrepared reached there of moved renewed
    | upData length => exact shows_upData reached there moved renewed
    | downData length sqlText => exact shows_downData reached there of moved renewed

/--
In every run with its clears, a count of an open connection is in entries that are shown with its
address and its statement exactly if, since the last clear, the client has connected as the last
one under its hash and the statement was saved as the first one under its hash.
-/
theorem survives_clear_iff {id : Nat} {env : Env} {count : Count}
    (reached : Runs.Reachable historySystem (s, h)) (there : s.conns id = some conn)
    (of : count.Of conn) (moved : s.next (.call id env count.call) = some t) :
    s.ShowsCount t id conn count ↔ Renewed h conn count :=
  shows_iff reached there of moved

/-- The execution of a new statement. -/
def newStatement : Count := .execute ⟨[97], 0, [], false, false, false⟩

/-- What a list of steps leaves, with what it makes known. -/
def known (steps : List Step) : Option (Server × History) :=
  Runs.exec (Runs.noteStep next fun _ step h => h.note step) (new, .blank) steps

/-- What is left with what is known is reachable. -/
theorem reachable_of_known {steps : List Step} {p : Server × History}
    (done : known steps = some p) :
    Runs.Reachable historySystem p := by
  have start : Runs.Reachable historySystem (new, .blank) := Runs.Reachable.start ⟨rfl, rfl⟩
  exact Runs.reachable_of_noteStep start done

/-- A client runs a statement. -/
theorem survives_clear_firstClient :
    ∃ p conn t, known [firstClient] = some p ∧ p.1.conns 0 = some conn ∧
      p.1.next (.call 0 quietEnv newStatement.call) = some t ∧
      (p.1.ShowsCount t 0 conn newStatement ↔ Renewed p.2 conn newStatement) := by
  have run : ((known [firstClient]).bind fun p => (p.1.conns 0).bind fun conn =>
      (p.1.next (.call 0 quietEnv newStatement.call)).map fun _ => ()).isSome := by decide +kernel
  simp only [Option.isSome_iff_exists, Option.bind_eq_some_iff, Option.map_eq_some_iff] at run
  obtain ⟨_, p, done, conn, there, t, moved, _⟩ := run
  exact ⟨p, conn, t, done, there, moved,
    survives_clear_iff (reachable_of_known done) there trivial moved⟩

/-- A client connects, the statistics are cleared, and the client runs a statement. -/
theorem cleared_not_shown :
    ∃ p conn t, known [firstClient, .clear] = some p ∧ p.1.conns 0 = some conn ∧
      p.1.next (.call 0 quietEnv newStatement.call) = some t ∧
      ¬ p.1.ShowsCount t 0 conn newStatement := by
  have run : ((known [firstClient, .clear]).bind fun p => (p.1.conns 0).bind fun conn =>
      (p.1.next (.call 0 quietEnv newStatement.call)).map fun _ =>
        p.2.connected conn.addressHashCode) = some none := by decide +kernel
  simp only [Option.bind_eq_some_iff, Option.map_eq_some_iff] at run
  obtain ⟨p, done, conn, there, t, moved, unknown⟩ := run
  refine ⟨p, conn, t, done, there, moved, ?_⟩
  have of : newStatement.Of conn := trivial
  rw [shows_iff (reachable_of_known done) there of moved]
  -- The client has connected before the clear only.
  intro renewed
  rw [renewed.1.2] at unknown
  exact absurd unknown (by simp)

end Server

end OneProxy.Record
