import OneProxy.Stats.Server
import OneProxy.Stats.ServingLaws

/-! What the server's steps do to the statistics' entries and to its connections. -/

namespace OneProxy.Record

variable {record : Record}

/-- The statements that an entry lists, none if there is no entry. -/
def listed (view : Option ClientView) : Finset UInt32 :=
  match view with
  | some view => view.sqlList
  | none => ∅

/-- A client that connects gets its hash and its address, and keeps its statements. -/
theorem clientView_addNewClient (env : Env) (connHashCode hashCode : UInt32) (caddress : Bytes)
    (cport : UInt32) (saddress : Bytes) (sport : UInt32) :
    (record.recordClientQueryAddNewClient env connHashCode hashCode caddress cport saddress
        sport).1.clientView =
      Function.update record.clientView hashCode
        (some ⟨hashCode, caddress, listed (record.clientView hashCode)⟩) := by
  funext key
  by_cases same : key = hashCode
  · subst same
    simp only [clientView, recordClientQueryAddNewClient, StdMap.upsert_self, Option.map_some,
      Function.update_self]
    cases record.clientQueryMap key <;> rfl
  · simp [clientView, recordClientQueryAddNewClient, same]

/-- A clear leaves the entries where they are, with nothing in them. -/
theorem clientView_recordClear (record : Record) (hashCode : UInt32) :
    record.recordClear.clientView hashCode =
      (record.clientView hashCode).map fun _ => ⟨0, [], ∅⟩ := by
  simp only [clientView, recordClear, StdMap.mapValues, Option.map_map]
  rfl

theorem sqlView_recordClear (record : Record) (hashCode : UInt32) :
    record.recordClear.sqlView hashCode = (record.sqlView hashCode).map fun _ => blankView := by
  simp only [sqlView, recordClear, StdMap.mapValues, Option.map_map]
  rfl

/-- No entry of the first record is missing in the second. -/
structure Stays (record after : Record) : Prop where
  clients : ∀ hashCode, (record.clientView hashCode).isSome → (after.clientView hashCode).isSome
  sqls : ∀ hashCode, (record.sqlView hashCode).isSome → (after.sqlView hashCode).isSome

theorem Stays.of_same {after : Record} (same : SameViews record after) : Stays record after := by
  constructor
  · intro hashCode there
    rwa [same.clients]
  · intro hashCode there
    rwa [same.sqls]

theorem Stays.trans {after later : Record} (first : Stays record after)
    (second : Stays after later) : Stays record later :=
  ⟨fun hashCode there => second.clients hashCode (first.clients hashCode there),
    fun hashCode there => second.sqls hashCode (first.sqls hashCode there)⟩

theorem stays_recordClear (record : Record) : Stays record record.recordClear := by
  constructor
  · intro hashCode there
    simpa [clientView_recordClear] using there
  · intro hashCode there
    simpa [sqlView_recordClear] using there

theorem stays_addNewClient (env : Env) (connHashCode hashCode : UInt32) (caddress : Bytes)
    (cport : UInt32) (saddress : Bytes) (sport : UInt32) :
    Stays record (record.recordClientQueryAddNewClient env connHashCode hashCode caddress cport
      saddress sport).1 := by
  constructor
  · intro other there
    rw [clientView_addNewClient]
    by_cases same : other = hashCode
    · simp [same]
    · simpa [same] using there
  · intro other there
    exact there

/-- Saving a statement removes no entry. -/
theorem stays_saved {s t : Serving} {sqlText : Bytes} (saved : Saved s t sqlText) :
    Stays s.record t.record := by
  constructor
  · intro hashCode there
    rw [saved.clients]
    cases s.record.clientTarget s.conn.addressHashCode s.conn.clientInfo with
    | none => exact there
    | some target =>
      by_cases same : hashCode = target
      · subst same
        simpa [StdMap.adjustAt] using there
      · simpa [StdMap.adjustAt, same] using there
  · intro hashCode there
    rw [saved.sqls]
    by_cases same : hashCode = Tool.quickHashCode sqlText
    · simp [same]
    · simpa [same] using there

/-- No call removes an entry. -/
theorem stays_run {s t : Serving} {call : Call} {env : Env} (ran : call.run env s = some t) :
    Stays s.record t.record := by
  have cases := run_cases ran
  cases saves : call.saves with
  | none =>
    rw [saves] at cases
    exact Stays.of_same cases.views
  | some sqlText =>
    rw [saves] at cases
    obtain ⟨u, saved, rest⟩ := cases
    exact (stays_saved saved).trans (Stays.of_same rest.views)

/-- What a call keeps of its connection, whatever it does. -/
theorem kept_run {s t : Serving} {call : Call} {env : Env} (ran : call.run env s = some t) :
    Kept s t := by
  have cases := run_cases ran
  cases saves : call.saves with
  | none =>
    rw [saves] at cases
    exact cases.toKept
  | some sqlText =>
    rw [saves] at cases
    obtain ⟨u, saved, rest⟩ := cases
    exact saved.toKept.trans rest.toKept

/-- The pointer that a call leaves is the old one, or one to an entry that is there. -/
theorem pointer_run {s t : Serving} {call : Call} {env : Env} (ran : call.run env s = some t)
    {pointer : UInt32} (pointed : t.conn.sqlInfo = some pointer) :
    s.conn.sqlInfo = some pointer ∨ (t.record.sqlView pointer).isSome := by
  have cases := run_cases ran
  cases saves : call.saves with
  | none =>
    rw [saves] at cases
    exact Or.inl (cases.sqlInfo ▸ pointed)
  | some sqlText =>
    rw [saves] at cases
    obtain ⟨u, saved, rest⟩ := cases
    rw [rest.sqlInfo, saved.sqlInfo, Option.some.injEq] at pointed
    refine Or.inr ?_
    rw [rest.views.sqls, saved.sqls, ← pointed]
    simp

theorem sameViews_recordClientQueryOffLine (record : Record) (hashCode : UInt32)
    (clientInfo : Option UInt32) :
    SameViews record (record.recordClientQueryOffLine hashCode clientInfo) := by
  unfold recordClientQueryOffLine
  apply sameViews_countClient
  intro _
  rfl

theorem sameViews_recordClientQueryOnLineTime (record : Record) (hashCode : UInt32) (time : UInt64)
    (clientInfo : Option UInt32) :
    SameViews record (record.recordClientQueryOnLineTime hashCode time clientInfo) := by
  unfold recordClientQueryOnLineTime
  apply sameViews_countClient
  intro _
  rfl

theorem sameViews_recordClientQueryAllocServerFail (record : Record) (hashCode : UInt32)
    (clientInfo : Option UInt32) :
    SameViews record (record.recordClientQueryAllocServerFail hashCode clientInfo) := by
  unfold recordClientQueryAllocServerFail
  apply sameViews_countClient
  intro _
  rfl

namespace Server

variable {s t : Server}

/-- The serving of a call on a connection. -/
theorem serve_spec {id : Nat} {env : Env} {call : Call} (served : s.serve id env call = some t) :
    ∃ conn serving, s.conns id = some conn ∧ call.run env ⟨s.record, conn, []⟩ = some serving ∧
      t = { s with
        record := serving.record
        conns := Function.update s.conns id (some serving.conn)
        dbData := s.dbData ++ serving.dbData.map fun data => (id, data) } := by
  simp only [serve, Option.bind_eq_bind, Option.bind_eq_some_iff, Option.some.injEq] at served
  obtain ⟨conn, there, serving, ran, same⟩ := served
  exact ⟨conn, serving, there, ran, same.symm⟩

/-- What `finished_connection` records of a client leaves the entries as they are. -/
theorem sameViews_finish {id : Nat} {onLineTime : Option UInt64}
    (finished : s.finish id onLineTime = some t) : SameViews s.record t.record := by
  obtain ⟨conn, _, same⟩ := Option.map_eq_some_iff.mp finished
  subst same
  cases onLineTime with
  | none => exact sameViews_recordClientQueryOffLine _ _ _
  | some time =>
    exact (sameViews_recordClientQueryOnLineTime s.record _ time _).trans
      (sameViews_recordClientQueryOffLine _ _ _)

theorem sameViews_allocServerFail {id : Nat} (failed : s.allocServerFail id = some t) :
    SameViews s.record t.record := by
  obtain ⟨conn, _, same⟩ := Option.map_eq_some_iff.mp failed
  subst same
  exact sameViews_recordClientQueryAllocServerFail _ _ _

/-- The server's sockets and connections are known to the statistics. -/
structure Registered (s : Server) : Prop where
  accepted : ∀ id ns, s.accepted id = some ns →
    ns.addressHashCode = Tool.quickHashCode ns.address ∧
      (s.record.clientView ns.addressHashCode).isSome
  conns : ∀ id conn, s.conns id = some conn →
    conn.addressHashCode = Tool.quickHashCode conn.address ∧
      (s.record.clientView conn.addressHashCode).isSome ∧
      (conn.clientInfo = none ∨ conn.clientInfo = some conn.addressHashCode)
  pointers : ∀ id conn pointer, s.conns id = some conn → conn.sqlInfo = some pointer →
    (s.record.sqlView pointer).isSome

/-- The statistics may grow. -/
theorem Registered.stays {after : Record} (registered : s.Registered)
    (stays : Stays s.record after) : Registered { s with record := after } where
  accepted := fun id ns there =>
    ⟨(registered.accepted id ns there).1, stays.clients _ (registered.accepted id ns there).2⟩
  conns := fun id conn there =>
    ⟨(registered.conns id conn there).1, stays.clients _ (registered.conns id conn there).2.1,
      (registered.conns id conn there).2.2⟩
  pointers := fun id conn pointer there pointed =>
    stays.sqls _ (registered.pointers id conn pointer there pointed)

/-- A statistics' pointer to a client whose entry is there. -/
theorem recordGetClientQueryInfo_of_isSome {hashCode : UInt32}
    (there : (record.clientView hashCode).isSome) :
    record.recordGetClientQueryInfo hashCode = some hashCode := by
  have entry : (record.clientQueryMap hashCode).isSome := by
    simpa [clientView] using there
  simp [recordGetClientQueryInfo, entry]

/-- A connection's sockets may be forgotten, and its connections closed. -/
theorem Registered.forget {accepted : Nat → Option ClientSocket} {conns : Nat → Option Conn}
    (registered : s.Registered)
    (accepted' : ∀ id ns, accepted id = some ns → s.accepted id = some ns)
    (conns' : ∀ id conn, conns id = some conn → s.conns id = some conn) :
    Registered { s with accepted := accepted, conns := conns } where
  accepted := fun id ns there => registered.accepted id ns (accepted' id ns there)
  conns := fun id conn there => registered.conns id conn (conns' id conn there)
  pointers := fun id conn pointer there => registered.pointers id conn pointer
    (conns' id conn there)

/-- Every step keeps the sockets and connections known. -/
theorem Registered.step {step : Step} (registered : s.Registered) (moved : s.next step = some t) :
    t.Registered := by
  cases step with
  | accept env address port listenAddr listenPort =>
    obtain rfl := Option.some.inj moved
    -- stays_addNewClient s.record env time.toUInt32@A monitored connection has no pointer to its
    -- client's entry.
    have grown := registered.stays (@stays_addNewClient s.record env
      (Tool.quickConnHashCode address port listenAddr listenPort env.millisecondTime)
      (Tool.quickHashCode address) address port listenAddr listenPort)
    refine ⟨?_, grown.conns, grown.pointers⟩
    intro id ns there
    by_cases new : id = s.made
    · subst new
      simp only [acceptClientRequest, recorded, Function.update_self, Option.some.injEq] at there
      subst there
      refine ⟨rfl, ?_⟩
      simp [acceptClientRequest, recorded, clientView_addNewClient]
    · apply grown.accepted id ns
      simpa [acceptClientRequest, recorded, new] using there
  | addTask id =>
    obtain ⟨ns, waiting, same⟩ := Option.map_eq_some_iff.mp moved
    subst same
    obtain ⟨hashed, entry⟩ := registered.accepted id ns waiting
    refine ⟨?_, ?_, ?_⟩
    · intro other ns' there
      by_cases self : other = id
      · simp [self] at there
      · exact registered.accepted other ns' (by simpa [self] using there)
    · intro other conn there
      by_cases self : other = id
      · simp only [self, Function.update_self, Option.some.injEq] at there
        subst there
        exact ⟨hashed, entry, Or.inr (recordGetClientQueryInfo_of_isSome entry)⟩
      · exact registered.conns other conn (by simpa [self] using there)
    · intro other conn pointer there pointed
      by_cases self : other = id
      · simp only [self, Function.update_self, Option.some.injEq] at there
        subst there
        simp [Conn.new, Connection.new] at pointed
      · exact registered.pointers other conn pointer (by simpa [self] using there) pointed
  | newConnection env time address port saddress sport =>
    obtain rfl := Option.some.inj moved
    have grown := registered.stays (@stays_addNewClient s.record env time.toUInt32
      (Tool.quickHashCode address) address port saddress sport)
    refine ⟨grown.accepted, ?_, ?_⟩
    · intro id conn there
      by_cases new : id = s.made
      · subst new
        simp only [newConnection, recorded, Function.update_self, Option.some.injEq] at there
        subst there
        refine ⟨rfl, ?_, Or.inl rfl⟩
        simp [newConnection, recorded, clientView_addNewClient, Conn.new]
      · apply grown.conns id conn
        simpa [newConnection, recorded, new] using there
    · intro id conn pointer there pointed
      by_cases new : id = s.made
      · subst new
        simp only [newConnection, recorded, Function.update_self, Option.some.injEq] at there
        subst there
        simp [Conn.new, Connection.new] at pointed
      · apply grown.pointers id conn pointer _ pointed
        simpa [newConnection, recorded, new] using there
  | call id env call =>
    obtain ⟨conn, serving, there, ran, same⟩ := serve_spec moved
    subst same
    have grown := registered.stays (stays_run ran)
    have kept := kept_run ran
    obtain ⟨hashed, entry, pointer⟩ := grown.conns id conn there
    refine ⟨grown.accepted, ?_, ?_⟩
    · intro other conn' open'
      by_cases self : other = id
      · simp only [self, Function.update_self, Option.some.injEq] at open'
        subst open'
        rw [kept.addressHashCode, kept.address, kept.clientInfo]
        exact ⟨hashed, entry, pointer⟩
      · exact grown.conns other conn' (by simpa [self] using open')
    · intro other conn' pointer open' pointed
      by_cases self : other = id
      · simp only [self, Function.update_self, Option.some.injEq] at open'
        subst open'
        exact (pointer_run ran pointed).elim
          (fun old => grown.pointers id conn pointer there old) fun entry => entry
      · exact grown.pointers other conn' pointer (by simpa [self] using open') pointed
  | allocServerFail id =>
    have views := sameViews_allocServerFail moved
    obtain ⟨conn, _, same⟩ := Option.map_eq_some_iff.mp moved
    subst same
    exact registered.stays (Stays.of_same views)
  | finish id onLineTime =>
    have views := sameViews_finish moved
    obtain ⟨conn, _, same⟩ := Option.map_eq_some_iff.mp moved
    subst same
    refine (registered.stays (Stays.of_same views)).forget (fun _ _ there => there) ?_
    intro other conn' there
    by_cases self : other = id
    · simp [self] at there
    · simpa [self] using there
  | clear =>
    obtain rfl := Option.some.inj moved
    exact registered.stays (stays_recordClear s.record)

/-- The sockets and connections are known in every state of the server. -/
theorem registered_of_reachable (reached : Runs.Reachable system s) : s.Registered := by
  apply reached.invariant
  · intro start begun
    subst begun
    exact ⟨fun _ _ there => by simp [new] at there, fun _ _ there => by simp [new] at there,
      fun _ _ _ there => by simp [new] at there⟩
  · intro a step b registered moved
    exact registered.step moved

/-- An entry has no hash, or the one it is kept under. -/
def Hashed (record : Record) : Prop :=
  ∀ sql view, record.sqlView sql = some view → view.hashCode = 0 ∨ view.hashCode = sql

/-- The hash that an entry gets is the one it is kept under. -/
theorem hashed_saved {s t : Serving} {sqlText : Bytes} (hashed : Hashed s.record)
    (saved : Saved s t sqlText) : Hashed t.record := by
  intro sql view there
  rw [saved.sqls] at there
  by_cases self : sql = Tool.quickHashCode sqlText
  · subst self
    rw [Function.update_self, Option.some.injEq] at there
    subst there
    unfold filledView
    split
    · exact Or.inr rfl
    · rename_i named
      cases before : s.record.sqlView (Tool.quickHashCode sqlText) with
      | none => simp [before, blankView] at named
      | some old => exact hashed _ old before
  · rw [Function.update_of_ne self] at there
    exact hashed sql view there

/-- Every step keeps entries under their hashes. -/
theorem hashed_step {step : Step} (hashed : Hashed s.record) (moved : s.next step = some t) :
    Hashed t.record := by
  -- Only a call can save a statement; a clear leaves blank entries, which are under no hash.
  have same : SameViews s.record t.record → Hashed t.record := by
    intro same sql view there
    rw [same.sqls] at there
    exact hashed sql view there
  cases step with
  | accept env address port listenAddr listenPort =>
    obtain rfl := Option.some.inj moved
    exact hashed
  | addTask id =>
    obtain ⟨ns, _, equal⟩ := Option.map_eq_some_iff.mp moved
    subst equal
    exact hashed
  | newConnection env time address port saddress sport =>
    obtain rfl := Option.some.inj moved
    exact hashed
  | call id env call =>
    obtain ⟨conn, serving, _, ran, equal⟩ := serve_spec moved
    have cases := run_cases ran
    cases saves : call.saves with
    | none =>
      rw [saves] at cases
      rw [equal] at same
      rw [equal]
      exact same cases.views
    | some sqlText =>
      rw [saves] at cases
      obtain ⟨u, saved, rest⟩ := cases
      have filled := hashed_saved hashed saved
      intro sql view there
      rw [equal] at there
      simp only at there
      rw [rest.views.sqls] at there
      exact filled sql view there
  | allocServerFail id => exact same (sameViews_allocServerFail moved)
  | finish id onLineTime => exact same (sameViews_finish moved)
  | clear =>
    obtain rfl := Option.some.inj moved
    intro sql view there
    obtain ⟨old, _, blank⟩ := Option.map_eq_some_iff.mp
      ((sqlView_recordClear s.record sql).symm.trans there)
    subst blank
    exact Or.inl rfl

/-- Entries are kept under their hashes in every state of the server. -/
theorem hashed_of_reachable (reached : Runs.Reachable system s) : Hashed s.record := by
  apply reached.invariant
  · intro start begun
    subst begun
    intro sql view there
    simp [new, Record.new, sqlView] at there
  · intro a step b hashed moved
    exact hashed_step hashed moved

end Server

end OneProxy.Record
