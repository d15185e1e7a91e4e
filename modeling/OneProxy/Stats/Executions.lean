import OneProxy.Stats.DBManager
import OneProxy.Stats.Survival

/-! Which rows of `sql_exec` the events of an execution reach. -/

namespace OneProxy.Record

/-! ## The events of one call -/

/-- The text that the hash of an execution is made of. -/
def SqlInfoS.execText (sis : SqlInfoS) : Bytes :=
  Tool.digits sis.execTime.toNat ++ Tool.digits sis.connHashCode.toNat ++
    Tool.digits sis.sqlHashCode.toNat

/-- What identifies an execution in the table. -/
def SqlInfoS.execKey (sis : SqlInfoS) : UInt32 × UInt32 := (sis.connHashCode, sis.sqlExecHashCode)

/--
The events that are added on a connection, from one current execution to another.

An event that updates is about the current execution; one that saves makes its own the current one.
-/
inductive Emits (connHash : UInt32) : UInt32 → List DBDataT → UInt32 → Prop
  | nil {current : UInt32} : Emits connHash current [] current
  | save {current last : UInt32} {rest : List DBDataT} {sis : SqlInfoS} :
      sis.connHashCode = connHash → sis.sqlExecHashCode = Tool.quickHashCode sis.execText →
      Emits connHash sis.sqlExecHashCode rest last →
      Emits connHash current (.clientExecSql sis :: rest) last
  | update {current last : UInt32} {rest : List DBDataT} {data : DBDataT} {sett : SqlExecTabT} :
      data.inserts = none → data.updates = some sett → current ≠ 0 →
      sett.key = (connHash, current) → Emits connHash current rest last →
      Emits connHash current (data :: rest) last
  | other {current last : UInt32} {rest : List DBDataT} {data : DBDataT} :
      data.inserts = none → data.updates = none → Emits connHash current rest last →
      Emits connHash current (data :: rest) last

theorem Emits.append {connHash first mid last : UInt32} {front back : List DBDataT}
    (before : Emits connHash first front mid) (after : Emits connHash mid back last) :
    Emits connHash first (front ++ back) last := by
  induction before with
  | nil => exact after
  | save conn hash _ ih => exact .save conn hash (ih after)
  | update inserts updates some_ key _ ih => exact .update inserts updates some_ key (ih after)
  | other inserts updates _ ih => exact .other inserts updates (ih after)

variable {s t u : Serving}

/-- A call adds events of its connection's current executions. -/
structure Adds (s t : Serving) : Prop where
  connectionHashcode : t.conn.connectionHashcode = s.conn.connectionHashcode
  dbData : ∃ added, t.dbData = s.dbData ++ added ∧
    Emits s.conn.connectionHashcode s.conn.currExecSqlHash added t.conn.currExecSqlHash

theorem Adds.trans (first : Adds s t) (second : Adds t u) : Adds s u := by
  obtain ⟨front, same, before⟩ := first.dbData
  obtain ⟨back, same', after⟩ := second.dbData
  rw [first.connectionHashcode] at after
  exact ⟨second.connectionHashcode.trans first.connectionHashcode, front ++ back,
    by rw [same', same, List.append_assoc], before.append after⟩

/-- A call that changes neither the executions nor the events. -/
theorem Adds.silent (connection : t.conn.connectionHashcode = s.conn.connectionHashcode)
    (current : t.conn.currExecSqlHash = s.conn.currExecSqlHash) (dbData : t.dbData = s.dbData) :
    Adds s t :=
  ⟨connection, [], by simp [dbData], current ▸ .nil⟩

theorem Adds.refl (s : Serving) : Adds s s := .silent rfl rfl rfl

/-- Changing the current statement is not recorded. -/
theorem adds_updateSqlInfo (s : Serving) (f : OneProxy.SqlInfo → OneProxy.SqlInfo) :
    Adds s (s.updateSqlInfo f) := .silent rfl rfl rfl

/-- A call that records adds its event. -/
theorem adds_recorded {result : Record × Option DBDataT}
    (event : ∀ data, result.2 = some data → Emits s.conn.connectionHashcode s.conn.currExecSqlHash
      [data] s.conn.currExecSqlHash) : Adds s (s.recorded result) := by
  refine ⟨rfl, result.2.toList, rfl, ?_⟩
  cases there : result.2 with
  | none => exact .nil
  | some data => exact event data there

/-- The event of a current execution updates it. -/
theorem emits_execEvent {env : Env} {conn : Conn} {type : SqlExecS → DBDataT}
    {recvSize fail inTrans rowNum : UInt32} {data : DBDataT}
    (plain : ∀ ses, (type ses).inserts = none)
    (updates : ∀ ses, ∃ sett, (type ses).updates = some sett ∧
      sett.key = (ses.connHashCode, ses.sqlExecHashCode))
    (added : execEvent env conn type recvSize fail inTrans rowNum = some data) :
    Emits conn.connectionHashcode conn.currExecSqlHash [data] conn.currExecSqlHash := by
  unfold execEvent at added
  split at added
  · next current =>
    obtain rfl := Option.some.inj added
    obtain ⟨sett, written, key⟩ := updates ⟨conn.currExecSqlHash, conn.connectionHashcode, recvSize,
      fail, inTrans, rowNum⟩
    -- Without a current execution there is no event.
    have some_ : conn.currExecSqlHash ≠ 0 := by
      intro zero
      rw [zero] at current
      exact absurd current.2 (by decide)
    exact .update (plain _) written some_ key .nil
  · exact absurd added (by simp)

/-- The event of moved bytes is about no execution. -/
theorem emits_sizeEvent {env : Env} {conn : Conn} {hashCode current : UInt32}
    {sendSize recvSize : UInt64} {data : DBDataT}
    (added : sizeEvent env conn hashCode sendSize recvSize = some data) :
    Emits conn.connectionHashcode current [data] current := by
  unfold sizeEvent at added
  split at added
  · obtain rfl := Option.some.inj added
    exact .other rfl rfl .nil
  · exact absurd added (by simp)

/-- Saving a statement begins an execution. -/
theorem adds_statSaveSql {env : Env} {sqlText : Bytes} (done : s.statSaveSql env sqlText = some t) :
    Adds s t := by
  simp only [Serving.statSaveSql, Option.bind_eq_bind, Option.bind_eq_some_iff, Prod.exists,
    Option.some.injEq] at done
  obtain ⟨record, conn, event, saved, rfl⟩ := done
  simp only [recordSqlInfoAddSql, Option.bind_eq_bind, Option.bind_eq_some_iff] at saved
  obtain ⟨info, _, saved⟩ := saved
  generalize current : s.updateSqlInfo _ = u at saved
  have begun : Adds s u := by
    rw [← current]
    exact .silent rfl rfl rfl
  refine begun.trans ?_
  have last : ∀ v : Serving, Adds v (v.recorded (v.record.recordClientQueryAddSql env v.conn
      v.conn.clientInfo)) := by
    intro v
    apply adds_recorded
    intro data added
    simp only [recordClientQueryAddSql] at added
    split at added
    · obtain rfl := Option.some.inj added
      exact .other rfl rfl .nil
    · exact absurd added (by simp)
  refine Adds.trans ?_ (last _)
  split at saved
  · obtain ⟨_, rfl, rfl⟩ := (by simpa using saved)
    exact .silent rfl rfl (by simp)
  · obtain ⟨tables, _, saved⟩ := Option.bind_eq_some_iff.mp saved
    obtain ⟨rfl, rfl, rfl⟩ := (by simpa using saved)
    -- The hash of the new execution becomes the current one.
    exact ⟨rfl, _, rfl, .save rfl rfl .nil⟩

/-- Executing a statement updates the current execution at most. -/
theorem adds_statExecuteSql (s : Serving) (env : Env) : Adds s (s.statExecuteSql env) := by
  simp only [Serving.statExecuteSql]
  split
  · exact .silent rfl rfl rfl
  · split
    · refine Adds.trans ?_ (adds_recorded fun data added => ?_)
      · exact .silent rfl rfl rfl
      · exact emits_execEvent (fun _ => rfl) (fun _ => ⟨_, rfl, rfl⟩) added
    · exact .silent rfl rfl rfl

/-- Parsing a statement is not recorded. -/
theorem adds_parseSql (s : Serving) (parsed : Option ParsedSql) : Adds s (s.parseSql parsed).2 := by
  cases parsed <;> exact .silent rfl rfl rfl

theorem adds_along (env : Env) : Along env Adds where
  refl := .refl
  trans := .trans
  updateSqlInfo := adds_updateSqlInfo
  parseSql := adds_parseSql
  statSaveSql := adds_statSaveSql
  statExecuteSql := fun s => adds_statExecuteSql s env

/-- A call's events are about the current executions of its connection. -/
theorem adds_run {call : Call} {env : Env} (ran : call.run env s = some t) : Adds s t := by
  -- What is left are the calls that record something by themselves.
  by_cases composed : call.Composed
  · exact (adds_along env).run composed ran
  cases call with
  | statEndTrans isRollBack endTime =>
    obtain rfl := Option.some.inj ran
    simp only [Serving.statEndTrans]
    split
    · exact .silent rfl rfl rfl
    · refine Adds.trans (Adds.trans (.silent rfl rfl rfl) (adds_recorded fun data added => ?_))
        (.silent rfl rfl rfl)
      simp only [recordTransInfoEndTrans] at added
      split at added
      · obtain rfl := Option.some.inj added
        exact .other rfl rfl .nil
      · exact absurd added (by simp)
  | statRecvFinishedRow rows =>
    obtain rfl := Option.some.inj ran
    refine Adds.trans (adds_recorded fun data added => ?_) (.silent rfl rfl rfl)
    exact emits_execEvent (fun _ => rfl) (fun _ => ⟨_, rfl, rfl⟩) added
  | statExecuteErr =>
    obtain rfl := Option.some.inj ran
    refine Adds.trans (adds_recorded fun data added => ?_) (.silent rfl rfl rfl)
    exact emits_execEvent (fun _ => rfl) (fun _ => ⟨_, rfl, rfl⟩) added
  | statReadFrontData length =>
    obtain rfl := Option.some.inj ran
    exact adds_recorded fun data added => emits_sizeEvent added
  | statReadBackendData length =>
    obtain rfl := Option.some.inj ran
    refine Adds.trans (adds_recorded fun data added => emits_sizeEvent added)
      (adds_recorded fun data added => ?_)
    exact emits_execEvent (fun _ => rfl) (fun _ => ⟨_, rfl, rfl⟩) added
  | statStartTrans | statRecvOneRow | setHandles =>
    obtain rfl := Option.some.inj ran
    exact .silent rfl rfl rfl
  | _ => exact absurd trivial composed

/-! ## The queue -/

/-- The last execution that each connection has begun. -/
def noteExec (current : Nat → Option SqlInfoS) (entry : Nat × DBDataT) : Nat → Option SqlInfoS :=
  match entry.2 with
  | .clientExecSql sis => Function.update current entry.1 (some sis)
  | _ => current

/-- The executions that are current after some events. -/
def currentAfter (current : Nat → Option SqlInfoS) (queue : List (Nat × DBDataT)) :
    Nat → Option SqlInfoS := queue.foldl noteExec current

/-- Every update in a queue is about the current execution of its connection. -/
def Emitted : (Nat → Option SqlInfoS) → List (Nat × DBDataT) → Prop
  | _, [] => True
  | current, (id, data) :: rest =>
    (∀ sett, data.updates = some sett → ∃ sis, current id = some sis ∧ sett.key = sis.execKey) ∧
      (∀ sis, data = .clientExecSql sis →
        sis.sqlExecHashCode = Tool.quickHashCode sis.execText) ∧
      Emitted (noteExec current (id, data)) rest

theorem emitted_append {current : Nat → Option SqlInfoS} {front back : List (Nat × DBDataT)} :
    Emitted current (front ++ back) ↔
      Emitted current front ∧ Emitted (currentAfter current front) back := by
  induction front generalizing current with
  | nil => simp [Emitted, currentAfter]
  | cons entry front ih =>
    have rest := @ih (noteExec current entry)
    simp only [List.cons_append, Emitted, rest, and_assoc]
    rfl

/-- A connection's hash and the hash of its current execution are those of the execution. -/
def AtExec (current : Option SqlInfoS) (connHash hash : UInt32) : Prop :=
  match current with
  | some sis => sis.connHashCode = connHash ∧ sis.sqlExecHashCode = hash
  | none => hash = 0

/-- An event that adds no row begins no execution. -/
theorem noteExec_of_inserts {current : Nat → Option SqlInfoS} {id : Nat} {data : DBDataT}
    (plain : data.inserts = none) : noteExec current (id, data) = current := by
  cases data with
  | clientExecSql sis => simp [DBDataT.inserts] at plain
  | _ => rfl

/-- An event that adds no row is no execution. -/
theorem not_exec_of_inserts {data : DBDataT} (plain : data.inserts = none) {sis : SqlInfoS} :
    data ≠ .clientExecSql sis := by
  rintro rfl
  simp [DBDataT.inserts] at plain

/-- An event that adds a row is an execution. -/
theorem exec_of_inserts {data : DBDataT} {sett : SqlExecTabT} (adds : data.inserts = some sett) :
    ∃ sis, data = .clientExecSql sis := by
  cases data with
  | clientExecSql sis => exact ⟨sis, rfl⟩
  | _ => simp [DBDataT.inserts] at adds

/-- What a connection adds to the queue is about its executions, and no other connection's. -/
theorem emitted_of_emits {current : Nat → Option SqlInfoS} {id : Nat} {connHash hash last : UInt32}
    {added : List DBDataT} (emits : Emits connHash hash added last)
    (atExec : AtExec (current id) connHash hash) :
    Emitted current (added.map fun data => (id, data)) ∧
      AtExec (currentAfter current (added.map fun data => (id, data)) id) connHash last ∧
      ∀ other, other ≠ id →
        currentAfter current (added.map fun data => (id, data)) other = current other := by
  induction emits generalizing current with
  | nil => exact ⟨trivial, atExec, fun _ _ => rfl⟩
  | @save _ _ _ sis conn hash _ ih =>
    obtain ⟨emitted, later, others⟩ := @ih (Function.update current id (some sis)) (by
      rw [Function.update_self]
      exact ⟨conn, rfl⟩)
    refine ⟨⟨fun sett updates => by simp [DBDataT.updates] at updates, ?_, emitted⟩, later, ?_⟩
    · rintro sis' same
      obtain rfl := DBDataT.clientExecSql.inj same
      exact hash
    · intro other differ
      exact (others other differ).trans (Function.update_of_ne differ _ _)
  | @update current' _ _ data sett plain updates some_ key _ ih =>
    have next := @noteExec_of_inserts current id data plain
    obtain ⟨emitted, later, others⟩ := ih atExec
    rw [← next] at emitted later others
    refine ⟨⟨fun sett' updates' => ?_, fun sis same => absurd same (not_exec_of_inserts plain),
      emitted⟩, later, fun other differ => (others other differ).trans (congrFun next other)⟩
    -- Without an execution the hash is zero, and nothing is added.
    obtain rfl := Option.some.inj (updates.symm.trans updates')
    cases now : current id with
    | none =>
      rw [now] at atExec
      exact absurd atExec some_
    | some sis =>
      rw [now] at atExec
      exact ⟨sis, rfl, by rw [key, SqlInfoS.execKey, atExec.1, atExec.2]⟩
  | @other _ _ _ data plain updates _ ih =>
    have next := @noteExec_of_inserts current id data plain
    obtain ⟨emitted, later, others⟩ := ih atExec
    rw [← next] at emitted later others
    exact ⟨⟨fun sett' updates' => absurd (updates.symm.trans updates') (by simp),
      fun sis same => absurd same (not_exec_of_inserts plain), emitted⟩, later,
      fun other differ => (others other differ).trans (congrFun next other)⟩

namespace Server

/-- No execution is current yet. -/
def noExec : Nat → Option SqlInfoS := fun _ => none

/-- The queue of a server is in step with its connections. -/
structure Queued (s : Server) : Prop where
  emitted : Emitted noExec s.dbData
  conns : ∀ id conn, s.conns id = some conn →
    AtExec (currentAfter noExec s.dbData id) conn.connectionHashcode conn.currExecSqlHash
  unborn : ∀ id, (s.accepted id).isSome ∨ s.made ≤ id →
    s.conns id = none ∧ currentAfter noExec s.dbData id = none
  below : ∀ id, s.made ≤ id → s.accepted id = none

variable {s t : Server}

/-- The queue goes on with the events of one connection. -/
theorem Queued.add (queued : s.Queued) {id : Nat} {connHash hash last : UInt32}
    {added : List DBDataT} (emits : Emits connHash hash added last)
    (atExec : AtExec (currentAfter noExec s.dbData id) connHash hash) :
    Emitted noExec (s.dbData ++ added.map fun data => (id, data)) ∧
      AtExec (currentAfter noExec (s.dbData ++ added.map fun data => (id, data)) id) connHash last ∧
      ∀ other, other ≠ id →
        currentAfter noExec (s.dbData ++ added.map fun data => (id, data)) other =
          currentAfter noExec s.dbData other := by
  obtain ⟨emitted, later, others⟩ := emitted_of_emits emits atExec
  have whole : currentAfter noExec (s.dbData ++ added.map fun data => (id, data)) =
      currentAfter (currentAfter noExec s.dbData) (added.map fun data => (id, data)) :=
    List.foldl_append
  rw [whole]
  exact ⟨emitted_append.mpr ⟨queued.emitted, emitted⟩, later, others⟩

/-- The row of a new client is about no execution. -/
theorem emits_addNewClient (record : Record) (env : Env) (connHashCode hashCode : UInt32)
    (caddress : Bytes) (cport : UInt32) (saddress : Bytes) (sport connHash current : UInt32) :
    Emits connHash current (record.recordClientQueryAddNewClient env connHashCode hashCode caddress
      cport saddress sport).2.toList current := by
  simp only [recordClientQueryAddNewClient]
  split
  · exact .nil
  · exact .other rfl rfl .nil

/-- A connection that nothing has been recorded for has no execution. -/
theorem currentAfter_none {current : Option SqlInfoS}
    (atExec : ∀ connHash, AtExec current connHash 0) :
    current = none := by
  cases current with
  | none => rfl
  | some sis =>
    -- An execution has one connection only.
    have first := (atExec 0).1
    have second := (atExec 1).1
    exact absurd (first.symm.trans second) (by decide)

/-- A client comes in: its row is queued, and it has no execution. -/
theorem Queued.arrive (queued : s.Queued) {added : List DBDataT}
    (emits : ∀ connHash, Emits connHash 0 added 0) :
    Emitted noExec (s.dbData ++ added.map fun data => (s.made, data)) ∧
      ∀ id, currentAfter noExec (s.dbData ++ added.map fun data => (s.made, data)) id =
        currentAfter noExec s.dbData id := by
  have before := (queued.unborn s.made (Or.inr (Nat.le_refl _))).2
  have start : ∀ connHash, AtExec (currentAfter noExec s.dbData s.made) connHash 0 := by
    intro connHash
    rw [before]
    rfl
  refine ⟨(queued.add (emits 0) (start 0)).1, fun id => ?_⟩
  by_cases new : id = s.made
  · subst new
    rw [before]
    exact currentAfter_none fun connHash => (queued.add (emits connHash) (start connHash)).2.1
  · exact (queued.add (emits 0) (start 0)).2.2 id new

/-- A client's socket is no connection yet, so that its row is about no execution. -/
theorem Queued.accept (queued : s.Queued) (env : Env) (address : Bytes) (port : UInt32)
    (listenAddr : Bytes) (listenPort : UInt32) :
    (s.acceptClientRequest env address port listenAddr listenPort).Queued := by
  obtain ⟨emitted, same⟩ := queued.arrive fun connHash => emits_addNewClient s.record env
    (Tool.quickConnHashCode address port listenAddr listenPort env.millisecondTime)
    (Tool.quickHashCode address) address port listenAddr listenPort connHash 0
  refine ⟨emitted, ?_, ?_, ?_⟩
  · intro id conn there
    exact (congrArg (AtExec · _ _) (same id)).mpr (queued.conns id conn there)
  · intro id waiting
    -- The new number was unborn before, and so was every other that is now.
    have unborn : (s.accepted id).isSome ∨ s.made ≤ id := by
      by_cases new : id = s.made
      · exact Or.inr (by omega)
      · refine waiting.imp (fun some_ => ?_) (fun above => ?_)
        · simpa [acceptClientRequest, recorded, new] using some_
        · simp only [acceptClientRequest, recorded] at above
          omega
    exact ⟨(queued.unborn id unborn).1, (same id).trans (queued.unborn id unborn).2⟩
  · intro id above
    simp only [acceptClientRequest, recorded] at above
    have new : id ≠ s.made := by omega
    simpa [acceptClientRequest, recorded, new] using queued.below id (by omega)

/-- The connection of an accepted client has executed nothing. -/
theorem Queued.addTask {id : Nat} (queued : s.Queued) (moved : s.addTask id = some t) :
    t.Queued := by
  obtain ⟨ns, waiting, rfl⟩ := Option.map_eq_some_iff.mp moved
  have unborn := queued.unborn id (Or.inl (by simp [waiting]))
  -- The socket was accepted before, so that the number stays born.
  have made : ¬ s.made ≤ id := by
    intro above
    rw [queued.below id above] at waiting
    exact absurd waiting (by simp)
  refine ⟨queued.emitted, ?_, ?_, ?_⟩
  · intro other conn there
    by_cases self : other = id
    · subst self
      obtain rfl : _ = conn := by simpa using there
      show AtExec (currentAfter noExec s.dbData other) _ 0
      rw [unborn.2]
      rfl
    · exact queued.conns other conn (by simpa [self] using there)
  · intro other still
    have differs : other ≠ id := by
      rintro rfl
      exact still.elim (fun some_ => by simp at some_) made
    have before := queued.unborn other (by simpa [differs] using still)
    exact ⟨by simpa [differs] using before.1, before.2⟩
  · intro other above
    by_cases self : other = id
    · simp [self]
    · simpa [self] using queued.below other above

/-- A connection that is made at once has executed nothing either. -/
theorem Queued.newConnection (queued : s.Queued) (env : Env) (time : UInt64) (address : Bytes)
    (port : UInt32) (saddress : Bytes) (sport : UInt32) :
    (s.newConnection env time address port saddress sport).Queued := by
  obtain ⟨emitted, same⟩ := queued.arrive fun connHash => emits_addNewClient s.record env
    time.toUInt32 (Tool.quickHashCode address) address port saddress sport connHash 0
  have before := (queued.unborn s.made (Or.inr (Nat.le_refl _))).2
  refine ⟨emitted, ?_, ?_, ?_⟩
  · intro id conn there
    by_cases new : id = s.made
    · subst new
      obtain rfl : _ = conn := by simpa [Server.newConnection, recorded] using there
      exact (congrArg (AtExec · _ _) ((same s.made).trans before)).mpr rfl
    · exact (congrArg (AtExec · _ _) (same id)).mpr
        (queued.conns id conn (by simpa [Server.newConnection, recorded, new] using there))
  · intro id waiting
    -- The new number is born at once.
    have new : id ≠ s.made := by
      rintro rfl
      rcases waiting with some_ | above
      · have absent := queued.below s.made (Nat.le_refl _)
        simp [Server.newConnection, recorded, absent] at some_
      · simp only [Server.newConnection, recorded] at above
        omega
    have unborn := queued.unborn id (waiting.imp (fun some_ => some_) fun above => by
      simp only [Server.newConnection, recorded] at above
      omega)
    exact ⟨by simpa [Server.newConnection, recorded, new] using unborn.1, (same id).trans unborn.2⟩
  · intro id above
    simp only [Server.newConnection, recorded] at above
    exact queued.below id (by omega)

/-- A call moves the execution of its own connection only. -/
theorem Queued.serve {id : Nat} {env : Env} {call : Call} (queued : s.Queued)
    (moved : s.serve id env call = some t) : t.Queued := by
  obtain ⟨conn, serving, there, ran, rfl⟩ := serve_spec moved
  have adds := adds_run ran
  obtain ⟨added, same, emits⟩ := adds.dbData
  simp only [List.nil_append] at same
  obtain ⟨emitted, later, others⟩ := queued.add emits (queued.conns id conn there)
  -- The number of the connection is born, since the connection is there.
  have born : ∀ other, (s.accepted other).isSome ∨ s.made ≤ other → other ≠ id := by
    rintro other waiting rfl
    rw [(queued.unborn other waiting).1] at there
    exact absurd there (by simp)
  rw [← same] at emitted later others
  refine ⟨emitted, ?_, ?_, queued.below⟩
  · intro other conn' open'
    by_cases self : other = id
    · subst self
      obtain rfl : serving.conn = conn' := by simpa using open'
      rw [adds.connectionHashcode]
      exact later
    · exact (congrArg (AtExec · _ _) (others other self)).mpr
        (queued.conns other conn' (by simpa [self] using open'))
  · intro other waiting
    have self := born other waiting
    have unborn := queued.unborn other waiting
    exact ⟨by simpa [self] using unborn.1, (others other self).trans unborn.2⟩

/-- The execution of a connection that has ended stays the last one of its number. -/
theorem Queued.finish {id : Nat} {onLineTime : Option UInt64} (queued : s.Queued)
    (moved : s.finish id onLineTime = some t) : t.Queued := by
  obtain ⟨conn, _, rfl⟩ := Option.map_eq_some_iff.mp moved
  refine ⟨queued.emitted, ?_, ?_, queued.below⟩
  · intro other conn' there
    by_cases self : other = id
    · simp [self] at there
    · exact queued.conns other conn' (by simpa [self] using there)
  · intro other waiting
    have unborn := queued.unborn other waiting
    refine ⟨?_, unborn.2⟩
    by_cases self : other = id
    · simp [self]
    · simpa [self] using unborn.1

/-- Every step keeps the queue in step. -/
theorem Queued.step {step : Step} (queued : s.Queued) (moved : s.next step = some t) :
    t.Queued := by
  cases step with
  | accept env address port listenAddr listenPort =>
    obtain rfl := Option.some.inj moved
    exact queued.accept env address port listenAddr listenPort
  | addTask id => exact queued.addTask moved
  | newConnection env time address port saddress sport =>
    obtain rfl := Option.some.inj moved
    exact queued.newConnection env time address port saddress sport
  | call id env call => exact queued.serve moved
  | allocServerFail id =>
    -- What is counted of a client is not what is queued.
    obtain ⟨conn, _, rfl⟩ := Option.map_eq_some_iff.mp moved
    exact ⟨queued.emitted, queued.conns, queued.unborn, queued.below⟩
  | finish id onLineTime => exact queued.finish moved
  | clear =>
    -- The rows go, but the queue stays.
    obtain rfl := Option.some.inj moved
    exact ⟨queued.emitted, queued.conns, queued.unborn, queued.below⟩

/-- The queue is in step in every state of the server. -/
theorem queued_of_reachable (reached : Runs.Reachable system s) : s.Queued := by
  apply reached.invariant
  · intro start begun
    subst begun
    exact ⟨trivial, fun _ _ there => by simp [new] at there, fun _ _ => ⟨rfl, rfl⟩, fun _ _ => rfl⟩
  · intro s step t queued moved
    exact queued.step moved

end Server

/-! ## The rows of an execution -/

/-- The executions in a queue. -/
def executions (queue : List (Nat × DBDataT)) : List SqlInfoS :=
  queue.filterMap fun entry => match entry.2 with
    | .clientExecSql sis => some sis
    | _ => none

theorem mem_executions {queue : List (Nat × DBDataT)} {sis : SqlInfoS} :
    sis ∈ executions queue ↔ ∃ id, (id, .clientExecSql sis) ∈ queue := by
  constructor
  · intro member
    obtain ⟨⟨id, data⟩, inside, named⟩ := List.mem_filterMap.mp member
    cases data with
    | clientExecSql begun =>
      obtain rfl := Option.some.inj named
      exact ⟨id, inside⟩
    | _ => exact absurd named (by simp)
  · rintro ⟨id, inside⟩
    exact List.mem_filterMap.mpr ⟨_, inside, rfl⟩

/-- The events of a connection until it begins another execution. -/
def ownEvents (id : Nat) : List (Nat × DBDataT) → List DBDataT
  | [] => []
  | (other, data) :: rest =>
    if other = id then
      match data with
      | .clientExecSql _ => []
      | _ => data :: ownEvents id rest
    else ownEvents id rest

/-- What the events of a queue add to the rows of a key. -/
def addedTo (key : UInt32 × UInt32) (amount : DBDataT → Int) (queue : List (Nat × DBDataT)) : Int :=
  (queue.map fun entry => entry.2.addsTo key amount).sum

/-- An event that updates nothing adds nothing. -/
theorem addsTo_of_updates {key : UInt32 × UInt32} {amount : DBDataT → Int} {data : DBDataT}
    (none_ : data.updates = none) : data.addsTo key amount = 0 := by
  simp [DBDataT.addsTo, none_]

/-- An execution updates nothing. -/
theorem ownEvents_cons_exec (id : Nat) (sis : SqlInfoS) (rest : List (Nat × DBDataT)) :
    ownEvents id ((id, .clientExecSql sis) :: rest) = [] := by
  simp [ownEvents]

theorem ownEvents_cons_self {id : Nat} {data : DBDataT} (plain : data.inserts = none)
    (rest : List (Nat × DBDataT)) :
    ownEvents id ((id, data) :: rest) = data :: ownEvents id rest := by
  cases data with
  | clientExecSql sis => simp [DBDataT.inserts] at plain
  | _ => simp [ownEvents]

theorem ownEvents_cons_other {id other : Nat} (differ : other ≠ id) (data : DBDataT)
    (rest : List (Nat × DBDataT)) : ownEvents id ((other, data) :: rest) = ownEvents id rest := by
  simp [ownEvents, differ]

/--
As long as no other execution has its key, the updates of an execution's rows are its own.

Once its connection has begun another execution, nothing is added to its rows any more.
-/
theorem addedTo_own {key : UInt32 × UInt32} {amount : DBDataT → Int}
    (figures : ∀ data : DBDataT, data.updates = none → amount data = 0) {id : Nat}
    {queue : List (Nat × DBDataT)} {current : Nat → Option SqlInfoS}
    (emitted : Emitted current queue)
    (others : ∀ other sis, current other = some sis → sis.execKey = key → other = id)
    (apart : ∀ sis ∈ executions queue, sis.execKey ≠ key) :
    ((∃ sis, current id = some sis ∧ sis.execKey = key) →
      addedTo key amount queue = ((ownEvents id queue).map amount).sum) ∧
      ((∀ sis, current id = some sis → sis.execKey ≠ key) → addedTo key amount queue = 0) := by
  -- The first event is of an execution that is current, or it begins one.
  induction queue generalizing current with
  | nil => exact ⟨fun _ => rfl, fun _ => rfl⟩
  | cons entry rest ih =>
    obtain ⟨other, data⟩ := entry
    obtain ⟨about, _, later⟩ := emitted
    have first : addedTo key amount ((other, data) :: rest) =
        data.addsTo key amount + addedTo key amount rest := by
      simp [addedTo]
    cases inserts : data.inserts with
    | some sett =>
      have none_ := updates_of_inserts inserts
      obtain ⟨sis, rfl⟩ := exec_of_inserts inserts
      have new : sis.execKey ≠ key := apart sis (by simp [executions])
      have apart' : ∀ sis ∈ executions rest, sis.execKey ≠ key := by
        intro sis' member
        obtain ⟨o, inside⟩ := mem_executions.mp member
        exact apart sis' (mem_executions.mpr ⟨o, List.mem_cons_of_mem _ inside⟩)
      have others' : ∀ o sis', noteExec current (other, .clientExecSql sis) o = some sis' →
          sis'.execKey = key → o = id := by
        intro o sis' now same
        by_cases self : o = other
        · subst self
          obtain rfl : sis = sis' := by simpa [noteExec] using now
          exact absurd same new
        · exact others o sis' (by simpa [noteExec, self] using now) same
      obtain ⟨own, gone⟩ := ih later others' apart'
      rw [first, addsTo_of_updates none_, zero_add]
      by_cases self : other = id
      · subst self
        have ended : addedTo key amount rest = 0 := by
          apply gone
          intro sis' now
          obtain rfl : sis = sis' := by simpa [noteExec] using now
          exact new
        exact ⟨fun _ => by rw [ended, ownEvents_cons_exec]; rfl, fun _ => ended⟩
      · have same : noteExec current (other, .clientExecSql sis) id = current id := by
          simp [noteExec, Ne.symm self]
        rw [same] at own gone
        rw [ownEvents_cons_other self]
        exact ⟨own, gone⟩
    | none =>
      have same := @noteExec_of_inserts current other data inserts
      rw [same] at later
      have apart' : ∀ sis ∈ executions rest, sis.execKey ≠ key := by
        intro sis' member
        obtain ⟨o, inside⟩ := mem_executions.mp member
        exact apart sis' (mem_executions.mpr ⟨o, List.mem_cons_of_mem _ inside⟩)
      obtain ⟨own, gone⟩ := ih later others apart'
      cases updates : data.updates with
      | none =>
        rw [first, addsTo_of_updates updates, zero_add]
        refine ⟨fun now => ?_, gone⟩
        rw [own now]
        by_cases self : other = id
        · subst self
          rw [ownEvents_cons_self inserts, List.map_cons, List.sum_cons, figures data updates,
            zero_add]
        · rw [ownEvents_cons_other self]
      | some sett =>
        obtain ⟨sis', now', settKey⟩ := about sett updates
        by_cases hit : sis'.execKey = key
        · -- The event is of the execution itself.
          obtain rfl := others other sis' now' hit
          have adds : data.addsTo key amount = amount data := by
            simp [DBDataT.addsTo, updates, settKey, hit]
          refine ⟨fun now => ?_, fun never => absurd hit (never sis' now')⟩
          rw [first, adds, own now, ownEvents_cons_self inserts, List.map_cons, List.sum_cons]
        · have adds : data.addsTo key amount = 0 := by
            simp [DBDataT.addsTo, updates, settKey, hit]
          rw [first, adds, zero_add]
          refine ⟨fun now => ?_, gone⟩
          have differ : other ≠ id := by
            rintro rfl
            obtain ⟨sis, here, same⟩ := now
            obtain rfl := Option.some.inj (now'.symm.trans here)
            exact hit same
          rw [own now, ownEvents_cons_other differ]

end OneProxy.Record
