import OneProxy.Lib.Tracing
import OneProxy.Stats.ServerLaws

/-! Who runs which statement: the clients of a statement, and the statements of a client. -/

namespace OneProxy.Record

/-- `clientSet` of a statement's entry holds a client. -/
def InClientSet (record : Record) (client sql : UInt32) : Prop :=
  ∃ info, record.sqlInfoMap sql = some info ∧ client ∈ info.clientSet

/-- `sqlList` of a client's entry holds a statement. -/
def InSqlList (record : Record) (client sql : UInt32) : Prop :=
  ∃ info, record.clientQueryMap client = some info ∧ sql ∈ info.sqlList

/-- The two halves of the relation agree. -/
def Symmetric (record : Record) : Prop :=
  ∀ client sql, InClientSet record client sql ↔ InSqlList record client sql

namespace Server

/-- The statements saved so far, each with the client whose connection saved it. -/
abbrev Saves := List (UInt32 × UInt32)

/-- Notes the statement that a step saves. -/
def noteSave (s : Server) (step : Step) (saves : Saves) : Saves :=
  match step with
  | .call id _ call =>
    match s.conns id, call.saves with
    | some conn, some sqlText => saves ++ [(conn.addressHashCode, Tool.quickHashCode sqlText)]
    | _, _ => saves
  | _ => saves

/-- The server and the statements saved, in the runs without a clear. -/
def savesSystem : Runs.System (Server × Saves) Step :=
  (system.traced [] noteSave).restrict fun _ step => step ≠ .clear

/-- The first client that saved a statement; every client of a statement without a hash. -/
def Shows (saves : Saves) (client sql : UInt32) : Prop :=
  if sql = 0 then (client, 0) ∈ saves
  else saves.find? (fun save => save.2 = sql) = some (client, sql)

/-- The invariant of the two halves: one lists every save, the other the first. -/
structure Listed (record : Record) (saves : Saves) : Prop where
  list : ∀ client sql, sql ∈ listed (record.clientView client) ↔ (client, sql) ∈ saves
  set : ∀ client sql, (∃ view, record.sqlView sql = some view ∧ client ∈ view.clientSet) ↔
    Shows saves client sql
  hashed : ∀ sql view, record.sqlView sql = some view → view.hashCode = sql
  saved : ∀ sql, (record.sqlView sql).isSome ↔ ∃ client, (client, sql) ∈ saves

/-- The relation in terms of the views. -/
theorem inClientSet_iff {record : Record} {client sql : UInt32} :
    InClientSet record client sql ↔
      ∃ view, record.sqlView sql = some view ∧ client ∈ view.clientSet := by
  unfold InClientSet sqlView
  constructor
  · rintro ⟨info, there, member⟩
    exact ⟨info.view, by simp [there], member⟩
  · rintro ⟨view, there, member⟩
    obtain ⟨info, entry, same⟩ := Option.map_eq_some_iff.mp there
    subst same
    exact ⟨info, entry, member⟩

theorem inSqlList_iff {record : Record} {client sql : UInt32} :
    InSqlList record client sql ↔ sql ∈ listed (record.clientView client) := by
  unfold InSqlList clientView
  cases there : record.clientQueryMap client with
  | none => simp [listed]
  | some info => simp [listed, ClientQueryInfo.view]

/-- What a save shows besides. -/
theorem shows_append (saves : Saves) (client sql other : UInt32) (key : UInt32) :
    Shows (saves ++ [(client, sql)]) other key ↔
      Shows saves other key ∨
        (other = client ∧ key = sql ∧ (sql = 0 ∨ ∀ first, (first, sql) ∉ saves)) := by
  unfold Shows
  -- A statement whose hash is 0 has no entry, so that each save of it shows it again.
  by_cases zero : key = 0
  · subst zero
    simp only [if_true, List.mem_append, List.mem_singleton, Prod.mk.injEq]
    constructor
    · rintro (old | ⟨same, rfl⟩)
      · exact Or.inl old
      · exact Or.inr ⟨same, rfl, Or.inl rfl⟩
    · rintro (old | ⟨same, same', _⟩)
      · exact Or.inl old
      · exact Or.inr ⟨same, same'⟩
  · simp only [zero, if_false, List.find?_append]
    cases found : saves.find? (fun save => save.2 = key) with
    | some first =>
      have hit := List.find?_some found
      have member := List.mem_of_find?_eq_some found
      simp only [decide_eq_true_eq] at hit
      simp only [Option.some_or, Option.some.injEq]
      constructor
      · exact Or.inl
      · rintro (old | ⟨_, same, none⟩)
        · exact old
        · rcases none with zero' | none
          · exact absurd (same.trans zero') zero
          · have save : (first.1, sql) ∈ saves := by rwa [← same, ← hit]
            exact absurd save (none first.1)
    | none =>
      have none := List.find?_eq_none.mp found
      simp only [Option.none_or, reduceCtorEq, false_or]
      by_cases self : sql = key
      · subst self
        simp only [List.find?_cons, decide_true, Option.some.injEq, Prod.mk.injEq, and_true,
          true_and]
        constructor
        · intro same
          exact ⟨same.symm, Or.inr fun first member => none _ member (by simp)⟩
        · intro same
          exact same.1.symm
      · have differ : ¬ key = sql := fun equal => self equal.symm
        simp [self, differ]

/-- Steps that leave the views as they are keep the invariant. -/
theorem Listed.of_same {record after : Record} {saves : Saves} (inv : Listed record saves)
    (same : SameViews record after) : Listed after saves := by
  obtain ⟨list, set, hashed, saved⟩ := inv
  refine ⟨?_, ?_, ?_, ?_⟩
  · rw [same.clients]
    exact list
  · rw [same.sqls]
    exact set
  · rw [same.sqls]
    exact hashed
  · rw [same.sqls]
    exact saved

/-- A client that connects keeps its statements. -/
theorem Listed.addNewClient {record : Record} {saves : Saves} (inv : Listed record saves)
    (env : Env) (connHashCode hashCode : UInt32) (caddress : Bytes) (cport : UInt32)
    (saddress : Bytes) (sport : UInt32) :
    Listed (record.recordClientQueryAddNewClient env connHashCode hashCode caddress cport saddress
      sport).1 saves := by
  refine ⟨?_, inv.set, inv.hashed, inv.saved⟩
  intro client sql
  rw [clientView_addNewClient]
  by_cases same : client = hashCode
  · subst same
    rw [Function.update_self]
    exact inv.list client sql
  · rw [Function.update_of_ne same]
    exact inv.list client sql

/-- A saved statement is listed for its client, and shows a client that is the first. -/
theorem Listed.save {s t : Serving} {sqlText : Bytes} {saves : Saves}
    (inv : Listed s.record saves) (saved : Saved s t sqlText)
    (target : s.record.clientTarget s.conn.addressHashCode s.conn.clientInfo =
      some s.conn.addressHashCode)
    (entry : (s.record.clientView s.conn.addressHashCode).isSome) :
    Listed t.record (saves ++ [(s.conn.addressHashCode, Tool.quickHashCode sqlText)]) := by
  generalize hash : Tool.quickHashCode sqlText = sql at saved ⊢
  have sqls := saved.sqls
  have clients := saved.clients
  rw [hash] at sqls clients
  rw [target] at clients
  have others : ∀ other, other ≠ sql → t.record.sqlView other = s.record.sqlView other := by
    intro other differ
    rw [sqls, Function.update_of_ne differ]
  have own : t.record.sqlView sql =
      some (filledView s.conn sqlText ((s.record.sqlView sql).getD blankView)) := by
    rw [sqls, Function.update_self]
  refine ⟨?_, ?_, ?_, ?_⟩
  · -- The client's list gets the statement.
    intro client other
    rw [clients, List.mem_append, ← inv.list client other]
    by_cases self : client = s.conn.addressHashCode
    · subst self
      obtain ⟨view, there⟩ := Option.isSome_iff_exists.mp entry
      simp [StdMap.adjustAt, there, listed, or_comm]
    · simp [StdMap.adjustAt, self]
  · -- The statement's set gets the client only where the entry has no hash yet.
    intro client other
    rw [shows_append]
    by_cases self : other = sql
    · subst self
      rw [own]
      cases there : s.record.sqlView other with
      | none =>
        have fresh : ∀ first, (first, other) ∉ saves := by
          intro first member
          have some := (inv.saved other).mpr ⟨first, member⟩
          simp [there] at some
        have old : ¬ Shows saves client other := by
          intro shows
          obtain ⟨view, some, _⟩ := (inv.set client other).mpr shows
          simp [there] at some
        simp [filledView, blankView, old, fresh]
      | some view =>
        have hashed := inv.hashed other view there
        have before : Shows saves client other ↔ client ∈ view.clientSet := by
          rw [← inv.set client other, there]
          simp
        rw [before]
        by_cases zero : other = 0
        · subst zero
          simp [filledView, hashed, or_comm]
        · obtain ⟨first, member⟩ := (inv.saved other).mp (by simp [there])
          have late : ¬ ∀ first, (first, other) ∉ saves := fun fresh => fresh first member
          simp [filledView, hashed, zero, late]
    · rw [others other self, inv.set client other]
      simp [self]
  · intro other view there
    by_cases self : other = sql
    · subst self
      rw [own, Option.some.injEq] at there
      subst there
      unfold filledView
      split
      · exact hash
      · rename_i named
        cases before : s.record.sqlView other with
        | none => simp [before, blankView] at named
        | some view => exact inv.hashed other view before
    · exact inv.hashed other view (by rw [← others other self]; exact there)
  · intro other
    by_cases self : other = sql
    · subst self
      rw [own]
      simp
    · rw [others other self, inv.saved other]
      simp [self]

/-- The statistics look a connection's client up under its hash, whatever the pointer. -/
theorem Registered.target {s : Server} (registered : s.Registered) {id : Nat} {conn : Conn}
    (there : s.conns id = some conn) :
    s.record.clientTarget conn.addressHashCode conn.clientInfo = some conn.addressHashCode := by
  obtain ⟨_, entry, pointer⟩ := registered.conns id conn there
  unfold clientTarget
  rcases pointer with null | known
  · rw [null]
    exact recordGetClientQueryInfo_of_isSome entry
  · rw [known]

/-- Every step but a clear keeps the invariant. -/
theorem Listed.step {s t : Server} {saves : Saves} {step : Step} (registered : s.Registered)
    (inv : Listed s.record saves) (allowed : step ≠ .clear) (moved : s.next step = some t) :
    Listed t.record (noteSave s step saves) := by
  cases step with
  | accept env address port listenAddr listenPort =>
    obtain rfl := Option.some.inj moved
    exact inv.addNewClient env
      (Tool.quickConnHashCode address port listenAddr listenPort env.millisecondTime)
      (Tool.quickHashCode address) address port listenAddr listenPort
  | addTask id =>
    obtain ⟨ns, _, same⟩ := Option.map_eq_some_iff.mp moved
    subst same
    exact inv
  | newConnection env time address port saddress sport =>
    obtain rfl := Option.some.inj moved
    exact inv.addNewClient env time.toUInt32 (Tool.quickHashCode address) address port saddress
      sport
  | call id env call =>
    obtain ⟨conn, serving, there, ran, same⟩ := serve_spec moved
    subst same
    have entry := (registered.conns id conn there).2.1
    have cases := run_cases ran
    cases saves' : call.saves with
    | none =>
      -- A quiet call saves nothing.
      rw [saves'] at cases
      simp only [noteSave, there, saves']
      exact inv.of_same cases.views
    | some sqlText =>
      rw [saves'] at cases
      obtain ⟨u, saved, rest⟩ := cases
      simp only [noteSave, there, saves']
      have target := registered.target there
      exact (@Listed.save ⟨s.record, conn, []⟩ u sqlText saves inv saved target entry).of_same
        rest.views
  | allocServerFail id => exact inv.of_same (sameViews_allocServerFail moved)
  | finish id onLineTime => exact inv.of_same (sameViews_finish moved)
  | clear => exact absurd rfl allowed

/-- What is saved in a run without a clear is what the statistics list. -/
theorem listed_of_reachable {p : Server × Saves} (reached : Runs.Reachable savesSystem p) :
    p.1.Registered ∧ Listed p.1.record p.2 := by
  -- In the beginning nothing is saved and nothing is listed.
  apply reached.invariant
  · intro start begun
    obtain ⟨first, blank⟩ := begun
    obtain ⟨server, saves⟩ := start
    simp only at first blank
    subst first blank
    refine ⟨registered_of_reachable (Runs.Reachable.start rfl), ?_, ?_, ?_, ?_⟩
    · intro client sql
      simp [Server.new, Record.new, clientView, listed]
    · intro client sql
      simp [Server.new, Record.new, sqlView, Shows]
    · intro sql view there
      simp [Server.new, Record.new, sqlView] at there
    · intro sql
      simp [Server.new, Record.new, sqlView]
  · intro a step b inv moved
    obtain ⟨allowed, next, noted⟩ := moved
    refine ⟨inv.1.step next, ?_⟩
    rw [noted]
    exact inv.2.step inv.1 allowed next

/-- Every statement that has a hash is saved by one client only. -/
def OneClient (saves : Saves) : Prop :=
  ∀ sql, sql ≠ 0 → ∀ client other, (client, sql) ∈ saves → (other, sql) ∈ saves → client = other

/-- The two halves agree exactly where no two clients have saved a statement. -/
theorem Listed.symmetric_iff {record : Record} {saves : Saves} (inv : Listed record saves) :
    Symmetric record ↔ OneClient saves := by
  have set : ∀ client sql, InClientSet record client sql ↔ Shows saves client sql :=
    fun client sql => inClientSet_iff.trans (inv.set client sql)
  have list : ∀ client sql, InSqlList record client sql ↔ (client, sql) ∈ saves :=
    fun client sql => inSqlList_iff.trans (inv.list client sql)
  unfold Symmetric
  simp only [set, list]
  constructor
  · intro agree sql named client other member member'
    have first := (agree client sql).mpr member
    have second := (agree other sql).mpr member'
    simp only [Shows, named, if_false] at first second
    rw [first, Option.some.injEq, Prod.mk.injEq] at second
    exact second.1
  · intro one client sql
    by_cases zero : sql = 0
    · simp [Shows, zero]
    · simp only [Shows, zero, if_false]
      constructor
      · exact List.mem_of_find?_eq_some
      · intro member
        cases found : saves.find? (fun save => save.2 = sql) with
        | none =>
          have none := List.find?_eq_none.mp found _ member
          simp at none
        | some first =>
          -- The first client to save it is this one.
          have hit : first.2 = sql := by simpa using List.find?_some found
          have same : first.1 = client :=
            one sql zero first.1 client (by rw [← hit]; exact List.mem_of_find?_eq_some found)
              member
          rw [← hit, ← same]

/--
In every run without a clear, the clients of the statements are those whose lists hold them exactly
where no statement with a hash has been saved by two clients.
-/
theorem clientSql_symmetric_iff {p : Server × Saves} (reached : Runs.Reachable savesSystem p) :
    Symmetric p.1.record ↔ OneClient p.2 :=
  (listed_of_reachable reached).2.symmetric_iff

/-- Nothing is saved to the database, at no particular time. -/
def quietEnv : Env := ⟨false, 0, 0⟩

/-- A first and a second client of the monitor. -/
def firstClient : Step := .newConnection quietEnv 0 [49] 1 [50] 2

def secondClient : Step := .newConnection quietEnv 0 [51] 1 [50] 2

/-- Both clients run a statement, one after the other. -/
def sharedStatement : List Step :=
  [firstClient, secondClient, .call 0 quietEnv (.saveSql [97]), .call 1 quietEnv (.saveSql [97])]

/-- A run with its notes. -/
def noted (s : Server) (saves : Saves) : List Step → Option (Server × Saves)
  | [] => some (s, saves)
  | step :: rest => (s.next step).bind fun t => noted t (noteSave s step saves) rest

/-- What is run without a clear is reached with its notes. -/
theorem reachable_of_noted {s : Server} {saves : Saves} {steps : List Step} {p : Server × Saves}
    (reached : Runs.Reachable savesSystem (s, saves)) (allowed : ∀ step ∈ steps, step ≠ .clear)
    (done : noted s saves steps = some p) : Runs.Reachable savesSystem p := by
  induction steps generalizing s saves with
  | nil =>
    obtain rfl : (s, saves) = p := by simpa [noted] using done
    exact reached
  | cons step rest ih =>
    obtain ⟨t, moved, later⟩ := Option.bind_eq_some_iff.mp done
    have first : savesSystem.step (s, saves) step (t, noteSave s step saves) :=
      ⟨allowed step List.mem_cons_self, moved, rfl⟩
    exact ih (reached.next first) (fun step' member =>
      allowed step' (List.mem_cons_of_mem _ member))
      later

/-- The statement of one client. -/
theorem clientSql_symmetric_firstClient :
    ∃ p, noted new [] [firstClient, .call 0 quietEnv (.saveSql [97])] = some p ∧
      (Symmetric p.1.record ↔ OneClient p.2) := by
  have run : (noted new [] [firstClient, .call 0 quietEnv (.saveSql [97])]).isSome := by
    decide +kernel
  obtain ⟨p, done⟩ := Option.isSome_iff_exists.mp run
  have allowed : ∀ step ∈ [firstClient, .call 0 quietEnv (.saveSql [97])], step ≠ .clear := by
    simp [firstClient]
  exact ⟨p, done, clientSql_symmetric_iff
    (reachable_of_noted (Runs.Reachable.start ⟨rfl, rfl⟩) allowed done)⟩

/-- The second client of a statement lists it, but is not among the statement's clients. -/
theorem sharedStatement_not_symmetric :
    ∃ p, Runs.Reachable savesSystem p ∧ ¬ Symmetric p.1.record := by
  have run : (noted new [] sharedStatement).isSome := by decide +kernel
  have saves : (noted new [] sharedStatement).map Prod.snd =
      some [(Tool.quickHashCode [49], Tool.quickHashCode [97]),
        (Tool.quickHashCode [51], Tool.quickHashCode [97])] := by decide +kernel
  obtain ⟨p, done⟩ := Option.isSome_iff_exists.mp run
  have allowed : ∀ step ∈ sharedStatement, step ≠ .clear := by
    simp [sharedStatement, firstClient, secondClient]
  have reached := reachable_of_noted (Runs.Reachable.start ⟨rfl, rfl⟩) allowed done
  refine ⟨p, reached, ?_⟩
  rw [(listed_of_reachable reached).2.symmetric_iff]
  rw [done, Option.map_some, Option.some.injEq] at saves
  rw [saves]
  intro one
  have same := one (Tool.quickHashCode [97]) (by decide +kernel) (Tool.quickHashCode [49])
    (Tool.quickHashCode [51]) (by simp) (by simp)
  exact absurd same (by decide +kernel)

end Server

end OneProxy.Record
