import OneProxy.Stats.ServerLaws

/-! The hash of a connection in the events for the database. -/

namespace OneProxy.Record

namespace Server

variable {s t : Server}

/-- Every later event of a connection joins with its row. -/
def Joined (s : Server) (id : Nat) : Prop :=
  ∀ row data rowHash eventHash, (id, row) ∈ s.dbData → (id, data) ∈ s.dbData →
    row.row = some rowHash → data.joins = some eventHash → rowHash = eventHash

/-- What is known of a connection: the hash of its row, and the hash of its events. -/
structure Carries (s : Server) (id : Nat) (rowHash eventHash : UInt32) : Prop where
  made : id < s.made
  accepted : ∀ ns, s.accepted id = some ns → ns.connHashCode = eventHash
  conns : ∀ conn, s.conns id = some conn → conn.connectionHashcode = eventHash
  events : ∀ data, (id, data) ∈ s.dbData →
    (∀ hash, data.row = some hash → hash = rowHash ∧ hash ≠ 0) ∧
      ∀ hash, data.joins = some hash → hash = eventHash

/-- The sockets, connections and events are of connections that were made. -/
structure Fresh (s : Server) : Prop where
  accepted : ∀ id, s.made ≤ id → s.accepted id = none
  conns : ∀ id, s.made ≤ id → s.conns id = none
  events : ∀ id data, (id, data) ∈ s.dbData → id < s.made

/-- The event of a new client is its row. -/
theorem addNewClient_row {record : Record} {env : Env} {connHashCode hashCode : UInt32}
    {caddress saddress : Bytes} {cport sport : UInt32} {data : DBDataT}
    (added : (record.recordClientQueryAddNewClient env connHashCode hashCode caddress cport saddress
      sport).2 = some data) :
    data.row = some connHashCode ∧ connHashCode ≠ 0 ∧ data.joins = none := by
  simp only [recordClientQueryAddNewClient] at added
  split at added
  · simp at added
  · rename_i positive
    simp only [Option.some.injEq] at added
    subst added
    refine ⟨rfl, ?_, rfl⟩
    rintro rfl
    exact positive (Or.inr (UInt32.le_refl 0))

/-- An event that is added for another connection is none of this one's. -/
theorem old_of_other {id other : Nat} {event : Option DBDataT} (differ : id ≠ other)
    (data : DBDataT)
    (member : (id, data) ∈ s.dbData ++ event.toList.map fun data => (other, data)) :
    (id, data) ∈ s.dbData := by
  rcases List.mem_append.mp member with old | new
  · exact old
  · obtain ⟨_, _, same⟩ := List.mem_map.mp new
    exact absurd (Prod.mk.inj same).1.symm differ

/-- Every step keeps what is known of a connection. -/
theorem Carries.step {id : Nat} {rowHash eventHash : UInt32} {step : Step}
    (carries : s.Carries id rowHash eventHash) (moved : s.next step = some t) :
    t.Carries id rowHash eventHash := by
  cases step with
  | accept env address port listenAddr listenPort =>
    obtain rfl := Option.some.inj moved
    have differ : id ≠ s.made := Nat.ne_of_lt carries.made
    refine ⟨Nat.lt_succ_of_lt carries.made, ?_, carries.conns, ?_⟩
    · intro ns there
      exact carries.accepted ns (by simpa [acceptClientRequest, recorded, differ] using there)
    · intro data member
      exact carries.events data (old_of_other differ data member)
  | addTask other =>
    obtain ⟨ns, waiting, same⟩ := Option.map_eq_some_iff.mp moved
    subst same
    refine ⟨carries.made, ?_, ?_, carries.events⟩
    · intro ns' there
      by_cases self : id = other
      · simp [self] at there
      · exact carries.accepted ns' (by simpa [self] using there)
    · intro conn there
      by_cases self : id = other
      · subst self
        simp only [Function.update_self, Option.some.injEq] at there
        subst there
        exact carries.accepted ns waiting
      · exact carries.conns conn (by simpa [self] using there)
  | newConnection env time address port saddress sport =>
    obtain rfl := Option.some.inj moved
    have differ : id ≠ s.made := Nat.ne_of_lt carries.made
    refine ⟨Nat.lt_succ_of_lt carries.made, carries.accepted, ?_, ?_⟩
    · intro conn there
      exact carries.conns conn (by simpa [newConnection, recorded, differ] using there)
    · intro data member
      exact carries.events data (old_of_other differ data member)
  | call other env call =>
    obtain ⟨conn, serving, there, ran, same⟩ := serve_spec moved
    subst same
    have kept := kept_run ran
    refine ⟨carries.made, carries.accepted, ?_, ?_⟩
    · intro conn' open'
      by_cases self : id = other
      · subst self
        simp only [Function.update_self, Option.some.injEq] at open'
        subst open'
        exact kept.connectionHashcode.trans (carries.conns conn there)
      · exact carries.conns conn' (by simpa [self] using open')
    · intro data member
      rcases List.mem_append.mp member with old | new
      · exact carries.events data old
      · -- The call's events are of its own connection.
        obtain ⟨data', added, equal⟩ := List.mem_map.mp new
        obtain ⟨rfl, rfl⟩ := Prod.mk.inj equal
        obtain ⟨events, same, ofConn⟩ := kept.dbData
        rw [same, List.nil_append] at added
        obtain ⟨noRow, joins⟩ := ofConn data' added
        refine ⟨fun hash row => by simp [noRow] at row, ?_⟩
        intro hash joined
        exact (joins hash joined).trans (carries.conns conn there)
  | allocServerFail other =>
    obtain ⟨conn, _, same⟩ := Option.map_eq_some_iff.mp moved
    subst same
    exact ⟨carries.made, carries.accepted, carries.conns, carries.events⟩
  | finish other onLineTime =>
    obtain ⟨conn, _, same⟩ := Option.map_eq_some_iff.mp moved
    subst same
    refine ⟨carries.made, carries.accepted, ?_, carries.events⟩
    intro conn' there
    by_cases self : id = other
    · simp [self] at there
    · exact carries.conns conn' (by simpa [self] using there)
  | clear =>
    obtain rfl := Option.some.inj moved
    exact ⟨carries.made, carries.accepted, carries.conns, carries.events⟩

/-- The events that a step adds are of a connection that was made. -/
theorem Fresh.added (fresh : s.Fresh) {id other bound : Nat} {data : DBDataT}
    {added : List DBDataT} (grown : s.made ≤ bound) (below : other < bound)
    (member : (id, data) ∈ s.dbData ++ added.map fun data => (other, data)) : id < bound := by
  rcases List.mem_append.mp member with old | new
  · exact Nat.lt_of_lt_of_le (fresh.events id data old) grown
  · obtain ⟨_, _, same⟩ := List.mem_map.mp new
    rw [← (Prod.mk.inj same).1]
    exact below

/-- Every step makes only connections that it counts. -/
theorem Fresh.step {step : Step} (fresh : s.Fresh) (moved : s.next step = some t) : t.Fresh := by
  -- Only an accepted and a monitored connection are numbered; the other steps are about one that
  -- was.
  cases step with
  | accept env address port listenAddr listenPort =>
    obtain rfl := Option.some.inj moved
    refine ⟨?_, ?_, ?_⟩
    · intro id later
      have differ : id ≠ s.made := Nat.ne_of_gt later
      simpa [acceptClientRequest, recorded, differ] using fresh.accepted id (Nat.le_of_lt later)
    · exact fun id later => fresh.conns id (Nat.le_of_lt later)
    · exact fun id data member => fresh.added (Nat.le_succ s.made) (Nat.lt_succ_self s.made) member
  | addTask id =>
    obtain ⟨ns, waiting, same⟩ := Option.map_eq_some_iff.mp moved
    subst same
    have made : id < s.made := by
      by_contra later
      simp [fresh.accepted id (Nat.le_of_not_lt later)] at waiting
    refine ⟨?_, ?_, fresh.events⟩
    · intro other later
      have differ : other ≠ id := Nat.ne_of_gt (Nat.lt_of_lt_of_le made later)
      simpa [differ] using fresh.accepted other later
    · intro other later
      have differ : other ≠ id := Nat.ne_of_gt (Nat.lt_of_lt_of_le made later)
      simpa [differ] using fresh.conns other later
  | newConnection env time address port saddress sport =>
    obtain rfl := Option.some.inj moved
    refine ⟨?_, ?_, ?_⟩
    · exact fun id later => fresh.accepted id (Nat.le_of_lt later)
    · intro id later
      have differ : id ≠ s.made := Nat.ne_of_gt later
      simpa [newConnection, recorded, differ] using fresh.conns id (Nat.le_of_lt later)
    · exact fun id data member => fresh.added (Nat.le_succ s.made) (Nat.lt_succ_self s.made) member
  | call id env call =>
    obtain ⟨conn, serving, there, _, same⟩ := serve_spec moved
    subst same
    have made : id < s.made := by
      by_contra later
      simp [fresh.conns id (Nat.le_of_not_lt later)] at there
    refine ⟨fresh.accepted, ?_, ?_⟩
    · intro other later
      have differ : other ≠ id := Nat.ne_of_gt (Nat.lt_of_lt_of_le made later)
      simpa [differ] using fresh.conns other later
    · exact fun other data member => fresh.added (Nat.le_refl s.made) made member
  | allocServerFail id =>
    obtain ⟨conn, _, same⟩ := Option.map_eq_some_iff.mp moved
    subst same
    exact ⟨fresh.accepted, fresh.conns, fresh.events⟩
  | finish id onLineTime =>
    obtain ⟨conn, _, same⟩ := Option.map_eq_some_iff.mp moved
    subst same
    refine ⟨fresh.accepted, ?_, fresh.events⟩
    intro other later
    by_cases self : other = id
    · simp [self]
    · simpa [self] using fresh.conns other later
  | clear =>
    obtain rfl := Option.some.inj moved
    exact ⟨fresh.accepted, fresh.conns, fresh.events⟩

theorem fresh_of_reachable (reached : Runs.Reachable system s) : s.Fresh := by
  apply reached.invariant
  · intro start begun
    subst begun
    exact ⟨fun _ _ => rfl, fun _ _ => rfl, fun _ _ member => by simp [new] at member⟩
  · intro a step b fresh moved
    exact fresh.step moved

/-- What is known of a connection stays known in every run. -/
theorem Carries.run {id : Nat} {rowHash eventHash : UInt32} {labels : List Step}
    (carries : s.Carries id rowHash eventHash) (run : Runs.Run system s labels t) :
    t.Carries id rowHash eventHash :=
  run.preserves (fun u _ _ (carries : u.Carries id rowHash eventHash) moved => carries.step moved)
    carries

/-- A connection is joined if its row and its events carry one hash. -/
theorem Carries.joined {id : Nat} {hash : UInt32} (carries : s.Carries id hash hash) :
    s.Joined id := by
  intro row data rowHash eventHash rowMember member isRow joins
  exact ((carries.events row rowMember).1 rowHash isRow).1.trans
    ((carries.events data member).2 eventHash joins).symm

/-- A connection whose row would have the hash zero has none, and is joined. -/
theorem Carries.joined_of_zero {id : Nat} {hash : UInt32} (carries : s.Carries id 0 hash) :
    s.Joined id := by
  intro row data rowHash eventHash rowMember _ isRow
  obtain ⟨zero, named⟩ := (carries.events row rowMember).1 rowHash isRow
  exact absurd zero named

end Server

/-- How a connection comes to the server: through the proxy, or through the monitor. -/
inductive Origin
  | proxy (env : Env) (address : Bytes) (port : UInt32) (listenAddr : Bytes) (listenPort : UInt32)
  | monitor (env : Env) (time : UInt64) (address : Bytes) (port : UInt32) (saddress : Bytes)
      (sport : UInt32)

namespace Origin

/-- The step that makes the connection. -/
def step : Origin → Step
  | proxy env address port listenAddr listenPort =>
    .accept env address port listenAddr listenPort
  | monitor env time address port saddress sport =>
    .newConnection env time address port saddress sport

/-- The configuration and the clocks at that time. -/
def env : Origin → Env
  | proxy env _ _ _ _ => env
  | monitor env _ _ _ _ _ => env

/-- The hash that the row is made with. -/
def rowHash : Origin → UInt32
  | proxy env address port listenAddr listenPort =>
    Tool.quickConnHashCode address port listenAddr listenPort env.millisecondTime
  | monitor _ time _ _ _ _ => time.toUInt32

/-- The hash of the connection. -/
def connHash : Origin → UInt32
  | proxy env address port listenAddr listenPort =>
    Tool.quickConnHashCode address port listenAddr listenPort env.millisecondTime
  | monitor _ time address port saddress sport =>
    Tool.quickConnHashCode address port saddress sport time

/-- The monitor's time, cut to 32 bits, is zero or happens to be the connection's hash. -/
def Matches : Origin → Prop
  | proxy .. => True
  | monitor _ time address port saddress sport =>
    time.toUInt32 = 0 ∨ time.toUInt32 = Tool.quickConnHashCode address port saddress sport time

end Origin

/-- The events of a step are saved to the database. -/
def Step.Saving : Step → Prop
  | .accept env _ _ _ _ => env.statsUserDB = true
  | .newConnection env _ _ _ _ _ => env.statsUserDB = true
  | .call _ env _ => env.statsUserDB = true
  | _ => True

namespace Server

variable {s t : Server}

/-- The only event of a new connection is its row. -/
theorem event_of_made {record : Record} {env : Env} {connHashCode hashCode eventHash : UInt32}
    {caddress saddress : Bytes} {cport sport : UInt32} {data : DBDataT}
    (unused : ∀ data, (s.made, data) ∉ s.dbData)
    (member : (s.made, data) ∈ s.dbData ++ (record.recordClientQueryAddNewClient env connHashCode
      hashCode caddress cport saddress sport).2.toList.map fun data => (s.made, data)) :
    (∀ hash, data.row = some hash → hash = connHashCode ∧ hash ≠ 0) ∧
      ∀ hash, data.joins = some hash → hash = eventHash := by
  rcases List.mem_append.mp member with old | new
  · exact absurd old (unused data)
  · obtain ⟨data', added, same⟩ := List.mem_map.mp new
    obtain ⟨_, rfl⟩ := Prod.mk.inj same
    obtain ⟨isRow, named, joins⟩ := addNewClient_row (Option.mem_toList.mp added)
    refine ⟨?_, fun hash joined => by simp [joins] at joined⟩
    intro hash row
    obtain rfl := Option.some.inj (isRow.symm.trans row)
    exact ⟨rfl, named⟩

/-- A new connection carries the hashes of its origin. -/
theorem carries_of_made {origin : Origin} (fresh : s.Fresh) (made : s.next origin.step = some t) :
    t.Carries s.made origin.rowHash origin.connHash := by
  -- The number is fresh, so that the only event of the connection is the one that is added.
  have unused : ∀ data, (s.made, data) ∉ s.dbData := fun data member =>
    Nat.lt_irrefl _ (fresh.events s.made data member)
  cases origin with
  | proxy env address port listenAddr listenPort =>
    obtain rfl := Option.some.inj made
    refine ⟨Nat.lt_succ_self s.made, ?_, ?_, ?_⟩
    · intro ns there
      simp only [acceptClientRequest, recorded, Function.update_self, Option.some.injEq] at there
      subst there
      rfl
    · intro conn there
      have none : s.conns s.made = some conn := there
      simp [fresh.conns s.made (Nat.le_refl _)] at none
    · exact fun data member => event_of_made unused member
  | monitor env time address port saddress sport =>
    obtain rfl := Option.some.inj made
    refine ⟨Nat.lt_succ_self s.made, ?_, ?_, ?_⟩
    · intro ns there
      have none : s.accepted s.made = some ns := there
      simp [fresh.accepted s.made (Nat.le_refl _)] at none
    · intro conn there
      simp only [newConnection, recorded, Function.update_self, Option.some.injEq] at there
      subst there
      rfl
    · exact fun data member => event_of_made unused member

/-- An entry without a hash is filled in for a statement without tables. -/
theorem savedSql_unused {conn : Conn} {info : SqlInfo} (blank : info.part.hashCode = 0)
    (unused : conn.record.sqlInfo.tableCount = 0) :
    ∃ saved, savedSql conn info = some saved ∧ saved.part.tabs = 0 := by
  cases filled : savedSql conn info with
  | none => simp [savedSql, blank, unused, tablesOf] at filled
  | some saved =>
    refine ⟨saved, rfl, ?_⟩
    simp only [savedSql, blank, if_true, Option.bind_eq_bind, Option.bind_eq_some_iff,
      Option.some.injEq] at filled
    obtain ⟨tables, _, same⟩ := filled
    subst same
    simp [unused]

/-- A statement that can be saved adds an event, if events are saved. -/
theorem recordSqlInfoAddSql_event {record : Record} {env : Env} {conn : Conn} {info : SqlInfo}
    {tables : List Bytes} (saving : env.statsUserDB = true)
    (filled : savedSql conn ((record.sqlInfoMap conn.record.sqlInfo.sqlHashCode).getD .new) =
      some info)
    (named : tablesOf conn.record.sqlInfo.tableNameVec info.part.tabs = some tables) :
    ∃ after conn' data, record.recordSqlInfoAddSql env conn = some (after, conn', some data) ∧
      data.joins = some conn.connectionHashcode := by
  simp only [recordSqlInfoAddSql, filled, named, saving, not_true_eq_false, if_false,
    Option.bind_eq_bind, Option.bind_some, Option.some.injEq, Prod.mk.injEq]
  exact ⟨_, _, _, ⟨rfl, rfl, rfl⟩, rfl⟩

/-- The empty statement of a connection without tables is saved with an event. -/
theorem statSaveSql_empty {record : Record} {conn : Conn} {env : Env}
    (saving : env.statsUserDB = true) (hashed : Hashed record)
    (unused : conn.record.sqlInfo.tableCount = 0) :
    ∃ serving data, Serving.statSaveSql ⟨record, conn, []⟩ env [] = some serving ∧
      data ∈ serving.dbData ∧ data.joins = some conn.connectionHashcode := by
  -- The hash of the empty text is 0, which is also what a blank entry has.
  have zero : Tool.quickHashCode [] = 0 := by decide
  have blank : ((record.sqlInfoMap (Tool.quickHashCode [])).getD .new).part.hashCode = 0 := by
    cases there : record.sqlInfoMap (Tool.quickHashCode []) with
    | none => rfl
    | some info =>
      have view : record.sqlView (Tool.quickHashCode []) = some info.view := by
        simp [sqlView, there]
      rcases hashed _ _ view with blank | named
      · exact blank
      · exact named.trans zero
  let empty : Conn := { conn with
    record := { conn.record with sqlInfo := { conn.record.sqlInfo with
      sqlText := [], sqlHashCode := Tool.quickHashCode [] } } }
  obtain ⟨saved, filled, tabs⟩ := @savedSql_unused empty _ blank unused
  have named : tablesOf empty.record.sqlInfo.tableNameVec saved.part.tabs = some [] := by
    rw [tabs]
    rfl
  obtain ⟨after, conn', data, added, joins⟩ := recordSqlInfoAddSql_event saving filled named
  refine ⟨Serving.recorded ⟨after, conn', [] ++ [data]⟩
    (after.recordClientQueryAddSql env conn' conn'.clientInfo), data, ?_, ?_, joins⟩
  · simp only [Serving.statSaveSql, Serving.updateSqlInfo, Serving.updateDoing, Option.bind_eq_bind]
    rw [added]
    rfl
  · simp [Serving.recorded]

/-- A connection that names no tables can run the empty statement, which adds an event. -/
theorem serve_empty {id : Nat} {conn : Conn} {env : Env} (saving : env.statsUserDB = true)
    (hashed : Hashed s.record) (there : s.conns id = some conn)
    (unused : conn.record.sqlInfo.tableCount = 0) :
    ∃ t data, s.next (.call id env (.saveSql [])) = some t ∧ (id, data) ∈ t.dbData ∧
      data.joins = some conn.connectionHashcode := by
  obtain ⟨serving, data, saved, member, joins⟩ := statSaveSql_empty saving hashed unused
  refine ⟨{ s with
    record := serving.record
    conns := Function.update s.conns id (some serving.conn)
    dbData := s.dbData ++ serving.dbData.map fun data => (id, data) }, data, ?_, ?_, joins⟩
  · simp only [next, serve, there, Call.run, saved, Option.bind_eq_bind, Option.bind_some]
  · exact List.mem_append_right _ (List.mem_map.mpr ⟨data, member, rfl⟩)

/-- The row of a connection of the monitor, if the time makes a hash. -/
theorem newConnection_row (s : Server) {env : Env} {time : UInt64} {address saddress : Bytes}
    {port sport : UInt32} (saving : env.statsUserDB = true) (named : time.toUInt32 ≠ 0) :
    ∃ row, (s.made, row) ∈ (s.newConnection env time address port saddress sport).dbData ∧
      row.row = some time.toUInt32 := by
  have positive : ¬ time.toUInt32 ≤ 0 := fun below => named (UInt32.le_zero_iff.mp below)
  refine ⟨.clientInfo ⟨time.toUInt32, address, port, saddress, sport, Tool.quickHashCode address,
    env.millisecondTime, 0, 0⟩, List.mem_append_right _ ?_, rfl⟩
  simp [recordClientQueryAddNewClient, saving, positive]

/-- A call keeps the events that there are. -/
theorem dbData_grows {id other : Nat} {env : Env} {call : Call} {data : DBDataT}
    (moved : s.next (.call other env call) = some t) (member : (id, data) ∈ s.dbData) :
    (id, data) ∈ t.dbData := by
  obtain ⟨_, serving, _, _, same⟩ := serve_spec moved
  subst same
  exact List.mem_append_left _ member

/--
Every run after a connection is made joins its events with its row exactly where the connection
came through the proxy, or where the monitor's time is the connection's hash or zero.
-/
theorem joined_matches {origin : Origin} (reached : Runs.Reachable system s)
    (saving : origin.step.Saving) (made : s.next origin.step = some t) :
    (∀ labels u, Runs.Run system t labels u → (∀ step ∈ labels, step.Saving) →
      u.Joined s.made) ↔ origin.Matches := by
  have carries := carries_of_made (fresh_of_reachable reached) made
  constructor
  · intro joined
    cases origin with
    | proxy => trivial
    | monitor env time address port saddress sport =>
      by_contra differ
      obtain ⟨named, differ⟩ := not_or.mp differ
      -- The row has the time, and the first statement's event the hash.
      obtain rfl := Option.some.inj made
      let conn := Conn.new address (Tool.quickHashCode address)
        (Tool.quickConnHashCode address port saddress sport time) none
      have opened : (s.newConnection env time address port saddress sport).conns s.made =
          some conn := by simp [newConnection, recorded, conn]
      obtain ⟨u, data, moved, member, joins⟩ := serve_empty saving
        (hashed_of_reachable (reached.next made)) opened rfl
      have run : Runs.Run system (s.newConnection env time address port saddress sport)
          ([] ++ [.call s.made env (.saveSql [])]) u := (Runs.Run.nil _).snoc moved
      obtain ⟨row, rowMember, isRow⟩ := @newConnection_row s _ _ address saddress port sport
        saving named
      have same := joined _ u run (by simpa [Step.Saving, Origin.step] using saving) row data _ _
        (dbData_grows moved rowMember) member isRow joins
      exact differ same
  · intro is labels u run _
    have carried := carries.run run
    cases origin with
    | proxy => exact carried.joined
    | monitor env time address port saddress sport =>
      simp only [Origin.rowHash, Origin.connHash] at carried
      rcases is with zero | same
      · rw [zero] at carried
        exact carried.joined_of_zero
      · rw [same] at carried
        exact carried.joined

/--
With saving, the row and the events of a connection carry one hash in every run exactly where the
connection came through the proxy, or where the monitor's time is the connection's hash or zero.
-/
theorem connHash_joined_iff {origin : Origin} (reached : Runs.Reachable system s)
    (saving : origin.step.Saving) (made : s.next origin.step = some t) :
    (∀ labels u, Runs.Run system t labels u → (∀ step ∈ labels, step.Saving) →
      u.Joined s.made) ↔ origin.Matches :=
  joined_matches reached saving made

/-- A client of the monitor at a time of the system's clock. -/
def monitored : Origin :=
  .monitor ⟨true, 1700000000000, 1700000000⟩ 1700000000000 [49, 48, 46, 48, 46, 48, 46, 49] 40000
    [49, 48, 46, 48, 46, 48, 46, 50] 1433

/-- The first connection of the monitor. -/
theorem connHash_joined_monitored :
    (∀ labels u, Runs.Run system (new.newConnection ⟨true, 1700000000000, 1700000000⟩ 1700000000000
        [49, 48, 46, 48, 46, 48, 46, 49] 40000 [49, 48, 46, 48, 46, 48, 46, 50] 1433) labels u →
      (∀ step ∈ labels, step.Saving) → u.Joined 0) ↔ monitored.Matches :=
  @connHash_joined_iff new _ monitored (Runs.Reachable.start rfl) rfl rfl

/-- The monitor's first connection has events that join with no row. -/
theorem monitored_not_joined :
    ∃ t, new.next monitored.step = some t ∧
      ∃ labels u, Runs.Run system t labels u ∧ (∀ step ∈ labels, step.Saving) ∧ ¬ u.Joined 0 := by
  refine ⟨_, rfl, ?_⟩
  have differ : ¬ monitored.Matches := by
    rintro (zero | same)
    · exact absurd zero (by decide +kernel)
    · exact absurd same (by decide +kernel)
  by_contra joined
  refine differ ((@joined_matches new _ monitored (Runs.Reachable.start rfl) rfl rfl).mp ?_)
  intro labels u run saving
  by_contra apart
  exact joined ⟨labels, u, run, saving, apart⟩

end Server

end OneProxy.Record
