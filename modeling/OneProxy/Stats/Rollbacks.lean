import OneProxy.Lib.AllAlong
import OneProxy.Stats.Server
import OneProxy.Stats.ServingLaws
import OneProxy.Util.Digits

/-! Whether the transactions that are counted as rolled back are those that were. -/

namespace OneProxy.Record

open Runs

variable {s t u : Serving}

/-! ## Calls that end no transaction -/

/-- A call leaves the flag of its connection, and the transactions. -/
structure Untouched (s t : Serving) : Prop where
  rollback : t.conn.record.rollback = s.conn.record.rollback
  transInfoMap : t.record.transInfoMap = s.record.transInfoMap

theorem Untouched.refl (s : Serving) : Untouched s s := ⟨rfl, rfl⟩

theorem Untouched.trans (first : Untouched s t) (second : Untouched t u) : Untouched s u :=
  ⟨second.rollback.trans first.rollback, second.transInfoMap.trans first.transInfoMap⟩

/-- What the parser says of a statement changes its text and the kind of the connection's query. -/
theorem untouched_parseSql (s : Serving) (parsed : Option ParsedSql) :
    Untouched s (s.parseSql parsed).2 := by
  cases parsed with
  | none => exact .refl s
  | some parsed => exact ⟨rfl, rfl⟩

/-- Saving a statement changes the entries of the statement and of the client. -/
theorem untouched_statSaveSql {env : Env} {sqlText : Bytes}
    (done : s.statSaveSql env sqlText = some t) : Untouched s t := by
  simp only [Serving.statSaveSql, Option.bind_eq_bind, Option.bind_eq_some_iff,
    Option.some.injEq] at done
  obtain ⟨saved, added, rfl⟩ := done
  obtain ⟨record, conn, event⟩ := saved
  obtain ⟨info, filled, rfl⟩ := sqlInfoMap_of_saved added
  obtain ⟨pointed, _⟩ := recordSqlInfoAddSql_conn added
  obtain ⟨execHash, rfl⟩ := pointed
  exact ⟨rfl, rfl⟩

/-- Executing a statement counts it, and notes it for the transaction. -/
theorem untouched_statExecuteSql (s : Serving) (env : Env) :
    Untouched s (s.statExecuteSql env) := by
  simp only [Serving.statExecuteSql]
  split
  · exact ⟨rfl, rfl⟩
  · have counted : ∀ hash client info, ((s.record.recordClientQueryExec hash client
        info).transInfoMap = s.record.transInfoMap) := by
      intro hash client info
      simp only [recordClientQueryExec]
      split <;> rfl
    split
    · exact ⟨rfl, counted _ _ _⟩
    · exact ⟨rfl, counted _ _ _⟩

theorem untouched_along (env : Env) : Along env Untouched where
  refl := .refl
  trans := .trans
  updateSqlInfo := fun _ _ => ⟨rfl, rfl⟩
  parseSql := untouched_parseSql
  statSaveSql := untouched_statSaveSql
  statExecuteSql := fun s => untouched_statExecuteSql s env

/-- Every call leaves the transactions alone, but for the one that ends them. -/
theorem untouched_run {call : Call} {env : Env}
    (other : ∀ isRollBack endTime, call ≠ .statEndTrans isRollBack endTime)
    (ran : call.run env s = some t) : Untouched s t := by
  -- The other calls write neither the flag nor the map of the transactions.
  by_cases composed : call.Composed
  · exact (untouched_along env).run composed ran
  cases call with
  | statEndTrans isRollBack endTime => exact absurd rfl (other isRollBack endTime)
  | statStartTrans | statRecvOneRow | statRecvFinishedRow | statExecuteErr | statReadFrontData
  | statReadBackendData | setHandles =>
    obtain rfl := Option.some.inj ran
    exact ⟨rfl, rfl⟩
  | _ => exact absurd trivial composed

/-! ## The end of a transaction -/

/-- The hash of the transaction that the end of one ends, if the connection has begun any. -/
def Conn.endedHash (conn : Conn) : Option UInt32 :=
  if conn.record.sqlSet = ∅ then none
  else some (Tool.quickHashCode (Serving.transKeys conn.record.sqlSet))

/-- What is counted of a transaction as rolled back. -/
def rollbackTimes (record : Record) (transHashCode : UInt32) : UInt64 :=
  ((record.transInfoMap transHashCode).getD .new).part.rollbackTimes

/-- What is printed of a hash is not empty. -/
theorem decimal_ne_nil (code : UInt32) : Tool.decimal code ≠ [] := by
  unfold Tool.decimal
  split
  · exact Tool.digits_ne_nil _
  · exact List.cons_ne_nil _ _

/-- A set in order is empty exactly if it is. -/
theorem ordered_eq_nil_iff (codes : Finset UInt32) : ordered codes = [] ↔ codes = ∅ := by
  rw [ordered, List.map_eq_nil_iff, ← List.length_eq_zero_iff, Finset.length_sort,
    Finset.card_eq_zero, Finset.image_eq_empty]

/-- The key of a transaction is empty exactly if no statement belongs to it. -/
theorem transKeys_length_iff (codes : Finset UInt32) :
    (Serving.transKeys codes).length ≤ 0 ↔ codes = ∅ := by
  rw [Nat.le_zero, List.length_eq_zero_iff, ← ordered_eq_nil_iff, Serving.transKeys]
  cases ordered codes with
  | nil => exact iff_of_true rfl rfl
  | cons first rest =>
    apply iff_of_false
    · cases rest with
      | nil =>
        rw [List.map_cons, List.map_nil, List.intercalate_singleton]
        exact decimal_ne_nil first
      | cons second rest =>
        rw [List.map_cons, List.map_cons, List.intercalate_cons_cons]
        simp
    · exact List.cons_ne_nil _ _

/-- The end of a transaction counts a rollback exactly if the flag is set by now. -/
theorem statEndTrans_spec (s : Serving) (env : Env) (isRollBack : Bool) (endTime : UInt64) :
    (s.statEndTrans env isRollBack endTime).conn.record.rollback =
        (s.conn.record.rollback || isRollBack) ∧
      ∀ hash, (s.statEndTrans env isRollBack endTime).record.rollbackTimes hash =
        s.record.rollbackTimes hash +
          if s.conn.endedHash = some hash ∧
            (s.conn.record.rollback || isRollBack) then 1 else 0 := by
  -- Without a noted statement there is no key, and no transaction that is counted.
  by_cases empty : s.conn.record.sqlSet = ∅
  · have keys := (transKeys_length_iff s.conn.record.sqlSet).mpr empty
    have none_ : s.conn.endedHash = none := if_pos empty
    constructor
    · simp only [Serving.statEndTrans, Serving.updateDoing, keys, if_true]
    · intro hash
      simp only [Serving.statEndTrans, Serving.updateDoing, keys, if_true, none_, reduceCtorEq,
        false_and, if_false, UInt64.add_zero]
  · have keys := mt (transKeys_length_iff s.conn.record.sqlSet).mp empty
    have some_ : s.conn.endedHash =
        some (Tool.quickHashCode (Serving.transKeys s.conn.record.sqlSet)) := if_neg empty
    constructor
    · simp only [Serving.statEndTrans, Serving.updateDoing, Serving.recorded, keys, if_false]
    · intro hash
      simp only [Serving.statEndTrans, Serving.updateDoing, Serving.recorded, keys, if_false, some_,
        recordTransInfoEndTrans, Option.some.injEq, rollbackTimes]
      by_cases same : Tool.quickHashCode (Serving.transKeys s.conn.record.sqlSet) = hash
      · subst same
        rw [StdMap.upsert_self, Option.getD_some, endedTrans]
        simp only [true_and]
        split <;> simp
      · rw [StdMap.upsert_of_ne (Ne.symm same)]
        simp [same]

/-! ## The server -/

/-- The server, and what there is to be counted. -/
structure Rollbacks where
  server : Server
  /-- The rollbacks that have ended a transaction. -/
  ended : UInt32 → Nat
  /-- The connections that have rolled back since they were made. -/
  rolledBack : Nat → Bool

namespace Rollbacks

/-- A server that has seen no client. -/
def new : Rollbacks := ⟨.new, fun _ => 0, fun _ => false⟩

/-- The transaction that a connection is in. -/
def hashOf (r : Rollbacks) (id : Nat) : Option UInt32 := (r.server.conns id).bind Conn.endedHash

/-- The rollbacks after a step. -/
def endedAfter (r : Rollbacks) : Step → UInt32 → Nat
  | .call id _ (.statEndTrans true _) => fun hash =>
    r.ended hash + if r.hashOf id = some hash then 1 else 0
  | _ => r.ended

/-- The connections that have rolled back, after a step. -/
def rolledBackAfter (r : Rollbacks) : Step → Nat → Bool
  | .call id _ (.statEndTrans true _) => Function.update r.rolledBack id true
  | .addTask id => Function.update r.rolledBack id false
  | .newConnection .. => Function.update r.rolledBack r.server.made false
  | _ => r.rolledBack

/-- What a step leaves. -/
def next (r : Rollbacks) (step : Step) : Option Rollbacks :=
  (r.server.next step).map fun server => ⟨server, r.endedAfter step, r.rolledBackAfter step⟩

/-- Every transaction has as many rollbacks as are counted of it. -/
def Counted (r : Rollbacks) : Prop :=
  ∀ hash, (r.server.record.rollbackTimes hash).toNat = r.ended hash

/-- The flags of the connections are what they have done. -/
def Flagged (r : Rollbacks) : Prop :=
  ∀ id conn, r.server.conns id = some conn → conn.record.rollback = r.rolledBack id

/-- No commit follows a rollback on its connection, and no counter overflows. -/
def Distinct (r : Rollbacks) : Step → Prop
  | .call id _ (.statEndTrans isRollBack _) => ∀ hash, r.hashOf id = some hash →
    if isRollBack then r.ended hash + 1 < 0x10000000000000000 else r.rolledBack id = false
  | _ => True

variable {r after : Rollbacks} {step : Step}

/-- There is no connection yet. -/
theorem flagged_new : new.Flagged := fun id conn there => absurd there (by simp [new, Server.new])

/-- A connection that is made has done nothing yet. -/
theorem Flagged.made (flagged : r.Flagged) {id other : Nat} {fresh conn : Conn}
    (new_ : fresh.record.rollback = false)
    (there : Function.update r.server.conns id (some fresh) other = some conn) :
    conn.record.rollback = Function.update r.rolledBack id false other := by
  by_cases same : other = id
  · subst same
    rw [Function.update_self] at there ⊢
    obtain rfl := Option.some.inj there
    exact new_
  · rw [Function.update_of_ne same] at there ⊢
    exact flagged other conn there

/-- A call on a connection, and what it leaves. -/
theorem next_call {id : Nat} {env : Env} {call : Call}
    (moved : r.next (.call id env call) = some after) :
    ∃ conn serving, r.server.conns id = some conn ∧
      call.run env ⟨r.server.record, conn, []⟩ = some serving ∧
      after.server.record = serving.record ∧
      after.server.conns = Function.update r.server.conns id (some serving.conn) ∧
      after.ended = r.endedAfter (.call id env call) ∧
      after.rolledBack = r.rolledBackAfter (.call id env call) := by
  simp only [next, Server.next, Server.serve, Option.bind_eq_bind, Option.map_bind,
    Option.bind_eq_some_iff, Option.map_some, Function.comp_def, Option.some.injEq] at moved
  obtain ⟨conn, there, serving, ran, rfl⟩ := moved
  exact ⟨conn, serving, there, ran, rfl, rfl, rfl, rfl⟩

/-- A call other than the end of a transaction has no part in the rollbacks. -/
theorem after_other {id : Nat} {env : Env} {call : Call}
    (other : ∀ isRollBack endTime, call ≠ .statEndTrans isRollBack endTime) :
    r.endedAfter (.call id env call) = r.ended ∧
      r.rolledBackAfter (.call id env call) = r.rolledBack ∧ r.Distinct (.call id env call) := by
  cases call with
  | statEndTrans isRollBack endTime => exact absurd rfl (other isRollBack endTime)
  | _ => exact ⟨rfl, rfl, trivial⟩

/-- What a step other than a call leaves of the transactions. -/
theorem transInfoMap_next (moved : r.next step = some after)
    (plain : ∀ id env call, step ≠ .call id env call) :
    after.server.record.transInfoMap = r.server.record.transInfoMap ∧ after.ended = r.ended ∧
      r.Distinct step := by
  simp only [next, Option.map_eq_some_iff] at moved
  obtain ⟨server, moved, rfl⟩ := moved
  cases step with
  | call id env call => exact absurd rfl (plain id env call)
  | accept | newConnection | clear =>
    obtain rfl := Option.some.inj moved
    exact ⟨rfl, rfl, trivial⟩
  | addTask id | allocServerFail id =>
    obtain ⟨_, _, rfl⟩ := Option.map_eq_some_iff.mp moved
    exact ⟨rfl, rfl, trivial⟩
  | finish id onLineTime =>
    obtain ⟨_, _, rfl⟩ := Option.map_eq_some_iff.mp moved
    refine ⟨?_, rfl, trivial⟩
    cases onLineTime <;> rfl

/-- The flags stay what the connections have done. -/
theorem Flagged.next (flagged : r.Flagged) (moved : r.next step = some after) : after.Flagged := by
  cases step with
  | call id env call =>
    obtain ⟨conn, serving, there, ran, _, conns, _, rolled⟩ := next_call moved
    have before := flagged id conn there
    have changed : serving.conn.record.rollback = r.rolledBackAfter (.call id env call) id ∧
        ∀ other, other ≠ id → r.rolledBackAfter (.call id env call) other = r.rolledBack other := by
      -- Only the end of a transaction can set the flag, and nothing resets it.
      by_cases ends : ∃ isRollBack endTime, call = .statEndTrans isRollBack endTime
      · obtain ⟨isRollBack, endTime, rfl⟩ := ends
        obtain rfl := Option.some.inj ran
        rw [(statEndTrans_spec _ env isRollBack endTime).1]
        cases isRollBack with
        | false => exact ⟨(Bool.or_false _).trans before, fun _ _ => rfl⟩
        | true =>
          rw [rolledBackAfter]
          exact ⟨(Bool.or_true _).trans (Function.update_self id true r.rolledBack).symm,
            fun other differ => Function.update_of_ne differ true r.rolledBack⟩
      · have other : ∀ isRollBack endTime, call ≠ .statEndTrans isRollBack endTime :=
          fun isRollBack endTime same => ends ⟨isRollBack, endTime, same⟩
        have same := (@after_other r id env call other).2.1
        rw [same]
        exact ⟨(untouched_run other ran).rollback.trans before, fun _ _ => rfl⟩
    intro other conn' there'
    rw [conns] at there'
    rw [rolled]
    by_cases same : other = id
    · subst same
      rw [Function.update_self] at there'
      obtain rfl := Option.some.inj there'
      exact changed.1
    · rw [Function.update_of_ne same] at there'
      rw [changed.2 other same]
      exact flagged other conn' there'
  | accept | clear =>
    obtain ⟨server, moved', rfl⟩ := Option.map_eq_some_iff.mp moved
    obtain rfl := Option.some.inj moved'
    exact flagged
  | newConnection =>
    obtain ⟨server, moved', rfl⟩ := Option.map_eq_some_iff.mp moved
    obtain rfl := Option.some.inj moved'
    intro other conn there
    exact flagged.made rfl there
  | addTask id =>
    obtain ⟨server, moved', rfl⟩ := Option.map_eq_some_iff.mp moved
    obtain ⟨_, _, rfl⟩ := Option.map_eq_some_iff.mp moved'
    intro other conn there
    exact flagged.made rfl there
  | allocServerFail id =>
    obtain ⟨server, moved', rfl⟩ := Option.map_eq_some_iff.mp moved
    obtain ⟨_, _, rfl⟩ := Option.map_eq_some_iff.mp moved'
    exact flagged
  | finish id onLineTime =>
    obtain ⟨server, moved', rfl⟩ := Option.map_eq_some_iff.mp moved
    obtain ⟨_, _, rfl⟩ := Option.map_eq_some_iff.mp moved'
    intro other conn there
    have before : r.server.conns other = some conn := by
      by_cases same : other = id
      · subst same
        simp at there
      · simpa [same] using there
    exact flagged other conn before

/-- One end of a transaction, for one hash. -/
theorem counted_one_iff {times : UInt64} {count : Nat} (counted : times.toNat = count) (ends : Prop)
    [Decidable ends] (flag isRollBack : Bool) :
    ((times + if ends ∧ (flag || isRollBack) then 1 else 0).toNat =
        count + if ends ∧ isRollBack then 1 else 0) ↔
      (ends → if isRollBack then count + 1 < 0x10000000000000000 else flag = false) := by
  have below := times.toNat_lt
  by_cases ended : ends
  · cases isRollBack with
    | true =>
      simp only [ended, Bool.or_true, and_self, if_true, forall_const, UInt64.toNat_add,
        UInt64.toNat_one]
      omega
    | false =>
      cases flag with
      | true => simp [ended, UInt64.toNat_add]; omega
      | false => simp [ended, counted]
  · simp [ended, counted]

/--
Where as many rollbacks are counted as there were, a step keeps to that exactly if it is distinct.
-/
theorem Counted.next_iff (counted : r.Counted) (flagged : r.Flagged)
    (moved : r.next step = some after) : after.Counted ↔ r.Distinct step := by
  -- Only the end of a transaction counts, so that every other step is distinct and keeps the
  -- counts.
  by_cases calls : ∃ id env call, step = .call id env call
  · obtain ⟨id, env, call, rfl⟩ := calls
    obtain ⟨conn, serving, there, ran, record, _, ended, _⟩ := next_call moved
    by_cases ends : ∃ isRollBack endTime, call = .statEndTrans isRollBack endTime
    · obtain ⟨isRollBack, endTime, rfl⟩ := ends
      obtain rfl := Option.some.inj ran
      have times := (statEndTrans_spec ⟨r.server.record, conn, []⟩ env isRollBack endTime).2
      have hashOf : r.hashOf id =
        conn.endedHash := by rw [Rollbacks.hashOf, there, Option.bind_some]
      have count : ∀ hash, r.endedAfter (.call id env (.statEndTrans isRollBack endTime)) hash =
          r.ended hash + if conn.endedHash = some hash ∧ isRollBack then 1 else 0 := by
        intro hash
        rw [← hashOf]
        cases isRollBack <;> simp [endedAfter]
      simp only [Counted, Distinct, record, ended, times, count, hashOf, ← flagged id conn there]
      exact forall_congr' fun hash => counted_one_iff (counted hash) _ _ _
    · have other : ∀ isRollBack endTime, call ≠ .statEndTrans isRollBack endTime :=
        fun isRollBack endTime same => ends ⟨isRollBack, endTime, same⟩
      obtain ⟨sameEnded, _, distinct⟩ := @after_other r id env call other
      refine iff_of_true (fun hash => ?_) distinct
      rw [ended, sameEnded, record, rollbackTimes, (untouched_run other ran).transInfoMap]
      exact counted hash
  · have plain : ∀ id env call, step ≠ .call id env call :=
      fun id env call same => calls ⟨id, env, call, same⟩
    obtain ⟨sameMap, sameEnded, distinct⟩ := transInfoMap_next moved plain
    refine iff_of_true (fun hash => ?_) distinct
    rw [sameEnded, rollbackTimes, sameMap]
    exact counted hash

/--
All along a run of the server, as many rollbacks of each transaction are counted as there were,
exactly if no transaction is committed on a connection that has rolled back before.
-/
theorem counted_allAlong_iff (steps : List Step) :
    (∀ front, front <+: steps → ∀ r, exec next new front = some r → r.Counted) ↔
      ∀ front step, front ++ [step] <+: steps → ∀ r after, exec next new front = some r →
        r.next step = some after → r.Distinct step := by
  have start : new.Counted := fun hash => rfl
  exact allReached_iff_of_invariant start flagged_new
    (fun r step after flagged _ moved _ => flagged.next moved)
    (fun r step after flagged counted => counted.next_iff flagged) steps

/-- A connection rolls one transaction back, and begins another one. -/
def secondBegun : List Step :=
  [.newConnection ⟨true, 0, 0⟩ 0 [] 0 [] 0, .call 0 ⟨true, 0, 0⟩ .statStartTrans,
    .call 0 ⟨true, 0, 0⟩ (.statEndTrans true 0), .call 0 ⟨true, 0, 0⟩ .statStartTrans]

/-- Its commit counts as a rollback. -/
theorem secondCommit_counted : ¬ ∀ steps : List Step,
    ∀ front, front <+: steps → ∀ r, exec next new front = some r → r.Counted := by
  intro always
  obtain ⟨r, after, conn, reached, moved, there, begun, rolled⟩ : ∃ r after conn,
      exec next new secondBegun = some r ∧
        r.next (.call 0 ⟨true, 0, 0⟩ (.statEndTrans false 0)) = some after ∧
        r.server.conns 0 = some conn ∧ conn.record.sqlSet ≠ ∅ ∧ r.rolledBack 0 = true :=
    ⟨_, _, _, rfl, rfl, rfl, Finset.insert_ne_empty _ _, rfl⟩
  have flagged : r.Flagged := @Run.preserves _ _ _ Flagged
    (fun before step after holds moved => Flagged.next holds moved) _ _ _
    (run_of_exec (fun _ => True) reached) flagged_new
  have counted : r.Counted := always secondBegun _ (List.prefix_refl _) r reached
  -- The run with the commit is one of all runs too.
  have counted' : after.Counted := by
    refine always (secondBegun ++ [.call 0 ⟨true, 0, 0⟩ (.statEndTrans false 0)]) _
      (List.prefix_refl _) after ?_
    rw [exec_append, reached]
    simp only [Option.bind_some, exec, moved]
  have distinct := (counted.next_iff flagged moved).mp counted'
    (Tool.quickHashCode (Serving.transKeys conn.record.sqlSet)) (by
      rw [hashOf, there, Option.bind_some, Conn.endedHash, if_neg begun])
  rw [if_neg Bool.false_ne_true, rolled] at distinct
  exact absurd distinct Bool.noConfusion

end Rollbacks

end OneProxy.Record
