import OneProxy.Stats.Executions

/-! When each recorded statement has one row of its own in `sql_exec`. -/

namespace OneProxy.Record

/-- The rows of an execution, once all events of a queue are written. -/
def rowsOf (queue : List (Nat × DBDataT)) (sis : SqlInfoS) : List SqlExecRow :=
  (DBManager.table (queue.map (·.2))).filter fun row => row.key = sis.execKey

/-- An execution has one row, and that row adds up the events of the execution and no others. -/
def StoredOnce (queue : List (Nat × DBDataT)) (id : Nat) (sis : SqlInfoS)
    (back : List (Nat × DBDataT)) : Prop :=
  ∃ row, rowsOf queue sis = [row] ∧
    row.rownum = ((ownEvents id back).map DBDataT.rowNum).sum ∧
    row.recvsize = ((ownEvents id back).map DBDataT.recvSize).sum

/-- Every recorded statement has its own row. -/
def AllStored (queue : List (Nat × DBDataT)) : Prop :=
  ∀ front id sis back, queue = front ++ (id, .clientExecSql sis) :: back →
    StoredOnce queue id sis back

/-- What executions are told apart by: the connection, and the text that is hashed. -/
def SqlInfoS.named (sis : SqlInfoS) : UInt32 × Bytes := (sis.connHashCode, sis.execText)

/-- The table has a row for every execution. -/
theorem keys_table (queue : List (Nat × DBDataT)) :
    (DBManager.table (queue.map (·.2))).map SqlExecRow.key =
      (executions queue).map SqlInfoS.execKey := by
  rw [table_eq]
  refine (execRules.map_key_rows _).trans ?_
  induction queue with
  | nil => rfl
  | cons entry rest ih =>
    obtain ⟨id, data⟩ := entry
    cases data with
    | clientExecSql sis => exact congrArg (sis.execKey :: ·) ih
    | _ => exact ih

theorem executions_append (front back : List (Nat × DBDataT)) :
    executions (front ++ back) = executions front ++ executions back := List.filterMap_append

/-- An execution that is current has been begun. -/
theorem mem_executions_of_current {queue : List (Nat × DBDataT)} {id : Nat} {sis : SqlInfoS}
    {current : Nat → Option SqlInfoS} (now : currentAfter current queue id = some sis) :
    current id = some sis ∨ sis ∈ executions queue := by
  -- The induction is on the queue; an execution that is current after an entry was begun by it or
  -- before.
  induction queue generalizing current with
  | nil => exact Or.inl now
  | cons entry rest ih =>
    obtain ⟨other, data⟩ := entry
    have whole : executions ((other, data) :: rest) =
        executions [(other, data)] ++ executions rest := executions_append [(other, data)] rest
    rw [whole]
    rcases ih now with before | later
    · cases inserts : data.inserts with
      | none =>
        rw [noteExec_of_inserts inserts] at before
        exact Or.inl before
      | some sett =>
        obtain ⟨begun, rfl⟩ := exec_of_inserts inserts
        by_cases self : id = other
        · subst self
          obtain rfl : begun = sis := by simpa [noteExec] using before
          exact Or.inr (by simp [executions])
        · exact Or.inl (by simpa [noteExec, self] using before)
    · exact Or.inr (List.mem_append_right _ later)

/-- The hash of an execution is that of its text. -/
theorem hashed_of_emitted {queue : List (Nat × DBDataT)} {current : Nat → Option SqlInfoS}
    (emitted : Emitted current queue) :
    ∀ sis ∈ executions queue, sis.sqlExecHashCode = Tool.quickHashCode sis.execText := by
  induction queue generalizing current with
  | nil => exact fun sis member => absurd member List.not_mem_nil
  | cons entry rest ih =>
    obtain ⟨_, hashed, later⟩ := emitted
    intro sis member
    obtain ⟨id, inside⟩ := mem_executions.mp member
    cases inside with
    | head => exact hashed sis rfl
    | tail _ inside => exact ih later sis (mem_executions.mpr ⟨id, inside⟩)

variable {queue : List (Nat × DBDataT)}

/-- Executions that have one row each are told apart. -/
theorem nodup_of_allStored (emitted : Emitted Server.noExec queue) (stored : AllStored queue) :
    ((executions queue).map SqlInfoS.named).Nodup := by
  have keys : ((executions queue).map SqlInfoS.execKey).Nodup := by
    rw [← keys_table]
    refine execRules.nodup_of_filter fun r member => ?_
    -- Every row is that of an execution.
    have key : r.key ∈ (executions queue).map SqlInfoS.execKey :=
      keys_table queue ▸ List.mem_map_of_mem member
    obtain ⟨sis, inside, same⟩ := List.mem_map.mp key
    obtain ⟨id, there⟩ := mem_executions.mp inside
    obtain ⟨front, back, split⟩ := List.append_of_mem there
    obtain ⟨row, alone, _⟩ := stored front id sis back split
    rw [rowsOf, same] at alone
    exact ⟨row, alone⟩
  refine List.Nodup.of_map (fun named : UInt32 × Bytes => (named.1, Tool.quickHashCode named.2)) ?_
  rw [List.map_map]
  convert keys using 1
  refine List.map_congr_left fun sis member => ?_
  exact congrArg (Prod.mk _) (hashed_of_emitted emitted sis member).symm

/-- Executions that are told apart have a row of their own. -/
theorem allStored_of_nodup (emitted : Emitted Server.noExec queue)
    (injective : ∀ sis ∈ executions queue, ∀ sis' ∈ executions queue,
      Tool.quickHashCode sis.execText = Tool.quickHashCode sis'.execText →
        sis.execText = sis'.execText)
    (distinct : ((executions queue).map SqlInfoS.named).Nodup) : AllStored queue := by
  have keys : ((executions queue).map SqlInfoS.execKey).Nodup := by
    refine (List.nodup_map_iff_inj_on distinct.of_map).mpr fun sis member sis' member' same => ?_
    obtain ⟨conn, hash⟩ := Prod.mk.inj same
    rw [hashed_of_emitted emitted sis member, hashed_of_emitted emitted sis' member'] at hash
    have text := injective sis member sis' member' hash
    exact List.inj_on_of_nodup_map distinct member member' (Prod.ext conn text)
  intro front id sis back split
  subst split
  let events : List DBDataT := back.map (·.2)
  let row := execRules.later events (⟨sis.connHashCode, sis.sqlExecHashCode, 0,
    sis.execTime / 1000, 0, 0, 0⟩ : SqlExecRow)
  have key : row.key = sis.execKey := execRules.key_later events _
  have member : row ∈ DBManager.table ((front ++ (id, .clientExecSql sis) :: back).map (·.2)) := by
    rw [table_eq, List.map_append, List.map_cons]
    exact execRules.mem_rows rfl
  have alone : rowsOf (front ++ (id, .clientExecSql sis) :: back) sis = [row] := by
    rw [rowsOf, ← key]
    refine execRules.filter_key ?_ member
    exact (keys_table _).symm ▸ keys
  -- No other execution has the key, neither before nor after.
  have parts : executions (front ++ (id, .clientExecSql sis) :: back) =
      executions front ++ sis :: executions back := executions_append front _
  rw [parts, List.map_append, List.map_cons, List.nodup_append] at keys
  obtain ⟨_, later, before⟩ := keys
  have apart : ∀ other ∈ executions back, other.execKey ≠ sis.execKey := by
    intro other inside same
    exact (List.nodup_cons.mp later).1 (same ▸ List.mem_map_of_mem inside)
  have others : ∀ o other, noteExec (currentAfter Server.noExec front) (id, .clientExecSql sis) o =
      some other → other.execKey = sis.execKey → o = id := by
    intro o other now same
    by_contra differ
    have current : currentAfter Server.noExec front o = some other := by
      simpa [noteExec, differ] using now
    rcases mem_executions_of_current current with none_ | inside
    · exact absurd none_ (by simp [Server.noExec])
    · exact before _ (List.mem_map_of_mem inside) _ List.mem_cons_self same
  obtain ⟨_, _, _, after⟩ := emitted_append.mp emitted
  have here : ∃ other, noteExec (currentAfter Server.noExec front) (id, .clientExecSql sis) id =
      some other ∧ other.execKey = sis.execKey := ⟨sis, by simp [noteExec], rfl⟩
  have sums : ∀ amount : DBDataT → Int, (∀ data : DBDataT, data.updates = none → amount data = 0) →
      (events.map (DBDataT.addsTo sis.execKey amount)).sum =
        ((ownEvents id back).map amount).sum := by
    intro amount figures
    have own := (addedTo_own figures after others apart).1 here
    rw [← own, addedTo, List.map_map]
    rfl
  obtain ⟨rows, sizes⟩ := later_figures events (⟨sis.connHashCode, sis.sqlExecHashCode, 0,
    sis.execTime / 1000, 0, 0, 0⟩ : SqlExecRow)
  refine ⟨row, alone, ?_, ?_⟩
  · exact rows.trans (by rw [zero_add]; exact sums _ DBDataT.rowNum_of_updates)
  · exact sizes.trans (by rw [zero_add]; exact sums _ DBDataT.recvSize_of_updates)

namespace Server

variable {s : Server}

/-- The statements that a server has recorded have their own rows exactly if they are told apart. -/
theorem allStored_iff (reached : Runs.Reachable system s)
    (injective : ∀ sis ∈ executions s.dbData, ∀ sis' ∈ executions s.dbData,
      Tool.quickHashCode sis.execText = Tool.quickHashCode sis'.execText →
        sis.execText = sis'.execText) :
    AllStored s.dbData ↔ ((executions s.dbData).map SqlInfoS.named).Nodup :=
  have emitted := (queued_of_reachable reached).emitted
  ⟨nodup_of_allStored emitted, allStored_of_nodup emitted injective⟩

/--
In every state of a server, every recorded statement has exactly one row, with the figures of its
own events, if and only if no two of them have the same connection and the same text of time,
connection and statement.
-/
theorem stored_executions_iff (reached : Runs.Reachable system s)
    (injective : ∀ sis ∈ executions s.dbData, ∀ sis' ∈ executions s.dbData,
      Tool.quickHashCode sis.execText = Tool.quickHashCode sis'.execText →
        sis.execText = sis'.execText) :
    AllStored s.dbData ↔ ((executions s.dbData).map SqlInfoS.named).Nodup :=
  allStored_iff reached injective

/-- Events are saved, and the clock stands still. -/
def savingEnv : Env := ⟨true, 0, 0⟩

/-- A client saves a statement. -/
def savesOne : List Step :=
  [.newConnection savingEnv 0 [49] 1 [50] 2, .call 0 savingEnv (.saveSql [97])]

/-- One statement, of which a response of five bytes is read. -/
theorem stored_oneStatement :
    ∃ s, Runs.exec next new (savesOne ++ [.call 0 savingEnv (.statReadBackendData 5)]) = some s ∧
      (AllStored s.dbData ↔ ((executions s.dbData).map SqlInfoS.named).Nodup) := by
  have run : (Runs.exec next new (savesOne ++ [.call 0 savingEnv (.statReadBackendData 5)])).map
      (fun s => (executions s.dbData).length) = some 1 := by decide +kernel
  obtain ⟨s, done, one⟩ := Option.map_eq_some_iff.mp run
  obtain ⟨sis, alone⟩ := List.length_eq_one_iff.mp one
  refine ⟨s, done, stored_executions_iff (Runs.reachable_of_exec (.start rfl) done) ?_⟩
  rw [alone]
  intro sis member sis' member' _
  rw [List.mem_singleton.mp member, List.mem_singleton.mp member']

/-- The same statement twice in one millisecond: two rows under one key. -/
theorem stored_twice :
    ∃ s, Runs.exec next new (savesOne ++ [.call 0 savingEnv (.saveSql [97])]) = some s ∧
      (∀ sis ∈ executions s.dbData, ∀ sis' ∈ executions s.dbData,
        sis.execText = sis'.execText) ∧ ¬ AllStored s.dbData := by
  -- The clock stands still, so that the text of both executions is the same.
  have run : (Runs.exec next new (savesOne ++ [.call 0 savingEnv (.saveSql [97])])).map
      (fun s => (executions s.dbData).map SqlInfoS.named) =
    some (List.replicate 2 (3340653547, [48] ++ Tool.digits 3340653547 ++
      Tool.digits (Tool.quickHashCode [97]).toNat)) := by
    decide +kernel
  obtain ⟨s, done, names⟩ := Option.map_eq_some_iff.mp run
  have same : ∀ sis ∈ executions s.dbData,
      sis.execText = [48] ++ Tool.digits 3340653547 ++
        Tool.digits (Tool.quickHashCode [97]).toNat := by
    intro sis member
    have named : sis.named ∈ (executions s.dbData).map SqlInfoS.named := List.mem_map_of_mem member
    rw [names] at named
    exact congrArg Prod.snd (List.eq_of_mem_replicate named)
  have texts : ∀ sis ∈ executions s.dbData, ∀ sis' ∈ executions s.dbData,
      sis.execText = sis'.execText := fun sis member sis' member' =>
    (same sis member).trans (same sis' member').symm
  refine ⟨s, done, texts, ?_⟩
  rw [allStored_iff (Runs.reachable_of_exec (.start rfl) done) fun sis member sis' member' _ =>
    texts sis member sis' member', names]
  simp

end Server

end OneProxy.Record
