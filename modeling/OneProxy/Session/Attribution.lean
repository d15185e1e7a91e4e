import OneProxy.Session.Statistics
import OneProxy.Lib.Runs

/-! Which statement the figures of an execution are recorded for. -/

namespace OneProxy

open Runs Stats

/-- The figures that executions add up. -/
structure Share where
  exec : Nat
  trans : Nat
  fail : Nat
  totalRow : Nat
  recvSize : Nat
  execTime : UInt64

namespace Share

/-- Nothing. -/
def zero : Share := ⟨0, 0, 0, 0, 0, 0⟩

/-- Both together. -/
def add (a b : Share) : Share :=
  ⟨a.exec + b.exec, a.trans + b.trans, a.fail + b.fail, a.totalRow + b.totalRow,
    a.recvSize + b.recvSize, a.execTime + b.execTime⟩

@[simp] theorem add_zero (a : Share) : a.add zero = a := by simp [add, zero]

end Share

/-- The figures of an entry. -/
def Stats.SqlInfoPart.share (part : SqlInfoPart) : Share :=
  ⟨part.exec, part.trans, part.fail, part.totalRow, part.recvSize, part.execTime⟩

/-- The figures recorded for a hash. -/
def Stats.SqlInfoMap.figures (sqlInfoMap : SqlInfoMap) (hashCode : UInt32) : Share :=
  match sqlInfoMap hashCode with
  | none => .zero
  | some sqlInfo => sqlInfo.part.share

namespace Recording

/--
Figures go to the current statement, if there is one: its hash is what they are recorded under.
-/
def Aligned (r : Recording) : Prop := r.target.getD 0 = r.hash

/-- The recording with another current hash. -/
def withHash (r : Recording) (hashCode : UInt32) : Recording :=
  r.updateSqlInfo fun sqlInfo => { sqlInfo with sqlHashCode := hashCode }

/-- The pointer, if there is one, leads to an entry. -/
def Points (r : Recording) : Prop :=
  ∀ pointer, r.conn.sqlInfo = some pointer → (r.sqlInfoMap pointer).isSome

/-- What one execution of the current statement adds to its figures. -/
def execution (r : Recording) : Share :=
  { Share.zero with exec := 1, trans := if countsTrans r.conn.record.type then 1 else 0 }

end Recording

namespace StatCall

/-- What a call contributes, and the hash that is the current one when it does. -/
def credit (call : StatCall) (now : UInt64) (r : Recording) : UInt32 × Share :=
  match call with
  | statParseAndStatSql (some parsed) =>
    let executing := (call.run now r)
    (Tool.quickHashCode parsed.sqlText, executing.execution)
  | statPreparedSql preparedHandle =>
    match r.conn.preparedCursorManager.getBackendHandleBasePrepared preparedHandle with
    | none => (r.hash, .zero)
    | some backendHandle => (backendHandle.hashCode, r.execution)
  | statRecvFinishedRow rows =>
    (r.hash, { Share.zero with
      execTime := now - r.conn.record.startQueryTime, totalRow := r.resultRows rows })
  | statExecuteErr =>
    (r.hash, { Share.zero with execTime := now - r.conn.record.startQueryTime, fail := 1 })
  | statReadBackendData (some size) => (r.hash, { Share.zero with recvSize := size })
  | _ => (r.hash, .zero)

/-- Whether the figures of a call go to the statement that is current when it adds them. -/
def Attributed (call : StatCall) (r : Recording) : Prop :=
  match call with
  | statPreparedSql preparedHandle =>
    ∀ backendHandle,
      r.conn.preparedCursorManager.getBackendHandleBasePrepared preparedHandle =
        some backendHandle →
        backendHandle.hashCode ≠ 0 → (r.withHash backendHandle.hashCode).Aligned
  | statRecvFinishedRow _ | statExecuteErr | statReadBackendData (some _) => r.Aligned
  | _ => True

end StatCall

namespace Recording

/-- The target is an entry of the statistics. -/
theorem isSome_target {r : Recording} (points : r.Points) {key : UInt32}
    (found : r.target = some key) : (r.sqlInfoMap key).isSome := by
  unfold target at found
  cases pointer : r.conn.sqlInfo with
  | some entry =>
    simp only [pointer, Option.some.injEq] at found
    exact found ▸ points entry pointer
  | none =>
    simp only [pointer] at found
    split at found
    · rename_i inside
      simp only [Option.some.injEq] at found
      exact found ▸ inside
    · simp at found

/-- The figures after some were added to the target. -/
theorem figures_count {r : Recording} (points : r.Points) {f : SqlInfoPart → SqlInfoPart}
    {share : Share} (adds : ∀ part, (f part).share = part.share.add share) {hashCode : UInt32}
    (statement : hashCode ≠ 0) :
    (r.count f).sqlInfoMap.figures hashCode =
      if r.target.getD 0 = hashCode then (r.sqlInfoMap.figures hashCode).add share
      else r.sqlInfoMap.figures hashCode := by
  -- Without a target nothing changes, and no statement has the hash zero.
  cases found : r.target with
  | none => simp [count, found, Ne.symm statement]
  | some key =>
    simp only [count, found, Option.getD_some]
    by_cases same : key = hashCode
    · subst same
      obtain ⟨sqlInfo, entry⟩ := Option.isSome_iff_exists.mp (isSome_target points found)
      simp [SqlInfoMap.figures, SqlInfoMap.update, entry, adds]
    · simp [SqlInfoMap.figures, SqlInfoMap.update, same, Ne.symm same]

theorem figures_recordSqlInfoExec {r : Recording} (points : r.Points) {hashCode : UInt32}
    (statement : hashCode ≠ 0) :
    r.recordSqlInfoExec.sqlInfoMap.figures hashCode =
      if r.target.getD 0 = hashCode then
        (r.sqlInfoMap.figures hashCode).add { Share.zero with exec := 1 }
      else r.sqlInfoMap.figures hashCode := by
  apply figures_count points _ statement
  intro part
  simp [SqlInfoPart.share, Share.add, Share.zero]

theorem figures_recordSqlInfoExecTran {r : Recording} (points : r.Points) {hashCode : UInt32}
    (statement : hashCode ≠ 0) :
    r.recordSqlInfoExecTran.sqlInfoMap.figures hashCode =
      if r.target.getD 0 = hashCode then
        (r.sqlInfoMap.figures hashCode).add { Share.zero with trans := 1 }
      else r.sqlInfoMap.figures hashCode := by
  apply figures_count points _ statement
  intro part
  simp [SqlInfoPart.share, Share.add, Share.zero]

theorem figures_recordSqlInfoRecvResult {r : Recording} (points : r.Points) (now : UInt64)
    (rows : UInt32) {hashCode : UInt32} (statement : hashCode ≠ 0) :
    (r.recordSqlInfoRecvResult now rows).sqlInfoMap.figures hashCode =
      if r.target.getD 0 = hashCode then
        (r.sqlInfoMap.figures hashCode).add { Share.zero with
          execTime := now - r.conn.record.startQueryTime, totalRow := r.resultRows rows }
      else r.sqlInfoMap.figures hashCode := by
  apply figures_count points _ statement
  intro part
  simp [SqlInfoPart.share, Share.add, Share.zero]

theorem figures_recordSqlInfoExecFail {r : Recording} (points : r.Points) (now : UInt64)
    {hashCode : UInt32} (statement : hashCode ≠ 0) :
    (r.recordSqlInfoExecFail now).sqlInfoMap.figures hashCode =
      if r.target.getD 0 = hashCode then
        (r.sqlInfoMap.figures hashCode).add { Share.zero with
          execTime := now - r.conn.record.startQueryTime, fail := 1 }
      else r.sqlInfoMap.figures hashCode := by
  apply figures_count points _ statement
  intro part
  simp [SqlInfoPart.share, Share.add, Share.zero]

theorem figures_recordSqlInfoRecvSize {r : Recording} (points : r.Points) (size : Nat)
    {hashCode : UInt32} (statement : hashCode ≠ 0) :
    (r.recordSqlInfoRecvSize size).sqlInfoMap.figures hashCode =
      if r.target.getD 0 = hashCode then
        (r.sqlInfoMap.figures hashCode).add { Share.zero with recvSize := size }
      else r.sqlInfoMap.figures hashCode := by
  apply figures_count points _ statement
  intro part
  simp [SqlInfoPart.share, Share.add, Share.zero]

/-- Adding figures makes and removes no entry. -/
theorem isSome_count (r : Recording) (f : SqlInfoPart → SqlInfoPart) (hashCode : UInt32) :
    ((r.count f).sqlInfoMap hashCode).isSome = (r.sqlInfoMap hashCode).isSome := by
  cases found : r.target with
  | none => simp [count, found]
  | some key =>
    by_cases same : hashCode = key
    · subst same
      simp [count, found, SqlInfoMap.update]
    · simp [count, found, SqlInfoMap.update, same]

@[simp] theorem conn_count (r : Recording) (f : SqlInfoPart → SqlInfoPart) :
    (r.count f).conn = r.conn := by
  cases found : r.target <;> simp [count, found]

@[simp] theorem hash_count (r : Recording) (f : SqlInfoPart → SqlInfoPart) :
    (r.count f).hash = r.hash := by
  simp [hash]

/-- Adding figures does not change where the next ones go. -/
@[simp] theorem target_count (r : Recording) (f : SqlInfoPart → SqlInfoPart) :
    (r.count f).target = r.target := by
  have same := isSome_count r f r.hash
  simp only [target, conn_count, hash_count, same]

theorem points_count {r : Recording} (points : r.Points) (f : SqlInfoPart → SqlInfoPart) :
    (r.count f).Points := by
  intro pointer found
  rw [isSome_count]
  exact points pointer (by simpa using found)

/-- The beginning of an execution changes nothing that the figures depend on. -/
theorem startQuery_keeps (r : Recording) (now : UInt64) :
    (r.startQuery now).sqlInfoMap = r.sqlInfoMap ∧ (r.startQuery now).hash = r.hash ∧
      (r.startQuery now).target = r.target ∧
      (r.startQuery now).conn.record.type = r.conn.record.type := ⟨rfl, rfl, rfl, rfl⟩

/-- Executing the current statement adds one execution to its figures. -/
theorem figures_statExecuteSql {r : Recording} (points : r.Points) (now : UInt64)
    (aligned : r.hash ≠ 0 → r.Aligned) {hashCode : UInt32} (statement : hashCode ≠ 0) :
    (r.statExecuteSql now).sqlInfoMap.figures hashCode =
      if r.hash = hashCode then (r.sqlInfoMap.figures hashCode).add r.execution
      else r.sqlInfoMap.figures hashCode := by
  obtain ⟨mapKept, hashKept, targetKept, typeKept⟩ := startQuery_keeps r now
  have pointsKept : (r.startQuery now).Points := points
  by_cases none' : r.hash ≤ 0
  · -- The hash zero is no statement, and nothing is counted for it.
    have zero : r.hash = 0 := UInt32.le_antisymm none' UInt32.zero_le
    have different : r.hash ≠ hashCode := fun same => statement (same ▸ zero)
    rw [statExecuteSql, hashKept, if_pos none', if_neg different, mapKept]
  · have some' : r.hash ≠ 0 := fun zero => none' (zero ▸ UInt32.le_refl 0)
    have counted := figures_recordSqlInfoExec pointsKept statement
    rw [targetKept, aligned some', mapKept] at counted
    have typeCounted : (r.startQuery now).recordSqlInfoExec.conn.record.type =
        r.conn.record.type := by
      rw [recordSqlInfoExec, conn_count, typeKept]
    simp only [statExecuteSql, hashKept, if_neg none', typeCounted]
    by_cases inTrans : countsTrans r.conn.record.type
    · -- In a transaction the same entry is counted a second time.
      rw [if_pos inTrans]
      have pointsCounted : (r.startQuery now).recordSqlInfoExec.Points := points_count pointsKept _
      have targetCounted : (r.startQuery now).recordSqlInfoExec.target = r.target :=
        (target_count _ _).trans targetKept
      generalize (r.startQuery now).recordSqlInfoExec =
        once at counted pointsCounted targetCounted ⊢
      have twice := figures_recordSqlInfoExecTran
        (r := once.updateRecord fun record =>
          { record with sqlSet := insert once.hash record.sqlSet })
        pointsCounted statement
      have targetTwice : (once.updateRecord fun record =>
          { record with sqlSet := insert once.hash record.sqlSet }).target = r.target :=
            targetCounted
      rw [targetTwice, aligned some'] at twice
      rw [twice]
      have mapTwice : (once.updateRecord fun record =>
          { record with sqlSet := insert once.hash record.sqlSet }).sqlInfoMap =
            once.sqlInfoMap := rfl
      rw [mapTwice, counted]
      by_cases same : r.hash = hashCode
      · simp [same, execution, inTrans, Share.add, Share.zero]
      · simp [same]
    · rw [if_neg inTrans, counted]
      by_cases same : r.hash = hashCode
      · simp [same, execution, inTrans, Share.zero]
      · simp [same]

/-- The statistics gain entries, and pointers stay valid. -/
structure Grows (r after : Recording) : Prop where
  entries : ∀ hashCode, (r.sqlInfoMap hashCode).isSome → (after.sqlInfoMap hashCode).isSome
  points : r.Points → after.Points

theorem Grows.trans {r middle after : Recording} (first : r.Grows middle)
    (second : middle.Grows after) : r.Grows after :=
  ⟨fun hashCode there => second.entries hashCode (first.entries hashCode there),
    fun points => second.points (first.points points)⟩

theorem grows_count (r : Recording) (f : SqlInfoPart → SqlInfoPart) : r.Grows (r.count f) := by
  constructor
  · intro hashCode there
    rw [isSome_count]
    exact there
  · intro points
    exact points_count points f

/-- What changes neither the entries nor the pointer. -/
theorem grows_of_same {r after : Recording} (entries : after.sqlInfoMap = r.sqlInfoMap)
    (pointer : after.conn.sqlInfo = r.conn.sqlInfo) : r.Grows after := by
  constructor
  · intro hashCode there
    rwa [entries]
  · intro points key found
    rw [entries]
    exact points key (pointer ▸ found)

theorem grows_statExecuteSql (r : Recording) (now : UInt64) : r.Grows (r.statExecuteSql now) := by
  have started : r.Grows (r.startQuery now) := grows_of_same rfl rfl
  have counted := started.trans (grows_count (r.startQuery now) fun part =>
    { part with exec := part.exec + 1 })
  simp only [statExecuteSql]
  split
  · exact started
  · split
    · have inTrans : (r.startQuery now).recordSqlInfoExec.Grows
          ((r.startQuery now).recordSqlInfoExec.updateRecord fun record => { record with
            sqlSet := insert (r.startQuery now).recordSqlInfoExec.hash record.sqlSet }) :=
        grows_of_same rfl rfl
      exact counted.trans (inTrans.trans (grows_count _ _))
    · exact counted

/-- Adding the current statement makes its entry, points to it, and leaves all figures alone. -/
theorem recordSqlInfoAddSql_spec (r : Recording) :
    r.Grows r.recordSqlInfoAddSql ∧ r.recordSqlInfoAddSql.hash = r.hash ∧
      r.recordSqlInfoAddSql.target = some r.hash ∧
      r.recordSqlInfoAddSql.conn.record = r.conn.record ∧
      ∀ hashCode, r.recordSqlInfoAddSql.sqlInfoMap.figures hashCode =
        r.sqlInfoMap.figures hashCode := by
  have entry : ∀ hashCode, (r.sqlInfoMap hashCode).isSome ∨ hashCode = r.hash →
      (r.recordSqlInfoAddSql.sqlInfoMap hashCode).isSome := by
    intro hashCode old
    by_cases same : hashCode = r.hash
    · simp [recordSqlInfoAddSql, same]
    · simpa [recordSqlInfoAddSql, same] using old
  refine ⟨⟨fun hashCode there => entry hashCode (Or.inl there), ?_⟩, rfl, rfl, rfl, ?_⟩
  · intro _ pointer found
    have here : pointer = r.hash := (Option.some.inj found).symm
    exact entry pointer (Or.inr here)
  · intro hashCode
    by_cases same : hashCode = r.hash
    · -- Only the description of an entry is filled in.
      subst same
      cases old : r.sqlInfoMap r.hash with
      | none =>
        simp [recordSqlInfoAddSql, SqlInfoMap.figures, old, SqlInfo.new,
          SqlInfoPart.share, Share.zero]
      | some sqlInfo =>
        simp only [recordSqlInfoAddSql, SqlInfoMap.figures, old, Option.getD_some,
          Function.update_self]
        split <;> rfl
    · simp [recordSqlInfoAddSql, SqlInfoMap.figures, same]

/-- Saving a statement makes it the current one, for the hash and for the pointer. -/
theorem statSaveSql_spec (r : Recording) (sqlText : Bytes) :
    r.Grows (r.statSaveSql sqlText) ∧ (r.statSaveSql sqlText).hash = Tool.quickHashCode sqlText ∧
      (r.statSaveSql sqlText).target = some (Tool.quickHashCode sqlText) ∧
      (r.statSaveSql sqlText).conn.record.type = r.conn.record.type ∧
      ∀ hashCode, (r.statSaveSql sqlText).sqlInfoMap.figures hashCode =
        r.sqlInfoMap.figures hashCode := by
  have current : r.Grows (r.updateSqlInfo fun sqlInfo => { sqlInfo with
      sqlText := sqlText, sqlHashCode := Tool.quickHashCode sqlText }) := grows_of_same rfl rfl
  obtain ⟨grows, hashKept, target, record, figures⟩ := recordSqlInfoAddSql_spec
    (r.updateSqlInfo fun sqlInfo => { sqlInfo with
      sqlText := sqlText, sqlHashCode := Tool.quickHashCode sqlText })
  have type := congrArg DoingRecord.type record
  exact ⟨current.trans grows, hashKept, target, type, figures⟩

/-- Executing a statement does not change how the connection's statements are taken. -/
theorem type_statExecuteSql (r : Recording) (now : UInt64) :
    (r.statExecuteSql now).conn.record.type = r.conn.record.type := by
  simp only [statExecuteSql]
  split
  · rfl
  · split
    · simp [recordSqlInfoExecTran, recordSqlInfoExec, updateRecord, startQuery]
    · simp [recordSqlInfoExec, updateRecord, startQuery]

/-- Parsing a statement records nothing yet. -/
theorem parseSql_spec (r : Recording) (parsed : Option ParsedSql) :
    (r.parseSql parsed).2.sqlInfoMap = r.sqlInfoMap ∧
      (r.parseSql parsed).2.conn.sqlInfo = r.conn.sqlInfo ∧
      (r.parseSql parsed).2.hash = r.hash := by
  cases parsed <;> exact ⟨rfl, rfl, rfl⟩

end Recording

namespace StatCall

open Recording

/-- A call adds what it contributes to the figures of the statement that is current then. -/
theorem figures_run {call : StatCall} {now : UInt64} {r : Recording} (points : r.Points)
    (attributed : call.Attributed r) {hashCode : UInt32} (statement : hashCode ≠ 0) :
    (call.run now r).sqlInfoMap.figures hashCode =
      if (call.credit now r).1 = hashCode then
        (r.sqlInfoMap.figures hashCode).add (call.credit now r).2
      else r.sqlInfoMap.figures hashCode := by
  cases call with
  | parseSql parsed =>
    have same : ((parseSql parsed).run now r).sqlInfoMap = r.sqlInfoMap :=
      (parseSql_spec r parsed).1
    simp [credit, same]
  | statParseSql sqlText parsed =>
    have same : ((statParseSql sqlText parsed).run now r).sqlInfoMap.figures hashCode =
        r.sqlInfoMap.figures hashCode := by
      simp only [run, Recording.statParseSql]
      split
      · rfl
      · cases parsed with
        | none => rfl
        | some parsed =>
          refine ((statSaveSql_spec _ _).2.2.2.2 hashCode).trans ?_
          rfl
    simp [credit, same]
  | statParseAndStatSql parsed =>
    cases parsed with
    | none =>
      have same : ((statParseAndStatSql none).run now r).sqlInfoMap = r.sqlInfoMap := rfl
      simp [credit, same]
    | some parsed =>
      -- The statement is saved, so it is the one pointed to when it is executed.
      have cleared : r.Grows (r.updateSqlInfo fun sqlInfo => { sqlInfo with sqlText := [] }) :=
        grows_of_same rfl rfl
      obtain ⟨mapKept, pointerKept, _⟩ := parseSql_spec
        (r.updateSqlInfo fun sqlInfo => { sqlInfo with sqlText := [] }) (some parsed)
      have parsed' := cleared.trans (grows_of_same mapKept pointerKept)
      obtain ⟨grows, hashKept, target, _, figures⟩ := statSaveSql_spec
        ((r.updateSqlInfo fun sqlInfo => { sqlInfo with sqlText := [] }).parseSql (some parsed)).2
        parsed.sqlText
      have aligned : (statSaveSql ((r.updateSqlInfo fun sqlInfo =>
          { sqlInfo with sqlText := [] }).parseSql (some parsed)).2 parsed.sqlText).Aligned := by
        rw [Aligned, target, hashKept, Option.getD_some]
      have executed := figures_statExecuteSql ((parsed'.trans grows).points points) now
        (fun _ => aligned) statement
      rw [hashKept, figures] at executed
      have type := type_statExecuteSql (statSaveSql ((r.updateSqlInfo fun sqlInfo =>
          { sqlInfo with sqlText := [] }).parseSql (some parsed)).2 parsed.sqlText) now
      refine executed.trans ?_
      simp only [credit, execution]
      rw [← type]
      rfl
  | statPreparedSql preparedHandle =>
    cases found : r.conn.preparedCursorManager.getBackendHandleBasePrepared preparedHandle with
    | none =>
      have same : ((statPreparedSql preparedHandle).run now r).sqlInfoMap = r.sqlInfoMap := by
        simp only [run, Recording.statPreparedSql, found]
      simp [credit, found, same]
    | some backendHandle =>
      have hashKept : (r.withHash backendHandle.hashCode).hash = backendHandle.hashCode := rfl
      simp only [run, Recording.statPreparedSql, found, credit, ← withHash.eq_def, hashKept]
      by_cases none' : backendHandle.hashCode ≤ 0
      · have zero : backendHandle.hashCode = 0 := UInt32.le_antisymm none' UInt32.zero_le
        have different : backendHandle.hashCode ≠ hashCode := fun same => statement (same ▸ zero)
        rw [if_pos none', if_neg different]
        rfl
      · have some' : backendHandle.hashCode ≠ 0 := fun zero => none' (zero ▸ UInt32.le_refl 0)
        have aligned : (r.withHash backendHandle.hashCode).Aligned :=
          attributed backendHandle found some'
        rw [if_neg none']
        -- The text of the statement, if there is one, does not matter for the figures.
        cases entry : (r.withHash backendHandle.hashCode).sqlInfoMap backendHandle.hashCode with
        | none =>
          have executed :=
            figures_statExecuteSql (r := r.withHash backendHandle.hashCode) points now
            (fun _ => aligned) statement
          exact executed
        | some sqlInfo =>
          have executed := figures_statExecuteSql
            (r := (r.withHash backendHandle.hashCode).updateSqlInfo fun current =>
              { current with sqlText := sqlInfo.sqlText }) points now (fun _ => aligned) statement
          exact executed
  | statStartTrans =>
    have same : (statStartTrans.run now r).sqlInfoMap = r.sqlInfoMap := rfl
    simp [credit, same]
  | statEndTrans isRollBack =>
    have same : ((statEndTrans isRollBack).run now r).sqlInfoMap = r.sqlInfoMap := rfl
    simp [credit, same]
  | statRecvOneRow =>
    have same : (statRecvOneRow.run now r).sqlInfoMap = r.sqlInfoMap := rfl
    simp [credit, same]
  | statRecvFinishedRow rows =>
    have aligned : r.Aligned := attributed
    have counted := figures_recordSqlInfoRecvResult points now rows statement
    rw [aligned] at counted
    exact counted
  | statExecuteErr =>
    have aligned : r.Aligned := attributed
    have counted := figures_recordSqlInfoExecFail points now statement
    rw [aligned] at counted
    exact counted
  | statReadBackendData received =>
    cases received with
    | none =>
      have same : ((statReadBackendData none).run now r).sqlInfoMap = r.sqlInfoMap := rfl
      simp [credit, same]
    | some size =>
      have aligned : r.Aligned := attributed
      have counted := figures_recordSqlInfoRecvSize points size statement
      rw [aligned] at counted
      exact counted
  | setStatus status =>
    have same : ((setStatus status).run now r).sqlInfoMap = r.sqlInfoMap := rfl
    simp [credit, same]
  | setHandles manager =>
    have same : ((setHandles manager).run now r).sqlInfoMap = r.sqlInfoMap := rfl
    simp [credit, same]

/-- No call removes an entry or leaves a pointer to none. -/
theorem grows_run (call : StatCall) (now : UInt64) (r : Recording) : r.Grows (call.run now r) := by
  have parsing : ∀ (before : Recording) (parsed : Option ParsedSql),
      before.Grows (before.parseSql parsed).2 := by
    intro before parsed
    obtain ⟨entries, pointer, _⟩ := parseSql_spec before parsed
    exact grows_of_same entries pointer
  cases call with
  | parseSql parsed => exact parsing r parsed
  | statParseSql sqlText parsed =>
    simp only [run, Recording.statParseSql]
    split
    · exact grows_of_same rfl rfl
    · split
      · exact parsing r parsed
      · exact (parsing r parsed).trans (statSaveSql_spec _ _).1
  -- The text is cleared before the statement is parsed, saved and executed.
  | statParseAndStatSql parsed =>
    have cleared : r.Grows (r.updateSqlInfo fun sqlInfo => { sqlInfo with sqlText := [] }) :=
      grows_of_same rfl rfl
    simp only [run, Recording.statParseAndStatSql]
    split
    · exact cleared.trans (parsing _ parsed)
    · exact ((cleared.trans (parsing _ parsed)).trans (statSaveSql_spec _ _).1).trans
        (grows_statExecuteSql _ now)
  | statPreparedSql preparedHandle =>
    simp only [run, Recording.statPreparedSql]
    split
    · exact grows_of_same rfl rfl
    · split
      · exact grows_of_same rfl rfl
      · split
        · apply Grows.trans _ (grows_statExecuteSql _ now)
          exact grows_of_same rfl rfl
        · apply Grows.trans _ (grows_statExecuteSql _ now)
          exact grows_of_same rfl rfl
  | statRecvFinishedRow rows =>
    have counted := grows_count r fun part => { part with
      execTime := part.execTime + (now - r.conn.record.startQueryTime)
      totalRow := part.totalRow + r.resultRows rows }
    exact counted.trans (grows_of_same rfl rfl)
  | statExecuteErr => exact grows_count r _
  | statReadBackendData received =>
    cases received with
    | none => exact grows_of_same rfl rfl
    | some size => exact grows_count r _
  | _ => exact grows_of_same rfl rfl

end StatCall

/-- The statistics, all connections, and a ledger of what each statement is owed. -/
structure StatState where
  sqlInfoMap : SqlInfoMap
  conn : Nat → Connection
  /-- What was contributed while a hash was the current one, whatever became of it. -/
  ledger : UInt32 → Share

/-- A call on one of the connections, at a time of the global clock. -/
structure StatStep where
  conn : Nat
  now : UInt64
  call : StatCall

namespace StatState

/-- No statement has been seen. -/
def new : StatState := ⟨fun _ => none, fun _ => .new, fun _ => .zero⟩

/-- The statistics together with one connection. -/
def recording (s : StatState) (c : Nat) : Recording := ⟨s.sqlInfoMap, s.conn c⟩

/-- The state after a call. -/
def after (s : StatState) (step : StatStep) : StatState :=
  let r := step.call.run step.now (s.recording step.conn)
  let credit := step.call.credit step.now (s.recording step.conn)
  { sqlInfoMap := r.sqlInfoMap
    conn := Function.update s.conn step.conn r.conn
    ledger := Function.update s.ledger credit.1 ((s.ledger credit.1).add credit.2) }

end StatState

/-- The calls of any connections in any order. -/
def statRuns : System StatState StatStep where
  init s := s = .new
  step s step t := t = s.after step

/-- Whether a call's figures go to the statement that is current on its connection. -/
def StatStep.Attributed (s : StatState) (step : StatStep) : Prop :=
  step.call.Attributed (s.recording step.conn)

/-- All figures are where they belong, and no pointer leads nowhere. -/
structure StatState.Recorded (s : StatState) : Prop where
  figures : ∀ hashCode, hashCode ≠ 0 → s.sqlInfoMap.figures hashCode = s.ledger hashCode
  points : ∀ c, (s.recording c).Points

/-- A call whose figures go to the current statement keeps all figures where they belong. -/
theorem StatState.Recorded.after {s : StatState} (recorded : s.Recorded) {step : StatStep}
    (attributed : step.Attributed s) : (s.after step).Recorded := by
  have grows := step.call.grows_run step.now (s.recording step.conn)
  constructor
  · -- What the call adds to a figure is what its credit says, and nothing where the credit goes
    -- elsewhere.
    intro hashCode statement
    have added := @StatCall.figures_run _ step.now _ (recorded.points step.conn) attributed _
      statement
    refine Eq.trans added ?_
    by_cases same : (step.call.credit step.now (s.recording step.conn)).1 = hashCode
    · have before := recorded.figures hashCode statement
      simp only [StatState.after, same, if_true, Function.update_self, ← before]
      rfl
    · simp only [StatState.after, if_neg same, Function.update_of_ne (Ne.symm same)]
      exact recorded.figures hashCode statement
  · -- Only the connection of the call may point elsewhere, and no entry is removed.
    intro c
    by_cases same : c = step.conn
    · subst same
      have own : (s.after step).recording step.conn =
          step.call.run step.now (s.recording step.conn) := by
        simp [StatState.after, StatState.recording]
      rw [own]
      exact grows.points (recorded.points step.conn)
    · intro pointer found
      have other : (s.conn c).sqlInfo = some pointer := by
        simpa [StatState.after, StatState.recording, same] using found
      exact grows.entries pointer (recorded.points c pointer other)

/-- A statement that is its own pattern. -/
def plainSql (sqlText : Bytes) : ParsedSql := ⟨sqlText, 0, [], false, false, false⟩

/-- The statement `a` executed once on the first connection. -/
def executeOnce : StatStep := ⟨0, 5, .statParseAndStatSql (some (plainSql [97]))⟩

/-- The statement `a` is prepared, `b` is executed, and then `a` by its handle. -/
def executePrepared : List StatStep :=
  [⟨0, 5, .statParseSql [97] (some (plainSql [97]))⟩,
    ⟨0, 6, .setHandles (HandleManager.new.save ⟨⟨7, 0⟩, Tool.quickHashCode [97], none, []⟩ ⟨1, 0⟩)⟩,
    ⟨0, 7, .statParseAndStatSql (some (plainSql [98]))⟩,
    ⟨0, 8, .statPreparedSql 1⟩]

end OneProxy
