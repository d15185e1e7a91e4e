import Mathlib
import OneProxy.Stats.Record

/-! The figures of transactions, and the table of transactions that `DBManager` writes. -/

namespace OneProxy.Record

/-- `TransInfoTabT`: a row of `transinfo`, with its times in seconds. -/
structure TransInfoRow where
  connhashcode : UInt32
  transhashcode : UInt32
  exectime : UInt32
  starttime : UInt64
  endtime : UInt64

/-- The tables about transactions; a row of `trans_sql_rel` is a transaction and a statement. -/
structure TransTables where
  transinfo : List TransInfoRow
  transSqlRel : List (UInt32 × UInt32)

/-- `save_transSqlRel`: a row is only added once. -/
def saveTransSqlRel (transhc : UInt32) (rows : List (UInt32 × UInt32)) (sqlhc : UInt32) :
    List (UInt32 × UInt32) :=
  if (transhc, sqlhc) ∈ rows then rows else rows ++ [(transhc, sqlhc)]

/-- `DBManager::start`, as far as transactions go. -/
def DBManager.startTrans (tables : TransTables) : DBDataT → TransTables
  | .clientExecTrans tis => {
      transinfo := tables.transinfo ++ [
        { connhashcode := tis.connHashCode
          transhashcode := tis.transHashCode
          -- The difference is the other way round, and the member has 32 bits.
          exectime := (tis.startTime - tis.endTime).toUInt32
          starttime := tis.startTime / 1000
          endtime := tis.endTime / 1000 }]
      transSqlRel := tis.sqlVec.foldl (saveTransSqlRel tis.transHashCode) tables.transSqlRel }
  | _ => tables

/-- A call of `record_transInfoEndTrans`, whose readings of the clock do not decrease. -/
structure TransEnd where
  env : Env
  transHashCode : UInt32
  conn : Conn
  /-- The second reading, for the event. -/
  endTime : UInt64
  started : conn.record.transStartTime ≤ env.millisecondTime
  ended : env.millisecondTime ≤ endTime

namespace TransEnd

/-- How long the transaction has taken. -/
def duration (call : TransEnd) : Nat :=
  call.env.millisecondTime.toNat - call.conn.record.transStartTime.toNat

/-- The same by the second reading. -/
def storedDuration (call : TransEnd) : Nat :=
  call.endTime.toNat - call.conn.record.transStartTime.toNat

/-- The transaction goes to the database. -/
def IsStored (call : TransEnd) : Prop :=
  call.env.statsUserDB ∧ call.conn.connectionHashcode > 0

instance (call : TransEnd) : Decidable call.IsStored := inferInstanceAs (Decidable (_ ∧ _))

/-- What a call leaves of the statistics, and the event that it adds. -/
def run (record : Record) (call : TransEnd) : Record × Option DBDataT :=
  record.recordTransInfoEndTrans call.env call.transHashCode call.conn call.endTime

/-- What a call makes of the entry of its transaction. -/
def ends (info : TransInfo) (call : TransEnd) : TransInfo :=
  endedTrans call.conn call.transHashCode call.env.millisecondTime info

end TransEnd

/-- The statistics and the tables after some calls, with the queue of events drained. -/
structure TransTotals where
  record : Record
  tables : TransTables

namespace TransTotals

/-- Before the first call. -/
def new : TransTotals := ⟨.new, [], []⟩

/-- What a call leaves, here and in the database. -/
def next (totals : TransTotals) (call : TransEnd) : TransTotals where
  record := (call.run totals.record).1
  tables := (call.run totals.record).2.toList.foldl DBManager.startTrans totals.tables

/-- After some calls. -/
def after (calls : List TransEnd) : TransTotals := calls.foldl next new

end TransTotals

/-- The durations of one transaction, in the order of the calls. -/
def durationsOf (transHashCode : UInt32) (calls : List TransEnd) : List Nat :=
  (calls.filter (·.transHashCode = transHashCode)).map TransEnd.duration

/-- The figures that durations have, where there are any. -/
structure Sums (durations : List Nat) (part : TransInfoPart) : Prop where
  exec : part.exec.toNat = durations.length
  totalTime : part.totalTime.toNat = durations.sum
  maxTime : durations.max? = some part.maxTime.toNat
  minTime : durations.min? = some part.minTime.toNat
  lastTime : durations.getLast? = some part.lastTime.toNat

/-- The entries hold the figures of their transactions, and the rows their durations. -/
structure Accurate (calls : List TransEnd) (totals : TransTotals) : Prop where
  entries : ∀ transHashCode, durationsOf transHashCode calls ≠ [] →
    ∃ info, totals.record.transInfoMap transHashCode = some info ∧
      Sums (durationsOf transHashCode calls) info.part
  rows : totals.tables.transinfo.map (·.exectime.toNat) =
    (calls.filter fun call => call.IsStored).map TransEnd.duration

/-! ## The entries -/

/-- The figures of an entry after some calls. -/
structure Tally (durations : List Nat) (part : TransInfoPart) : Prop where
  exec : part.exec.toNat = durations.length % 0x10000000000000000
  totalTime : part.totalTime.toNat = durations.sum % 0x10000000000000000
  maxTime : part.maxTime.toNat = durations.foldl max 0
  /-- No duration is shorter than what it starts with. -/
  minTime : part.minTime = 0
  lastTime : part.lastTime.toNat = durations.getLast?.getD 0

/-- The difference of the first readings is the duration. -/
theorem TransEnd.toNat_sub (call : TransEnd) :
    (call.env.millisecondTime - call.conn.record.transStartTime).toNat = call.duration :=
  UInt64.toNat_sub_of_le _ _ call.started

/-- One more call. -/
theorem Tally.ends {durations : List Nat} {info : TransInfo} (tally : Tally durations info.part)
    (call : TransEnd) : Tally (durations ++ [call.duration]) (call.ends info).part := by
  -- One field after the other; the sums are taken with 64 bits.
  have last := call.toNat_sub
  constructor
  · show (info.part.exec + 1).toNat = _
    rw [UInt64.toNat_add, tally.exec, List.length_append, List.length_singleton]
    exact Nat.mod_add_mod _ _ _
  · show (info.part.totalTime +
      (call.env.millisecondTime - call.conn.record.transStartTime)).toNat = _
    rw [UInt64.toNat_add, tally.totalTime, last, List.sum_append, List.sum_singleton]
    exact Nat.mod_add_mod _ _ _
  · rw [List.foldl_append, ← tally.maxTime]
    show (if call.env.millisecondTime - call.conn.record.transStartTime > info.part.maxTime then
      call.env.millisecondTime - call.conn.record.transStartTime else info.part.maxTime).toNat =
        max info.part.maxTime.toNat call.duration
    rw [← last]
    split
    · next longer => exact (Nat.max_eq_right (Nat.le_of_lt (UInt64.lt_iff_toNat_lt.mp longer))).symm
    · next enough =>
        exact (Nat.max_eq_left (UInt64.le_iff_toNat_le.mp (UInt64.not_lt.mp enough))).symm
  · show (if _ < info.part.minTime then _ else info.part.minTime) = 0
    rw [tally.minTime, if_neg UInt64.not_lt_zero]
  · show (call.env.millisecondTime - call.conn.record.transStartTime).toNat = _
    rw [last, List.getLast?_concat, Option.getD_some]

/-- All calls of one transaction. -/
theorem tally_foldl (calls : List TransEnd) :
    Tally (calls.map TransEnd.duration) (calls.foldl TransEnd.ends .new).part := by
  -- The induction goes from the last call back.
  induction calls using List.reverseRecOn with
  | nil => exact ⟨rfl, rfl, rfl, rfl, rfl⟩
  | append_singleton calls call ih =>
    rw [List.map_append, List.foldl_append]
    exact ih.ends call

/-- The entry of a transaction is what its own calls make of it. -/
theorem transInfoMap_after (calls : List TransEnd) (transHashCode : UInt32) :
    ((TransTotals.after calls).record.transInfoMap transHashCode).getD .new =
        (calls.filter (·.transHashCode = transHashCode)).foldl TransEnd.ends .new ∧
      (((TransTotals.after calls).record.transInfoMap transHashCode).isSome ↔
        durationsOf transHashCode calls ≠ []) := by
  -- The induction takes the last call away; it changes the entry under its own hash only.
  induction calls using List.reverseRecOn with
  | nil => exact ⟨rfl, by simp [durationsOf, TransTotals.after, TransTotals.new, Record.new]⟩
  | append_singleton calls call ih =>
    have last : (TransTotals.after (calls ++ [call])).record.transInfoMap =
        (TransTotals.after calls).record.transInfoMap.upsert .new call.transHashCode
          fun info => call.ends info := by
      rw [TransTotals.after, List.foldl_append]
      rfl
    rw [last]
    by_cases same : call.transHashCode = transHashCode
    · subst same
      rw [StdMap.upsert_self, Option.getD_some, ih.1, List.filter_append, List.foldl_append]
      exact ⟨by simp, by simp [durationsOf]⟩
    · rw [StdMap.upsert_of_ne (Ne.symm same), List.filter_append, List.foldl_append, durationsOf,
        List.filter_append]
      simpa [same, durationsOf] using ih

/-- The figures of an entry are right as long as nothing overflows and some duration is zero. -/
theorem Tally.sums_iff {durations : List Nat} {part : TransInfoPart} (tally : Tally durations part)
    (some_ : durations ≠ []) :
    Sums durations part ↔
      durations.length < 0x10000000000000000 ∧ durations.sum < 0x10000000000000000 ∧
        0 ∈ durations := by
  have longest : durations.max? = some part.maxTime.toNat := by
    rw [tally.maxTime]
    cases durations with
    | nil => exact absurd rfl some_
    | cons duration rest => rw [List.max?_cons', List.foldl_cons, Nat.zero_max]
  have last : durations.getLast? = some part.lastTime.toNat := by
    rw [tally.lastTime, List.getLast?_eq_some_getLast some_, Option.getD_some]
  -- The minimum starts at 0, so that it never moves.
  have shortest : durations.min? = some part.minTime.toNat ↔ 0 ∈ durations := by
    rw [tally.minTime, List.min?_eq_some_iff]
    exact and_iff_left fun duration _ => Nat.zero_le duration
  constructor
  · intro sums
    have exec := sums.exec.symm.trans tally.exec
    have total := sums.totalTime.symm.trans tally.totalTime
    exact ⟨by omega, by omega, shortest.mp sums.minTime⟩
  · intro fits
    exact ⟨tally.exec.trans (Nat.mod_eq_of_lt fits.1),
      tally.totalTime.trans (Nat.mod_eq_of_lt fits.2.1), longest, shortest.mpr fits.2.2, last⟩

/-- The same of the entry that the calls leave. -/
theorem entry_iff (calls : List TransEnd) (transHashCode : UInt32)
    (some_ : durationsOf transHashCode calls ≠ []) :
    (∃ info, (TransTotals.after calls).record.transInfoMap transHashCode = some info ∧
        Sums (durationsOf transHashCode calls) info.part) ↔
      (durationsOf transHashCode calls).length < 0x10000000000000000 ∧
        (durationsOf transHashCode calls).sum < 0x10000000000000000 ∧
        0 ∈ durationsOf transHashCode calls := by
  -- The entry has tallied the durations of its own calls.
  obtain ⟨entry, there⟩ := transInfoMap_after calls transHashCode
  obtain ⟨info, found⟩ := Option.isSome_iff_exists.mp (there.mpr some_)
  rw [found, Option.getD_some] at entry
  have tally : Tally (durationsOf transHashCode calls) info.part := by
    rw [entry]
    exact tally_foldl _
  rw [found, ← tally.sums_iff some_]
  constructor
  · intro sums
    obtain ⟨info', same, sums⟩ := sums
    obtain rfl := Option.some.inj same
    exact sums
  · intro sums
    exact ⟨info, rfl, sums⟩

/-! ## The rows -/

/-- A call adds one row or none. -/
theorem transinfo_next (totals : TransTotals) (call : TransEnd) :
    (totals.next call).tables.transinfo.map (·.exectime.toNat) =
      totals.tables.transinfo.map (·.exectime.toNat) ++ if call.IsStored then
        [(call.conn.record.transStartTime - call.endTime).toUInt32.toNat] else [] := by
  have event : (call.run totals.record).2 = if call.IsStored then some (.clientExecTrans
      ⟨call.conn.connectionHashcode, call.transHashCode, call.conn.record.transStartTime,
        call.endTime, ordered call.conn.record.sqlSet⟩) else none := rfl
  rw [TransTotals.next, event]
  split
  · simp [DBManager.startTrans]
  · simp

/-- The rows of all calls. -/
theorem transinfo_after (calls : List TransEnd) :
    (TransTotals.after calls).tables.transinfo.map (·.exectime.toNat) =
      (calls.filter fun call => call.IsStored).map fun call =>
        (call.conn.record.transStartTime - call.endTime).toUInt32.toNat := by
  induction calls using List.reverseRecOn with
  | nil => rfl
  | append_singleton calls call ih =>
    have last : TransTotals.after (calls ++ [call]) = (TransTotals.after calls).next call := by
      rw [TransTotals.after, List.foldl_append]
      rfl
    rw [last, transinfo_next, ih, List.filter_append, List.map_append]
    congr 1
    by_cases stored : call.IsStored <;> simp [stored]

/-- The row of a call is right where the two durations make up whole turns of 32 bits. -/
theorem TransEnd.exectime_iff (call : TransEnd) :
    (call.conn.record.transStartTime - call.endTime).toUInt32.toNat = call.duration ↔
      call.duration < 0x100000000 ∧ 0x100000000 ∣ call.duration + call.storedDuration := by
  -- The row subtracts the wrong way round, which comes to the same only modulo the width of the
  -- field.
  have started := UInt64.le_iff_toNat_le.mp call.started
  have ended := UInt64.le_iff_toNat_le.mp call.ended
  have below := call.endTime.toNat_lt
  have row : (call.conn.record.transStartTime - call.endTime).toUInt32.toNat =
      (0x100000000 - call.storedDuration % 0x100000000) % 0x100000000 := by
    rw [UInt64.toNat_toUInt32, UInt64.toNat_sub, storedDuration]
    omega
  rw [row]
  omega

/-! ## Both -/

/--
After all calls the figures and the rows are right exactly if each transaction that ends has once
taken no time at all, nothing overflows, and the durations of each stored one make up whole turns of
32 bits.
-/
theorem accurate_after_iff (calls : List TransEnd) :
    Accurate calls (TransTotals.after calls) ↔
      (∀ transHashCode, durationsOf transHashCode calls ≠ [] →
        (durationsOf transHashCode calls).length < 0x10000000000000000 ∧
          (durationsOf transHashCode calls).sum < 0x10000000000000000 ∧
          0 ∈ durationsOf transHashCode calls) ∧
      ∀ call ∈ calls, call.IsStored →
        call.duration < 0x100000000 ∧ 0x100000000 ∣ call.duration + call.storedDuration := by
  -- Entries and rows are independent of each other.
  have rows : ((TransTotals.after calls).tables.transinfo.map (·.exectime.toNat) =
      (calls.filter fun call => call.IsStored).map TransEnd.duration) ↔
      ∀ call ∈ calls, call.IsStored →
        call.duration < 0x100000000 ∧ 0x100000000 ∣ call.duration + call.storedDuration := by
    rw [transinfo_after, List.map_inj_left]
    simp only [List.mem_filter, decide_eq_true_eq, and_imp, TransEnd.exectime_iff]
  rw [← rows]
  constructor
  · intro accurate
    exact ⟨fun transHashCode some_ => (entry_iff calls transHashCode some_).mp
      (accurate.entries transHashCode some_), accurate.rows⟩
  · intro fits
    exact ⟨fun transHashCode some_ => (entry_iff calls transHashCode some_).mpr
      (fits.1 transHashCode some_), fits.2⟩

/-- A transaction of one statement that starts at a second and ends at the next. -/
def oneSecond : TransEnd where
  env := ⟨true, 2000, 2⟩
  transHashCode := 1
  conn := { Connection.new with
    record := { Connection.new.record with transStartTime := 1000, sqlSet := {1} }
    clientInfo := none
    address := []
    addressHashCode := 0
    connectionHashcode := 1
    currExecSqlHash := 0 }
  endTime := 2000
  started := by decide
  ended := by decide

/-- Its shortest time is not what is recorded of it. -/
theorem oneSecond_inaccurate : ¬ ∀ calls, Accurate calls (TransTotals.after calls) := by
  intro always
  have durations : durationsOf 1 [oneSecond] = [1000] := by decide
  have some_ : durationsOf 1 [oneSecond] ≠ [] := by
    rw [durations]
    exact List.cons_ne_nil _ _
  have fits := (entry_iff [oneSecond] 1 some_).mp ((always [oneSecond]).entries 1 some_)
  rw [durations] at fits
  exact absurd fits.2.2 (by decide)

end OneProxy.Record
