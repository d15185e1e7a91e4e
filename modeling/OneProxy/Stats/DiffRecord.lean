import OneProxy.Stats.RealTime

/-! What the figures of the last seconds show. -/

namespace OneProxy.Record

open StdMap

/-- Every entry of the first record has one in the second. -/
structure Within (record after : Record) : Prop where
  sqls : StdMap.Within record.sqlInfoMap after.sqlInfoMap
  transs : StdMap.Within record.transInfoMap after.transInfoMap
  clients : StdMap.Within record.clientQueryMap after.clientQueryMap
  users : StdMap.Within record.clientUserAppMap after.clientUserAppMap
  threads : StdMap.Within record.threadInfoMap after.threadInfoMap
  locks : StdMap.Within record.recordMutexMap after.recordMutexMap
  pages : StdMap.Within record.httpRequestPageCount after.httpRequestPageCount

variable {record after later : Record}

theorem Within.refl (record : Record) : Within record record :=
  ⟨.refl _, .refl _, .refl _, .refl _, .refl _, .refl _, .refl _⟩

theorem Within.trans (first : Within record after) (second : Within after later) :
    Within record later :=
  ⟨first.sqls.trans second.sqls, first.transs.trans second.transs,
    first.clients.trans second.clients, first.users.trans second.users,
    first.threads.trans second.threads, first.locks.trans second.locks,
    first.pages.trans second.pages⟩

/-- A record that grows in one map. -/
theorem within_sqls {m : StdMap UInt32 SqlInfo} (grown : StdMap.Within record.sqlInfoMap m) :
    Within record { record with sqlInfoMap := m } :=
  ⟨grown, .refl _, .refl _, .refl _, .refl _, .refl _, .refl _⟩

theorem within_transs {m : StdMap UInt32 TransInfo}
    (grown : StdMap.Within record.transInfoMap m) :
    Within record { record with transInfoMap := m } :=
  ⟨.refl _, grown, .refl _, .refl _, .refl _, .refl _, .refl _⟩

theorem within_clients {m : StdMap UInt32 ClientQueryInfo}
    (grown : StdMap.Within record.clientQueryMap m) :
    Within record { record with clientQueryMap := m } :=
  ⟨.refl _, .refl _, grown, .refl _, .refl _, .refl _, .refl _⟩

theorem within_users {m : StdMap UInt32 ClientUserAppInfo}
    (grown : StdMap.Within record.clientUserAppMap m) :
    Within record { record with clientUserAppMap := m } :=
  ⟨.refl _, .refl _, .refl _, grown, .refl _, .refl _, .refl _⟩

theorem within_threads {m : StdMap UInt64 ThreadInfo}
    (grown : StdMap.Within record.threadInfoMap m) :
    Within record { record with threadInfoMap := m } :=
  ⟨.refl _, .refl _, .refl _, .refl _, grown, .refl _, .refl _⟩

theorem within_locks {m : StdMap Bytes RecordMutex}
    (grown : StdMap.Within record.recordMutexMap m) :
    Within record { record with recordMutexMap := m } :=
  ⟨.refl _, .refl _, .refl _, .refl _, .refl _, grown, .refl _⟩

theorem within_pages {m : StdMap Bytes UInt64}
    (grown : StdMap.Within record.httpRequestPageCount m) :
    Within record { record with httpRequestPageCount := m } :=
  ⟨.refl _, .refl _, .refl _, .refl _, .refl _, .refl _, grown⟩

/-- No event removes an entry. -/
theorem within_apply {event : Event} (applied : event.apply record = some after) :
    Within record after := by
  cases event <;> simp only [Event.apply, Option.some.injEq] at applied
  case lock name =>
    subst applied
    unfold recordLock
    split
    · exact within_locks (within_upsert _ _ _ _)
    · exact Within.refl record
  case unlock name =>
    subst applied
    unfold recordUnlock
    split
    · exact within_locks (within_upsert _ _ _ _)
    · exact Within.refl record
  case threadRecvConn | threadStartHandingConn | threadFinishedConn | threadFailConn =>
    subst applied
    exact within_threads (within_upsert _ _ _ _)
  case httpServerRequestPage =>
    subst applied
    exact within_pages (within_upsert _ _ _ _)
  case clientQueryExec sqlHashCode _ _ =>
    subst applied
    unfold recordClientQueryExec
    split
    · exact Within.refl record
    · exact within_clients (within_adjustAt _ _ _)
  case clientQueryRecvSize | clientQuerySendSize | clientQueryAddSql | clientQueryExecFail |
      clientQueryOnLineTime | clientQueryOffLine | clientQueryAllocServerFail =>
    subst applied
    exact within_clients (within_adjustAt _ _ _)
  case clientQueryAddNewClient =>
    subst applied
    exact within_clients (within_upsert _ _ _ _)
  case sqlInfoAddSql env conn =>
    obtain ⟨⟨after', conn', event⟩, saved, same⟩ := Option.map_eq_some_iff.mp applied
    simp only at same
    subst same
    obtain ⟨info, _, same⟩ := sqlInfoMap_of_saved saved
    subst same
    apply within_sqls
    intro key there
    by_cases self : key = conn.record.sqlInfo.sqlHashCode
    · simp [self]
    · simpa [self] using there
  case sqlInfoRecvSize | sqlInfoExec | sqlInfoExecTran | sqlInfoRecvResult | sqlInfoExecFail =>
    subst applied
    exact within_sqls (within_adjustAt _ _ _)
  case transInfoEndTrans =>
    subst applied
    exact within_transs (within_upsert _ _ _ _)
  case clientUserAppInfoAdd | clientUserAppInfoAddSql =>
    subst applied
    exact within_users (within_upsert _ _ _ _)
  all_goals
    -- The remaining events touch no map.
    subst applied
    exact ⟨.refl _, .refl _, .refl _, .refl _, .refl _, .refl _, .refl _⟩

/-- A clear removes no entry. -/
theorem within_recordClear (record : Record) : Within record record.recordClear where
  sqls := within_mapValues _ _
  transs := .refl _
  clients := within_mapValues _ _
  users := .refl _
  threads := within_mapValues _ _
  locks := within_mapValues _ _
  pages := within_mapValues _ _

/-- A difference has no entry that the newer record lacks, if it had none before. -/
theorem within_getDiffRecord {newRecord oldRecord : Record} (kept : Within record newRecord) :
    Within (getDiffRecord newRecord oldRecord record) newRecord where
  sqls := difference_within kept.sqls
  transs := difference_within kept.transs
  clients := difference_within kept.clients
  users := difference_within kept.users
  threads := difference_within kept.threads
  locks := difference_within kept.locks
  pages := difference_within kept.pages

namespace Statics

variable {s t : Statics}

/-- The copy and the last difference have no entries that the instance lacks. -/
structure Inv (s : Statics) : Prop where
  diff : Within s.diffRecord s.record
  bak : ∀ bak, s.bakRecord = some bak → Within bak s.record

/-- What has entries of the instance only still does when the instance has grown. -/
theorem Inv.grow (inv : s.Inv) (grown : Within s.record record) :
    Inv { s with record := record } where
  diff := inv.diff.trans grown
  bak := fun bak same => (inv.bak bak same).trans grown

/-- The invariant survives every action. -/
theorem Inv.step {action : Action} (inv : s.Inv) (moved : s.next action = some t) : t.Inv := by
  cases action with
  | event event =>
    obtain ⟨record, applied, same⟩ := Option.map_eq_some_iff.mp moved
    subst same
    exact inv.grow (within_apply applied)
  -- A record that has just been taken is within itself.
  | bakRecord =>
    obtain rfl : s.takeBak = t := by simpa [next] using moved
    refine ⟨inv.diff, ?_⟩
    intro bak same
    simp only [takeBak, Option.some.injEq] at same
    subst same
    exact ⟨.refl _, .refl _, .refl _, .refl _, .refl _, .refl _, .refl _⟩
  | getRealTimeRecord =>
    obtain rfl : s.getRealTimeRecord.2 = t := by simpa [next] using moved
    unfold getRealTimeRecord
    split
    · exact inv
    · exact ⟨within_getDiffRecord inv.diff, inv.bak⟩
  -- There is nothing to take a difference to after a clear.
  | recordClear =>
    obtain rfl : s.clear = t := by simpa [next] using moved
    refine ⟨inv.diff.trans (within_recordClear s.record), ?_⟩
    intro bak same
    simp [clear] at same

/-- The invariant holds in every state of the process. -/
theorem inv_of_reachable (reached : Runs.Reachable process s) : s.Inv := by
  apply reached.invariant
  · intro start begun
    subst begun
    exact ⟨Within.refl _, fun bak same => by simp [new] at same⟩
  · intro a action b inv moved
    exact inv.step moved

/-- A quiet action keeps the copy. -/
theorem bakRecord_of_quiet {action : Action} (quiet : action.Quiet)
    (moved : s.next action = some t) : t.bakRecord = s.bakRecord := by
  cases action with
  | event event =>
    obtain ⟨record, applied, same⟩ := Option.map_eq_some_iff.mp moved
    rw [← same]
  | bakRecord => exact absurd quiet id
  | getRealTimeRecord =>
    obtain rfl : s.getRealTimeRecord.2 = t := by simpa [next] using moved
    unfold getRealTimeRecord
    split <;> rfl
  | recordClear => exact absurd quiet id

/-- A quiet action adds to the counters what it counts. -/
theorem read_of_quiet {action : Action} (quiet : action.Quiet) (moved : s.next action = some t)
    (counter : Counter) :
    t.record.read counter =
      s.record.read counter + Ledger.amount (s.counts action) counter := by
  cases action with
  | event event =>
    obtain ⟨record, applied, same⟩ := Option.map_eq_some_iff.mp moved
    subst same
    exact read_apply applied counter
  | bakRecord => exact absurd quiet id
  | getRealTimeRecord =>
    obtain rfl : s.getRealTimeRecord.2 = t := by simpa [next] using moved
    have same : s.getRealTimeRecord.2.record = s.record := by
      unfold getRealTimeRecord
      split <;> rfl
    rw [same]
    exact read_same (fun _ => rfl) counter
  | recordClear => exact absurd quiet id

end Statics

/-- The counters of a difference are the differences of the counters. -/
theorem read_getDiffRecord {newRecord oldRecord : Record} (kept : Within record newRecord)
    (grown : Within oldRecord newRecord) (counter : Counter) :
    (getDiffRecord newRecord oldRecord record).read counter =
      newRecord.read counter - oldRecord.read counter := by
  -- The figures that are no map's are subtracted one by one; the others entry by entry.
  cases counter with
  | sum own => cases own <;> rfl
  | lock name own =>
    exact figure_difference (fun _ _ => by cases own <;> rfl) kept.locks grown.locks name
  | thread threadId own =>
    exact figure_difference (fun _ _ => by cases own <;> rfl) kept.threads grown.threads threadId
  | http own => cases own <;> rfl
  | page pageUrl => exact figure_difference (fun _ _ => rfl) kept.pages grown.pages pageUrl
  | client hashCode own =>
    exact figure_difference (fun _ _ => by cases own <;> rfl) kept.clients grown.clients hashCode
  | sql hashCode own =>
    exact figure_difference (fun _ _ => by cases own <;> rfl) kept.sqls grown.sqls hashCode
  | trans hashCode own =>
    exact figure_difference (fun _ _ => by cases own <;> rfl) kept.transs grown.transs hashCode
  | login hashCode => exact figure_difference (fun _ _ => rfl) kept.users grown.users hashCode

/-- A map is shown as it should be where the subtraction keeps the description. -/
theorem mapShown_iff {κ ν δ : Type} {describe : ν → δ} {less : ν → ν → ν}
    {before now result : StdMap κ ν} (kept : StdMap.Within result now)
    (grown : StdMap.Within before now) :
    MapShown describe before now (difference less now before result) ↔
      ∀ key value old, now key = some value → before key = some old →
        describe (less value old) = describe value := by
  constructor
  · intro shown key
    exact (difference_described_iff kept grown key).mp (shown key).1
  · intro keeps key
    exact ⟨(difference_described_iff kept grown key).mpr (keeps key), difference_new kept⟩

/-- The subtraction of a transaction keeps its description where the old one has no statements. -/
theorem TransInfo.described_sub_iff (info a : TransInfo) :
    (info.sub a).described = info.described ↔ a.part.sqlNum = 0 := by
  constructor
  · intro same
    have equal : info.part.sqlNum - a.part.sqlNum = info.part.sqlNum :=
      congrArg (fun t : TransInfo => t.part.sqlNum) same
    exact sub_eq_self.mp equal
  · intro zero
    simp [TransInfo.sub, TransInfoPart.sub, TransInfo.described, zero]

/-- A difference is right exactly where no older transaction has a number of statements. -/
theorem realTime_getDiffRecord_iff {before now : Record} {counted : Counter → UInt64}
    (kept : Within record now) (grown : Within before now)
    (adds : ∀ counter, now.read counter = before.read counter + counted counter) :
    RealTime ⟨before, now, getDiffRecord now before record⟩ counted ↔
      ∀ transHashCode info, before.transInfoMap transHashCode = some info →
        info.part.sqlNum = 0 := by
  constructor
  · intro right transHashCode old there
    have keeps := (mapShown_iff kept.transs grown.transs).mp right.transs
    obtain ⟨info, still⟩ :=
      Option.isSome_iff_exists.mp (grown.transs transHashCode (by simp [there]))
    exact (TransInfo.described_sub_iff info old).mp (keeps transHashCode info old still there)
  · -- Whatever else is described of an entry is taken from the later record.
    intro none
    refine ⟨?_, ?_, ?_, ?_, ?_, ?_, ?_, ?_, ?_, ?_⟩
    · intro counter
      show (getDiffRecord now before record).read counter = counted counter
      rw [read_getDiffRecord kept grown, adds, add_sub_cancel_left]
    · exact (mapShown_iff kept.sqls grown.sqls).mpr fun _ _ _ _ _ => rfl
    · refine (mapShown_iff kept.transs grown.transs).mpr ?_
      intro key value old _ there
      exact (TransInfo.described_sub_iff value old).mpr (none key old there)
    · exact (mapShown_iff kept.clients grown.clients).mpr fun _ _ _ _ _ => rfl
    · exact (mapShown_iff kept.users grown.users).mpr fun _ _ _ _ _ => rfl
    · exact (mapShown_iff kept.threads grown.threads).mpr fun _ _ _ _ _ => rfl
    · exact (mapShown_iff kept.locks grown.locks).mpr fun _ _ _ _ _ => rfl
    · exact (mapShown_iff kept.pages grown.pages).mpr fun _ _ _ _ _ => rfl
    · intro key info old there before
      exact ⟨info.sub old, difference_both there before, rfl, rfl⟩
    · intro key info old there before
      exact ⟨info.sub old, difference_both there before, rfl⟩

/-- What is shown after a quiet run since the copy was taken, from any state of the process. -/
theorem shown_iff {start later : Statics} {between : List Action}
    (reached : Runs.Reachable process start) (quiet : ∀ action ∈ between, action.Quiet)
    (ran : Ledger.run Statics.next start.takeBak between = some later) :
    RealTime ⟨start.record, later.record, later.getRealTimeRecord.1⟩
        (fun counter =>
          Ledger.total Statics.next Statics.counts counter start.takeBak between) ↔
      ∀ transHashCode info, start.record.transInfoMap transHashCode = some info →
        info.part.sqlNum = 0 := by
  -- The copy stays, and the instance only grows.
  have copied : start.next .bakRecord = some start.takeBak := rfl
  have inv : later.Inv :=
    Ledger.run_preserves (fun _ _ _ _ moved (kept : Statics.Inv _) => kept.step moved) quiet ran
      ((Statics.inv_of_reachable reached).step copied)
  have bak : later.bakRecord = start.takeBak.bakRecord :=
    Ledger.run_preserves
      (fun _ _ _ still moved (kept : Statics.bakRecord _ = start.takeBak.bakRecord) =>
        (Statics.bakRecord_of_quiet still moved).trans kept)
      quiet ran rfl
  have grown : Within start.record later.record := by
    have within := inv.bak _ bak
    exact ⟨within.sqls, within.transs, within.clients, within.users, within.threads, within.locks,
      within.pages⟩
  have adds : ∀ counter, later.record.read counter = start.record.read counter +
      Ledger.total Statics.next Statics.counts counter start.takeBak between :=
    @Ledger.read_run _ _ _ _ _ _ Statics.next Statics.counts (fun s => s.record.read) Action.Quiet
      (fun _ _ _ still moved => Statics.read_of_quiet still moved) _ _ _ quiet ran
  have shown : later.getRealTimeRecord.1 =
      getDiffRecord later.record start.record later.diffRecord := by
    unfold Statics.getRealTimeRecord
    rw [bak]
    rfl
  rw [shown]
  exact realTime_getDiffRecord_iff inv.diff grown adds

/--
The real-time figures are the events counted since the copy, the descriptions as they are now and
new entries in full, exactly where no transaction had a number of statements when it was copied.
-/
theorem realTime_iff {start later : Statics} {between : List Action}
    (reached : Runs.Reachable process start) (quiet : ∀ action ∈ between, action.Quiet)
    (ran : Ledger.run Statics.next start.takeBak between = some later) :
    RealTime ⟨start.record, later.record, later.getRealTimeRecord.1⟩
        (fun counter =>
          Ledger.total Statics.next Statics.counts counter start.takeBak between) ↔
      ∀ transHashCode info, start.record.transInfoMap transHashCode = some info →
        info.part.sqlNum = 0 :=
  shown_iff reached quiet ran

/-- A lock that is taken after the copy. -/
theorem realTime_lock :
    RealTime ⟨Record.new, Record.new.recordLock [97],
        (Statics.getRealTimeRecord
          { Statics.new.takeBak with record := Record.new.recordLock [97] }).1⟩
      (fun counter => Ledger.total Statics.next Statics.counts counter Statics.new.takeBak
        [.event (.lock [97])]) :=
  (@realTime_iff Statics.new _ [.event (.lock [97])] (Runs.Reachable.start rfl)
    (by simp [Action.Quiet]) rfl).mpr (fun _ _ there => by simp [Statics.new, Record.new] at there)

/-- A connection at the end of a transaction of one statement. -/
def inTransaction : Conn where
  toConnection := { Connection.new with
    record := { Connection.new.record with sqlSet := {7} } }
  clientInfo := none
  address := []
  addressHashCode := 1
  connectionHashcode := 1
  currExecSqlHash := 0

/-- The process after that transaction. -/
def afterTransaction : Statics :=
  { Statics.new with
    record := (Record.new.recordTransInfoEndTrans ⟨false, 0, 0⟩ 5 inTransaction 0).1 }

/-- A transaction recorded before the copy is shown without its statements. -/
theorem transaction_not_shown :
    ¬ RealTime ⟨afterTransaction.record, afterTransaction.record,
        afterTransaction.takeBak.getRealTimeRecord.1⟩
      (fun counter =>
        Ledger.total Statics.next Statics.counts counter afterTransaction.takeBak []) := by
  have first : process.step Statics.new
      (.event (.transInfoEndTrans ⟨false, 0, 0⟩ 5 inTransaction 0)) afterTransaction := rfl
  have reached : Runs.Reachable process afterTransaction := (Runs.Reachable.start rfl).next first
  intro right
  have none := (@shown_iff _ _ [] reached (by simp) rfl).mp right 5 _ rfl
  exact absurd none (by decide)

end OneProxy.Record
