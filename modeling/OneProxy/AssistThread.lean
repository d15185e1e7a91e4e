import OneProxy.Commercial.FreeImpl
import OneProxy.Conf.Ready
import OneProxy.Lib.Runs

/-! The thread that tries the databases, and what the connections get of what it has found out. -/

namespace OneProxy

open Config Runs

namespace AssistThread

/-- `set_isActive` of a database that has been tried. -/
def checkDataBase (store : Store) (db : DataBaseId) (isOk : Bool) : Store :=
  store.updateDataBase db fun dataBase => { dataBase with isActive := isOk }

/-- The databases that `check_dataBaseActive` tries, in their order. -/
def checkOrder (config : Config) : List DataBaseId :=
  config.dbGroupVector.flatMap fun group => group.dbMasterGroupVec ++ group.dbSlaveGroupVec

/-- The databases that the connections find, and which of them were tried, the last one first. -/
structure Checking where
  store : Store
  checks : List (DataBaseId × Bool)

/-- A step of the thread, or one of all the others. -/
inductive CheckStep
  /-- One round of the loops of `check_dataBaseActive`, and whether the database has answered. -/
  | check (db : DataBaseId) (isOk : Bool)
  /-- What the other threads do to the objects and to the counters of the databases. -/
  | others (store : Store)

/-- The other threads set neither the addresses of the databases nor whether they are active. -/
def Leaves (store after : Store) : Prop := ∀ db,
  (after.dataBase db).isActive = (store.dataBase db).isActive ∧
    (after.dataBase db).addr = (store.dataBase db).addr ∧
    (after.dataBase db).port = (store.dataBase db).port

/-- The databases of a configuration are found at their places. -/
def Holds (config : Config) (store : Store) : Prop :=
  ∀ (db : DataBaseId) (inside : db < config.dbVector.length),
    store.dataBase db = (config.dbVector[db]).dataBase

/-- The steps after the program has started. -/
def system (config : Config) : System Checking CheckStep where
  init s := Holds config s.store ∧ s.checks = []
  step s label t :=
    match label with
    | .check db isOk => db ∈ checkOrder config ∧
        t = ⟨checkDataBase s.store db isOk, (db, isOk) :: s.checks⟩
    | .others store => Leaves s.store store ∧ t = ⟨store, s.checks⟩

/-- Whether a database answered when it was tried last. -/
def Checking.answered (s : Checking) (db : DataBaseId) : Option Bool :=
  (s.checks.find? (·.1 = db)).map (·.2)

/-- `check_dataBaseActive`, with the answers of the databases in turn. -/
def checkDataBaseActive (config : Config) (s : Checking) (answers : List Bool) : Checking :=
  ((checkOrder config).zip answers).foldl
    (fun s check => ⟨checkDataBase s.store check.1 check.2, check :: s.checks⟩) s

variable {config : Config} {s : Checking}

/-- The loops of the thread are steps of the system. -/
theorem reachable_checkDataBaseActive (reached : Reachable (system config) s)
    (answers : List Bool) : Reachable (system config) (checkDataBaseActive config s answers) := by
  have steps : ∀ (checks : List (DataBaseId × Bool)) (s : Checking), Reachable (system config) s →
      (∀ check ∈ checks, check.1 ∈ checkOrder config) → Reachable (system config) (checks.foldl
        (fun s check => ⟨checkDataBase s.store check.1 check.2, check :: s.checks⟩) s) := by
    -- Each database that is tried is one step.
    intro checks
    induction checks with
    | nil => exact fun _ reached _ => reached
    | cons check checks ih =>
      intro s reached inside
      obtain ⟨first, later⟩ := List.forall_mem_cons.mp inside
      exact ih _ (reached.next (l := .check check.1 check.2) ⟨first, rfl⟩) later
  exact steps _ s reached fun check member => (List.of_mem_zip member).1

/-! ## What the connections get -/

/-- The databases are those of the configuration, and as active as their last answers. -/
structure Current (config : Config) (s : Checking) : Prop where
  active : ∀ db, db < config.dbVector.length →
    ((s.store.dataBase db).isActive = true ↔ s.answered db = some true)
  address : ∀ (db : DataBaseId) (inside : db < config.dbVector.length),
    (s.store.dataBase db).addr = (config.dbVector[db]).addr ∧
      (s.store.dataBase db).port = (config.dbVector[db]).port

/-- A check keeps what is known of the databases. -/
theorem current_check (current : Current config s) (db : DataBaseId) (isOk : Bool) :
    Current config ⟨checkDataBase s.store db isOk, (db, isOk) :: s.checks⟩ := by
  constructor
  · intro other inside
    by_cases same : other = db
    · -- The last answer is the one that has just come.
      subst same
      simp [checkDataBase, Store.updateDataBase, Checking.answered]
    · have before := current.active other inside
      simpa [checkDataBase, Store.updateDataBase, Checking.answered, same, Ne.symm same]
        using before
  · intro other inside
    have before := current.address other inside
    by_cases same : other = db
    · subst same
      simpa [checkDataBase, Store.updateDataBase] using before
    · simpa [checkDataBase, Store.updateDataBase, same] using before

/-- In every run the states of the databases are the last answers. -/
theorem current_of_reachable (reached : Reachable (system config) s) : Current config s := by
  refine reached.invariant ?_ ?_
  · intro s begun
    obtain ⟨holds, none⟩ := begun
    constructor
    · intro db inside
      simp [holds db inside, DataBaseConfig.dataBase, Checking.answered, none]
    · intro db inside
      rw [holds db inside]
      exact ⟨rfl, rfl⟩
  · intro s label t current last
    cases label with
    | check db isOk =>
      obtain ⟨_, rfl⟩ := last
      exact current_check current db isOk
    | others store =>
      -- The other threads leave what the checks have set.
      obtain ⟨leaves, rfl⟩ := last
      constructor
      · intro db inside
        rw [(leaves db).1]
        exact current.active db inside
      · intro db inside
        rw [(leaves db).2.1, (leaves db).2.2]
        exact current.address db inside

/-- A database that can be connected to at its address, and that answered when it was tried last. -/
structure Answers (config : Config) (s : Checking) (db : DataBaseId) : Prop where
  answered : s.answered db = some true
  configured : ∃ ready, config.dbVector[db]? = some ready ∧ DataBaseReady ready ∧
    (s.store.dataBase db).addr = ready.addr ∧ (s.store.dataBase db).port = ready.port

/-- What a connection that has no database yet gets from its group. -/
structure Served (config : Config) (s : Checking) (group : DataBaseGroupConfig)
    (result : Int × ConnDB) : Prop where
  accepted : result.1 = 0 → ∃ db ∈ group.dbMasterGroupVec,
    result.2.masterDataBase = some db ∧ Answers config s db
  slave : result.1 = 0 → ∀ db, result.2.slaveDataBase = some db →
    db ∈ group.dbSlaveGroupVec ∧ Answers config s db
  refused : result.1 ≠ 0 → ∀ db ∈ group.dbMasterGroupVec, s.answered db ≠ some true

/--
Whatever the file says, and however the databases answer while the program runs: a connection gets
databases of its group that answered when they were tried last, at addresses they can be connected
to, and it is refused only where no master of the group did.
-/
theorem served_by_answering {initial : Config} {args : List Arg} {found : Option (Option Ini)}
    {cpuNum : UInt32} {fuel : Nat} {group : DataBaseGroupConfig} {database : ConnDB}
    (unset : initial.dbVector = [] ∧ initial.dbGroupVector = [])
    (started : initial.handleArgs args found cpuNum fuel = some (true, config))
    (reached : Reachable (system config) s) (configured : group ∈ config.dbGroupVector)
    (asks : database.dataBaseGroup = some group.group)
    (fresh : database.masterDataBase = none ∧ database.slaveDataBase = none) :
    Served config s group (FreeImpl.getDatabaseFromGroup s.store database) := by
  have ready := ready_handleArgs unset started
  have grouped := ready.groups group configured
  have current := current_of_reachable reached
  -- All databases of the group are known, so that they are active exactly if they have answered.
  have known : ∀ db, db ∈ group.dbMasterGroupVec ∨ db ∈ group.dbSlaveGroupVec →
      db < config.dbVector.length := fun db member =>
    grouped.known db (grouped.whole ▸ List.mem_append.mpr member)
  have answers : ∀ db, db ∈ group.dbMasterGroupVec ∨ db ∈ group.dbSlaveGroupVec →
      (s.store.dataBase db).isActive = true → Answers config s db := by
    intro db member active
    have inside := known db member
    refine ⟨(current.active db inside).mp active, _, List.getElem?_eq_getElem inside, ?_,
      current.address db inside⟩
    exact ready.dataBases _ (List.getElem_mem inside)
  obtain ⟨noMaster, noSlave⟩ := fresh
  cases found : group.dbMasterGroupVec.find? fun db => (s.store.dataBase db).isActive with
  | none =>
    have refused : (FreeImpl.getDatabaseFromGroup s.store database).1 = -1 := by
      simp [FreeImpl.getDatabaseFromGroup, Worker.getDatabaseFromGroup, asks,
        DataBaseGroupConfig.group, found, noMaster]
    refine ⟨fun done => ?_, fun done => ?_, fun _ db member answered => ?_⟩
    · exact absurd (refused.symm.trans done) (by decide)
    · exact absurd (refused.symm.trans done) (by decide)
    · have active := (current.active db (known db (Or.inl member))).mpr answered
      exact List.find?_eq_none.mp found db member active
  | some master =>
    have chosen : FreeImpl.getDatabaseFromGroup s.store database = (0, { database with
        masterDataBase := some master
        slaveDataBase := group.dbSlaveGroupVec.find? fun db => (s.store.dataBase db).isActive
        currentDataBase := some master }) := by
      simp [FreeImpl.getDatabaseFromGroup, Worker.getDatabaseFromGroup, asks,
        DataBaseGroupConfig.group, found, noSlave]
    have active := @List.find?_some _ (fun db => (s.store.dataBase db).isActive) _ _ found
    have member := List.mem_of_find?_eq_some found
    rw [chosen]
    refine ⟨fun _ => ⟨master, member, rfl, answers master (Or.inl member) active⟩, ?_, fun no => ?_⟩
    · intro _ db slave
      have active := @List.find?_some _ (fun db => (s.store.dataBase db).isActive) _ _ slave
      have member := List.mem_of_find?_eq_some slave
      exact ⟨member, answers db (Or.inr member) active⟩
    · exact absurd rfl no

/-- A configuration that nothing has been set of. -/
def unsetConfig : Config where
  maxConnectNum := 0
  loggerLevel := .err
  tryConnServerTimes := 0
  oneproxyAddr := []
  oneproxyPort := []
  oneproxyPortSet := ∅
  dumpData := false
  logSql := false
  logClientSql := false
  keepAlive := false
  httpServerAddr := []
  httpServerPort := 0
  logFilePath := []
  pidFilePath := []
  vipIfName := []
  vipAddress := []
  threadNum := 0
  clientUserName := []
  clientPassword := []
  poolConnCheckActiveTime := 0
  poolConnTimeoutReleaseTime := 0
  connectTimeOut := 0
  acceptThreadNum := 0
  listenBackLog := 0
  useMonitor := false
  monitorPortClass := []
  monitorDeviceName := []
  monitorDumpData := false
  statsUserDB := false
  monitorThreadNum := 0
  monitorCaptureAddress := []
  monitorAutoGetDesIp := false
  dbVector := []
  dbGroupVector := []
  monitorPortClassMap := fun _ => none

/-- The program starts with the defaults. -/
theorem unsetConfig_starts :
    (unsetConfig.handleArgs [] none 4 40).map (fun result => (result.1,
      result.2.dbVector.length, result.2.dbGroupVector.map (·.dbMasterGroupVec))) =
        some (true, 1, [[0]]) := by
  decide +kernel

/-- The default database answers, and a connection gets it. -/
theorem served_by_answering_default : ∃ config group, ∃ s : Checking,
    unsetConfig.handleArgs [] none 4 40 = some (true, config) ∧ group ∈ config.dbGroupVector ∧
      s.answered 0 = some true ∧
      Served config s group
        (FreeImpl.getDatabaseFromGroup s.store ⟨some group.group, none, none, none⟩) := by
  obtain ⟨result, started, parts⟩ := Option.map_eq_some_iff.mp unsetConfig_starts
  obtain ⟨accepted, config⟩ := result
  simp only [Prod.mk.injEq] at parts
  obtain ⟨rfl, dataBases, groups⟩ := parts
  obtain ⟨group, rest, listed⟩ := List.exists_cons_of_ne_nil (l := config.dbGroupVector) (by
    rintro none
    simp [none] at groups)
  have member : group ∈ config.dbGroupVector := listed ▸ List.mem_cons_self
  have master : group.dbMasterGroupVec = [0] := by
    rw [listed, List.map_cons] at groups
    exact (List.cons.inj groups).1
  -- The databases as the configuration holds them.
  obtain ⟨store, holds⟩ : ∃ store, Holds config store := by
    refine ⟨⟨fun _ => .new [] 0, 0, [], fun db => ((config.dbVector[db]?).getD .new).dataBase⟩, ?_⟩
    intro db inside
    simp [List.getElem?_eq_getElem inside]
  have checked : 0 ∈ checkOrder config :=
    List.mem_flatMap.mpr ⟨group, member, List.mem_append_left _ (master ▸ List.mem_cons_self)⟩
  have start : Reachable (system config) ⟨store, []⟩ := Reachable.start ⟨holds, rfl⟩
  have reached : Reachable (system config) ⟨checkDataBase store 0 true, [(0, true)]⟩ :=
    start.next (l := .check 0 true) ⟨checked, rfl⟩
  exact ⟨config, group, _, started, member, rfl,
    served_by_answering ⟨rfl, rfl⟩ started reached member rfl ⟨rfl, rfl⟩⟩

end AssistThread

end OneProxy
