import OneProxy.Conf.Config

/-! What is left of a configuration that the program starts with, whatever the file says. -/

namespace OneProxy.Config

open Tool

/-! ## Configurations to start with -/

/-- A database that can be connected to, of which nothing has been counted yet. -/
structure DataBaseReady (db : DataBaseConfig) : Prop where
  labelled : db.labelName ≠ []
  addressed : db.addr ≠ [] ∧ db.port ≠ 0
  logsIn : db.userName ≠ [] ∧ db.password ≠ []

/-- A group of known databases with a master, whose features fit together. -/
structure GroupReady (useMonitor : Bool) (known : Nat) (group : DataBaseGroupConfig) : Prop where
  master : group.dbMasterGroupVec ≠ []
  whole : group.dbGroupVec = group.dbMasterGroupVec ++ group.dbSlaveGroupVec
  known : ∀ db ∈ group.dbGroupVec, db < known
  classNamed : group.className ≠ []
  separate : group.readSlave = true ∨ group.useConnectionPool = true → group.passwordSeparate = true
  monitored : useMonitor = true → group.passwordSeparate = false
  fake : asBytes "FakeProtocol" <+: group.className → group.passwordSeparate = false

/-- Numbers that the program can work with. -/
structure Bounded (cpuNum : UInt32) (config : Config) : Prop where
  threads : 0 < cpuNum.toInt32 → 0 < config.threadNum
  acceptors : 1 ≤ config.acceptThreadNum
  oneAcceptor : cpuNum ≤ 1 → config.acceptThreadNum = 1
  backLog : 128 ≤ config.listenBackLog
  tries : 1 ≤ config.tryConnServerTimes
  connections : 1 ≤ config.maxConnectNum
  checkTime : 1 ≤ config.poolConnCheckActiveTime
  releaseTime : 1 ≤ config.poolConnTimeoutReleaseTime
  connectTime : 1 ≤ config.connectTimeOut

/-- A configuration that the program can work with. -/
structure Ready (cpuNum : UInt32) (config : Config) : Prop extends Bounded cpuNum config where
  dataBases : ∀ db ∈ config.dbVector, DataBaseReady db
  someGroup : config.dbGroupVector ≠ []
  groups : ∀ group ∈ config.dbGroupVector,
    GroupReady config.useMonitor config.dbVector.length group

variable {config config' : Config} {cpuNum : UInt32} {fuel : Nat}

/-! ## What is loaded -/

/-- What the defaults and the sections leave: valid databases, and groups that are not filled. -/
structure Loaded (config : Config) : Prop where
  dataBases : ∀ db ∈ config.dbVector, DataBaseReady db
  groups : ∀ group ∈ config.dbGroupVector, group.className ≠ [] ∧
    group.dbMasterGroupVec = [] ∧ group.dbSlaveGroupVec = [] ∧ group.dbGroupVec = []

/-- No key of a table changes something. -/
def Untouched {σ τ : Type} (f : σ → τ) (cfg : List (ConfigKeyValue σ)) : Prop :=
  ∀ kv ∈ cfg, ∀ value obj, f (kv.set value obj) = f obj

section Tables

variable {σ τ : Type} {f : σ → τ} {cfg : List (ConfigKeyValue σ)}

/-- A line of a section leaves what no key of the section sets. -/
theorem untouched_load (untouched : Untouched f cfg) (obj : σ) (pair : Bytes × Bytes) :
    f (loadConfigKeyValue cfg obj pair) = f obj := by
  unfold loadConfigKeyValue
  split
  · rfl
  · next kv found => exact untouched kv (List.mem_of_find?_eq_some found) _ _

/-- So do all its lines. -/
theorem untouched_loads (untouched : Untouched f cfg) (pairs : List (Bytes × Bytes)) (obj : σ) :
    f (pairs.foldl (loadConfigKeyValue cfg) obj) = f obj := by
  induction pairs generalizing obj with
  | nil => rfl
  | cons pair pairs ih => rw [List.foldl_cons, ih, untouched_load untouched]

/-- And so do the defaults. -/
theorem untouched_defaults (untouched : Untouched f cfg) (obj : σ) :
    f (setDefaults cfg obj) = f obj := by
  unfold setDefaults
  induction cfg generalizing obj with
  | nil => rfl
  | cons kv cfg ih =>
    obtain ⟨first, later⟩ := List.forall_mem_cons.mp untouched
    rw [List.foldl_cons, ih later, first]

end Tables

/-- The keys of the program change neither the databases nor the groups. -/
theorem untouched_oneproxy :
    Untouched (fun c : Config => (c.dbVector, c.dbGroupVector)) oneproxyCfg := by
  simp only [Untouched, oneproxyCfg, List.forall_mem_cons, addConfig, cvtInt, cvtBool, cvtLogger,
    implies_true, true_and, and_true, List.not_mem_nil, false_implies]
  intro value obj
  split_ifs <;> rfl

/-- The keys of a group do not change its databases. -/
theorem untouched_group : Untouched (fun g : DataBaseGroupConfig =>
    (g.dbMasterGroupVec, g.dbSlaveGroupVec, g.dbGroupVec)) dbGroupCfg := by
  simp [Untouched, dbGroupCfg, addConfig, cvtInt, cvtBool]

/-- A valid database has all it needs but a label. -/
theorem ready_of_valid {db : DataBaseConfig} (valid : db.isValid = true)
    (label : db.labelName ≠ []) : DataBaseReady db := by
  simp only [DataBaseConfig.isValid, Bool.and_eq_true, decide_eq_true_eq, List.length_pos_iff]
    at valid
  obtain ⟨⟨⟨addr, port⟩, user⟩, password⟩ := valid
  exact ⟨label, ⟨addr, UInt32.pos_iff_ne_zero.mp port⟩, user, password⟩

/-- A database that is ready is added. -/
theorem loaded_setDatabase {db : DataBaseConfig} (loaded : Loaded config)
    (ready : DataBaseReady db) : Loaded (config.setDatabase db) where
  dataBases := List.forall_mem_append.mpr ⟨loaded.dataBases, List.forall_mem_singleton.mpr ready⟩
  groups := loaded.groups

/-- A group that is named and not yet filled is added. -/
theorem loaded_setDataBaseGroup {group : DataBaseGroupConfig} (loaded : Loaded config)
    (named : group.className ≠ [])
    (empty : group.dbMasterGroupVec = [] ∧ group.dbSlaveGroupVec = [] ∧ group.dbGroupVec = []) :
    Loaded (config.setDataBaseGroup group) where
  dataBases := loaded.dataBases
  groups := List.forall_mem_append.mpr
    ⟨loaded.groups, List.forall_mem_singleton.mpr ⟨named, empty⟩⟩

/-- Only the databases and the groups matter. -/
theorem loaded_of_same (loaded : Loaded config)
    (same : (config'.dbVector, config'.dbGroupVector) = (config.dbVector, config.dbGroupVector)) :
    Loaded config' := by
  obtain ⟨dataBases, groups⟩ := Prod.mk.inj same
  exact ⟨dataBases.symm ▸ loaded.dataBases, groups.symm ▸ loaded.groups⟩

/-- A section adds a valid database, a group that is still empty, or nothing. -/
theorem loaded_section (loaded : Loaded config) (sec : Bytes × List (Bytes × Bytes)) :
    Loaded (config.loadSection sec) := by
  unfold loadSection
  split_ifs with program database
  · have kept := untouched_loads untouched_oneproxy sec.2 config
    simp only [Prod.mk.injEq] at kept
    exact ⟨kept.1 ▸ loaded.dataBases, kept.2 ▸ loaded.groups⟩
  · -- The label is the one in the section, or else the name of the section.
    have named : sec.1 ≠ [] := by
      intro empty
      rw [empty] at database
      exact absurd database (by decide)
    simp only
    split_ifs with valid unlabelled
    · exact loaded_setDatabase loaded (ready_of_valid (by exact valid) named)
    · refine loaded_setDatabase loaded (ready_of_valid valid fun empty => ?_)
      exact unlabelled (by simp [empty])
    · exact loaded
  · have kept := untouched_loads untouched_group sec.2 .new
    simp only [Prod.mk.injEq] at kept
    simp only
    split_ifs with valid unlabelled
    all_goals try exact loaded
    all_goals
      simp only [DataBaseGroupConfig.isValid, Bool.and_eq_true, decide_eq_true_eq,
        List.length_pos_iff] at valid
      exact loaded_setDataBaseGroup loaded valid.2 kept

/-- What a file sets is ready. -/
theorem loaded_loadConfig (ini : Ini) (loaded : Loaded config) :
    Loaded (config.loadConfig ini) := by
  unfold loadConfig
  induction ini generalizing config with
  | nil => exact loaded
  | cons sec ini ih => exact ih (loaded_section loaded sec)

/-- The default database is ready. -/
theorem loaded_defaultDatabase (loaded : Loaded config) : Loaded config.defaultDatabase :=
  loaded_setDatabase loaded (ready_of_valid (by decide) (by decide))

/-- The default group is ready. -/
theorem loaded_defaultDatabaseGroup (loaded : Loaded config) : Loaded config.defaultDatabaseGroup :=
  loaded_setDataBaseGroup loaded (by decide) (by decide)

/-- The defaults are ready. -/
theorem loaded_addDefaults (loaded : Loaded config) : Loaded config.addDefaults := by
  simp only [addDefaults]
  split_ifs
  · exact loaded_defaultDatabaseGroup (loaded_defaultDatabase loaded)
  · exact loaded_defaultDatabase loaded
  · exact loaded_defaultDatabaseGroup loaded
  · exact loaded

/-- What an argument sets is ready. -/
theorem loaded_handleArg (arg : Arg) (loaded : Loaded config) : Loaded (config.handleArg arg) := by
  cases arg with
  | verbose => exact ⟨loaded.dataBases, loaded.groups⟩
  | quiet => exact ⟨loaded.dataBases, loaded.groups⟩
  | file ini =>
    cases ini with
    | none => exact loaded
    | some ini => exact loaded_loadConfig ini loaded

/-- The default settings change neither databases nor groups. -/
theorem loaded_defaultOneproxyConfig (loaded : Loaded config) :
    Loaded config.defaultOneproxyConfig :=
  loaded_of_same loaded (untouched_defaults untouched_oneproxy config)

/-! ## What is made of it -/

/-- The loop over the labels adds databases that there are. -/
theorem mem_groupLoop {δ : Type} {labelName : δ → Bytes} {dbVec dbGVec after : List δ}
    {names : Bytes} {pos : Nat}
    (done : DataBaseGroup.groupLoop labelName dbVec names fuel pos dbGVec = some after) :
    ∀ db ∈ after, db ∈ dbGVec ∨ db ∈ dbVec := by
  -- The induction is on the rounds, with what the first of them adds.
  induction fuel generalizing pos dbGVec with
  | zero => simp [DataBaseGroup.groupLoop] at done
  | succ fuel ih =>
    have added : ∀ {first : δ} {p : δ → Bool}, dbVec.find? p = some first →
        ∀ db ∈ dbGVec ++ [first], db ∈ dbGVec ∨ db ∈ dbVec := by
      intro first p found db member
      rcases List.mem_append.mp member with old | new
      · exact Or.inl old
      · rw [List.mem_singleton.mp new]
        exact Or.inr (List.mem_of_find?_eq_some found)
    rw [DataBaseGroup.groupLoop] at done
    intro db member
    split_ifs at done with last
    · obtain rfl := Option.some.inj done
      split at member
      · next first found => exact added found db member
      · exact Or.inl member
    · rcases ih done db member with old | known
      · split at old
        · next first found => exact added found db old
        · exact Or.inl old
      · exact Or.inr known

/-- A group gets databases that there are. -/
theorem mem_groupVec {names : Bytes} {vec after : List DataBaseId}
    (done : config.groupVec names vec fuel = some after) :
    ∀ db ∈ after, db ∈ vec ∨ db < config.dbVector.length := by
  intro db member
  rw [groupVec, DataBaseGroup.setDataBaseGroupVec] at done
  split_ifs at done with some_
  · exact (mem_groupLoop done db member).imp_right List.mem_range.mp
  · obtain rfl := Option.some.inj done
    exact Or.inl member

/-- What a list of results comes from. -/
theorem mem_mapM {α β : Type} {f : α → Option β} {items : List α} {results : List β}
    (done : items.mapM f = some results) : ∀ b ∈ results, ∃ a ∈ items, f a = some b := by
  -- The first item gives the first result.
  induction items generalizing results with
  | nil =>
    obtain rfl : [] = results := by simpa using done
    simp
  | cons a items ih =>
    rw [List.mapM_cons] at done
    obtain ⟨b, first, done⟩ := Option.bind_eq_some_iff.mp done
    obtain ⟨rest, later, done⟩ := Option.bind_eq_some_iff.mp done
    obtain rfl := Option.some.inj done
    refine List.forall_mem_cons.mpr ⟨⟨a, List.mem_cons_self, first⟩, fun b member => ?_⟩
    obtain ⟨a', member, made⟩ := ih later b member
    exact ⟨a', List.mem_cons_of_mem _ member, made⟩

/-- The groups that are left have a master, and databases that there are. -/
structure Filled (known : Nat) (group : DataBaseGroupConfig) : Prop where
  master : group.dbMasterGroupVec ≠ []
  whole : group.dbGroupVec = group.dbMasterGroupVec ++ group.dbSlaveGroupVec
  known : ∀ db ∈ group.dbGroupVec, db < known
  classNamed : group.className ≠ []

/-- Each group is filled with databases that there are. -/
theorem filled_handleDataBaseGroup (loaded : Loaded config)
    (done : config.handleDataBaseGroup fuel = some config') :
    config'.dbVector = config.dbVector ∧
      ∀ group ∈ config'.dbGroupVector, Filled config.dbVector.length group := by
  obtain ⟨groups, filled, rfl⟩ := Option.map_eq_some_iff.mp done
  refine ⟨rfl, fun group member => ?_⟩
  obtain ⟨there, master⟩ := List.mem_filter.mp member
  obtain ⟨before, inside, made⟩ := mem_mapM filled group there
  obtain ⟨masters, first, made⟩ := Option.bind_eq_some_iff.mp made
  obtain ⟨slaves, second, rfl⟩ := Option.map_eq_some_iff.mp made
  obtain ⟨named, noMaster, noSlave, none⟩ := loaded.groups before inside
  -- Before it was filled the group was empty.
  rw [noMaster] at first
  rw [noSlave] at second
  refine ⟨List.length_pos_iff.mp (of_decide_eq_true master), by simp [none], ?_, named⟩
  intro db member
  simp only [none, List.nil_append, List.mem_append] at member
  rcases member with master | slave
  · exact (mem_groupVec first db master).resolve_left List.not_mem_nil
  · exact (mem_groupVec second db slave).resolve_left List.not_mem_nil

/-- What is forbidden leaves the databases of a group, and features that fit together. -/
theorem ready_forbid {known : Nat} {group : DataBaseGroupConfig} (filled : Filled known group)
    (useMonitor : Bool) : GroupReady useMonitor known (forbid useMonitor group) := by
  obtain ⟨master, whole, within, named⟩ := filled
  have some_ : group.className.length > 0 := List.length_pos_iff.mpr named
  simp only [forbid]
  cases useMonitor <;> by_cases fake : asBytes "FakeProtocol" <+: group.className <;>
    cases separate : group.passwordSeparate <;>
    constructor <;> simp_all

/-- A number that is not positive becomes one. -/
theorem one_le_raised (x : Int32) : 1 ≤ if x ≤ 0 then 1 else x := by
  split_ifs with low
  · exact Int32.le_refl 1
  · rw [Int32.le_iff_toInt_le] at low ⊢
    have one : (1 : Int32).toInt = 1 := rfl
    have zero : (0 : Int32).toInt = 0 := rfl
    omega

/-- The numbers are within their bounds after the start-up checks. -/
theorem bounded_setBounds (config : Config) (cpuNum : UInt32) :
    Bounded cpuNum (config.setBounds cpuNum) where
  threads some_ := by
    simp only [setBounds]
    split_ifs with low
    · exact some_
    · -- There are as many threads as are asked for, or else as processors.
      have known : cpuNum > 0 := by
        refine UInt32.pos_iff_ne_zero.mpr fun none => ?_
        rw [none] at some_
        exact absurd some_ (by decide)
      exact Int32.not_le.mp fun negative => low ⟨negative, known⟩
  acceptors := by
    simp only [setBounds]
    split_ifs with low
    · exact Int32.le_refl 1
    · have raised := one_le_raised config.acceptThreadNum
      rwa [if_neg fun negative => low (Or.inl negative)] at raised
  oneAcceptor single := by
    simp only [setBounds]
    rw [if_pos (Or.inr single)]
  backLog := by
    simp only [setBounds]
    split_ifs with low
    · exact Int32.le_refl 128
    · exact Int32.le_of_lt (Int32.not_le.mp low)
  tries := one_le_raised _
  connections := by
    simp only [setBounds]
    split_ifs with none
    · exact UInt32.le_refl 1
    · exact UInt32.pos_iff_ne_zero.mpr fun zero => none (zero ▸ UInt32.le_refl 0)
  checkTime := one_le_raised _
  releaseTime := one_le_raised _
  connectTime := one_le_raised _

/-- What is accepted can be worked with. -/
theorem ready_handleConfig (loaded : Loaded config)
    (done : config.handleConfig cpuNum fuel = some (true, config')) : Ready cpuNum config' := by
  obtain ⟨ported, ports, done⟩ := Option.bind_eq_some_iff.mp done
  obtain ⟨grouped, groups, done⟩ := Option.bind_eq_some_iff.mp done
  -- The ports are all that the first step sets.
  have bounds : Bounded cpuNum ported ∧ Loaded ported := by
    have bounds := bounded_setBounds config cpuNum
    rw [handlePorts] at ports
    split_ifs at ports
    · obtain rfl := Option.some.inj ports
      exact ⟨bounds, loaded.dataBases, loaded.groups⟩
    · obtain ⟨_, _, rfl⟩ := Option.map_eq_some_iff.mp ports
      exact ⟨{ bounds with }, loaded.dataBases, loaded.groups⟩
  obtain ⟨bounds, loaded⟩ := bounds
  obtain ⟨same, filled⟩ := filled_handleDataBaseGroup loaded groups
  obtain ⟨_, _, rfl⟩ := Option.map_eq_some_iff.mp groups
  split_ifs at done with none
  · simp at done
  obtain ⟨_, _, done⟩ := Option.bind_eq_some_iff.mp done
  obtain rfl := (Prod.mk.inj (Option.some.inj done)).2
  refine { bounds with dataBases := loaded.dataBases, someGroup := ?_, groups := ?_ }
  · exact fun empty => none (List.length_eq_zero_iff.mpr (List.map_eq_nil_iff.mp empty)).le
  · intro group member
    obtain ⟨before, inside, rfl⟩ := List.mem_map.mp member
    exact ready_forbid (filled before inside) _

/--
Whatever the arguments and the file say, the program starts with a configuration that it can work
with, or not at all.
-/
theorem ready_handleArgs {args : List Arg} {found : Option (Option Ini)}
    (unset : config.dbVector = [] ∧ config.dbGroupVector = [])
    (done : config.handleArgs args found cpuNum fuel = some (true, config')) :
    Ready cpuNum config' := by
  have loaded : Loaded config := by
    constructor <;> simp [unset]
  have defaults := loaded_defaultOneproxyConfig loaded
  simp only [handleArgs] at done
  -- Either the arguments say it all, or a file does, or the defaults do.
  split_ifs at done
  · have given : ∀ (args : List Arg) (config : Config), Loaded config →
        Loaded (args.foldl handleArg config) := by
      intro args
      induction args with
      | nil => exact fun _ loaded => loaded
      | cons arg args ih => exact fun config loaded => ih _ (loaded_handleArg arg loaded)
    exact ready_handleConfig (loaded_addDefaults (given args _ defaults)) done
  · cases found with
    | none =>
      exact ready_handleConfig (loaded_defaultDatabaseGroup (loaded_defaultDatabase defaults)) done
    | some file =>
      cases file with
      | none => simp at done
      | some ini =>
        have loaded := loaded_addDefaults (loaded_loadConfig ini defaults)
        exact ready_handleConfig loaded done

end OneProxy.Config
