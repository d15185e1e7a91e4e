import OneProxy.Session.ClientThread

/-! The databases a connection gets from its group, and those it keeps from an earlier attempt. -/

namespace OneProxy.FreeImpl

/-- `get_databaseFromGroup`: the first active databases of the group, or those there were before. -/
def getDatabaseFromGroup (store : Store) (database : ConnDB) : Int × ConnDB :=
  match database.dataBaseGroup with
  | none => (-1, database)
  | some group =>
    let after := Worker.getDatabaseFromGroup store group database
    (if after.masterDataBase = none then -1 else 0, after)

/-- Some database of a list is active. -/
def SomeActive (store : Store) (dbs : List DataBaseId) : Prop :=
  ∃ db ∈ dbs, (store.dataBase db).isActive = true

/-- The master and the slave that a connection ends up with, of a group. -/
structure Chosen (store : Store) (group : DataBaseGroup) (database : ConnDB) : Prop where
  master : ∃ db ∈ group.dbMasterGroupVec, (store.dataBase db).isActive = true ∧
    database.masterDataBase = some db
  slave : ∀ db, database.slaveDataBase = some db →
    db ∈ group.dbSlaveGroupVec ∧ (store.dataBase db).isActive = true
  current : database.currentDataBase = database.masterDataBase

/-- A call succeeds for an active master of the group, and chooses active databases only. -/
structure ChoosesActive (store : Store) (database : ConnDB) : Prop where
  returns : (getDatabaseFromGroup store database).1 = 0 ↔
    ∃ group, database.dataBaseGroup = some group ∧ SomeActive store group.dbMasterGroupVec
  chosen : (getDatabaseFromGroup store database).1 = 0 → ∃ group,
    database.dataBaseGroup = some group ∧ Chosen store group (getDatabaseFromGroup store database).2

/-- No database is left over where the group has no active one to take its place. -/
def NoneLeft (store : Store) (database : ConnDB) : Prop :=
  ∀ group, database.dataBaseGroup = some group →
    (¬ SomeActive store group.dbMasterGroupVec → database.masterDataBase = none) ∧
      (SomeActive store group.dbMasterGroupVec → ¬ SomeActive store group.dbSlaveGroupVec →
        database.slaveDataBase = none)

/-- The first active database is one of the list, where there is any. -/
theorem find_active {store : Store} {dbs : List DataBaseId} (some_ : SomeActive store dbs) :
    ∃ db ∈ dbs, (store.dataBase db).isActive = true ∧
      dbs.find? (fun db => (store.dataBase db).isActive) = some db := by
  obtain ⟨db, member, active⟩ := some_
  cases found : dbs.find? (fun db => (store.dataBase db).isActive) with
  | none => exact absurd active (List.find?_eq_none.mp found db member)
  | some first =>
    have active := @List.find?_some _ (fun db => (store.dataBase db).isActive) _ _ found
    exact ⟨first, List.mem_of_find?_eq_some found, active, rfl⟩

/-- Without an active database nothing is found. -/
theorem find_inactive {store : Store} {dbs : List DataBaseId} (none_ : ¬ SomeActive store dbs) :
    dbs.find? (fun db => (store.dataBase db).isActive) = none :=
  List.find?_eq_none.mpr fun db member active => none_ ⟨db, member, active⟩

/-- A call chooses active databases exactly if no database is left over from an earlier attempt. -/
theorem getDatabaseFromGroup_active_iff (store : Store) (database : ConnDB) :
    ChoosesActive store database ↔ NoneLeft store database := by
  cases group' : database.dataBaseGroup with
  | none =>
    have fails : (getDatabaseFromGroup store database).1 = -1 := by
      rw [getDatabaseFromGroup, group']
    refine iff_of_true ⟨?_, fun done => ?_⟩ fun group same => ?_
    · rw [fails, group']
      simp
    · rw [fails] at done
      exact absurd done (by decide)
    · rw [group'] at same
      cases same
  | some group =>
    by_cases master : SomeActive store group.dbMasterGroupVec
    · -- The call succeeds, and the slave is all there is to see to.
      obtain ⟨db, member, active, found⟩ := find_active master
      have done : getDatabaseFromGroup store database = (0, { database with
          masterDataBase := some db
          slaveDataBase := (group.dbSlaveGroupVec.find? fun db => (store.dataBase db).isActive).or
            database.slaveDataBase
          currentDataBase := some db }) := by
        simp [getDatabaseFromGroup, group', Worker.getDatabaseFromGroup, found]
      have returns : (getDatabaseFromGroup store database).1 = 0 ↔
          ∃ group, database.dataBaseGroup = some group ∧ SomeActive store group.dbMasterGroupVec :=
        iff_of_true (by rw [done]) ⟨group, group', master⟩
      by_cases slave : SomeActive store group.dbSlaveGroupVec
      · obtain ⟨other, member', active', found'⟩ := find_active slave
        refine iff_of_true ⟨returns, fun _ => ⟨group, group', ⟨db, member, active, ?_⟩, ?_, ?_⟩⟩ ?_
        · rw [done]
        · intro chosen same
          rw [done, found', Option.some_or, Option.some.injEq] at same
          exact same ▸ ⟨member', active'⟩
        · rw [done]
        · intro other' same
          obtain rfl := Option.some.inj (group'.symm.trans same)
          exact ⟨fun inactive => absurd master inactive, fun _ inactive => absurd slave inactive⟩
      · have kept : (getDatabaseFromGroup store database).2.slaveDataBase =
            database.slaveDataBase := by
          rw [done, find_inactive slave, Option.none_or]
        constructor
        · intro chooses other same
          obtain rfl := Option.some.inj (group'.symm.trans same)
          refine ⟨fun inactive => absurd master inactive, fun _ _ => ?_⟩
          obtain ⟨own, same', chosen⟩ := chooses.chosen (by rw [done])
          obtain rfl := Option.some.inj (group'.symm.trans same')
          by_contra left
          obtain ⟨stale, there⟩ := Option.ne_none_iff_exists'.mp left
          exact slave ⟨stale, chosen.slave stale (kept.trans there)⟩
        · intro noneLeft
          refine ⟨returns,
            fun _ => ⟨group, group', ⟨db, member, active, by rw [done]⟩, ?_, by rw [done]⟩⟩
          intro stale there
          rw [kept, (noneLeft group group').2 master slave] at there
          cases there
    · -- The call succeeds exactly if there is a master already.
      have inactive := find_inactive master
      have noGroup : ¬ ∃ own, database.dataBaseGroup = some own ∧
          SomeActive store own.dbMasterGroupVec := by
        intro there
        obtain ⟨own, same, active⟩ := there
        obtain rfl := Option.some.inj (group'.symm.trans same)
        exact master active
      constructor
      · intro chooses other same
        obtain rfl := Option.some.inj (group'.symm.trans same)
        refine ⟨fun _ => ?_, fun active => absurd active master⟩
        by_contra left
        refine noGroup (chooses.returns.mp ?_)
        simp [getDatabaseFromGroup, group', Worker.getDatabaseFromGroup, inactive, left]
      · intro noneLeft
        have left := (noneLeft group group').1 master
        have fails : (getDatabaseFromGroup store database).1 = -1 := by
          simp [getDatabaseFromGroup, group', Worker.getDatabaseFromGroup, inactive, left]
        refine ⟨iff_of_false (by rw [fails]; decide) noGroup, fun done => ?_⟩
        rw [fails] at done
        exact absurd done (by decide)

/-- Databases that are all active, or all not. -/
def allActive (isActive : Bool) : Store :=
  ⟨fun _ => .new [] 0, 0, [], fun _ => ⟨[], 3306, 0, 0, 0, isActive⟩⟩

/-- A connection whose group has one master. -/
def oneMaster : ConnDB where
  dataBaseGroup := some ⟨false, false, [0], [], false, false⟩
  masterDataBase := none
  slaveDataBase := none
  currentDataBase := none

/-- A master that has been chosen once is chosen again when it is down. -/
theorem downMaster_chosen :
    ¬ ∀ store database, ChoosesActive store database := by
  intro always
  have chooses := always (allActive false) (getDatabaseFromGroup (allActive true) oneMaster).2
  have succeeds : (getDatabaseFromGroup (allActive false)
      (getDatabaseFromGroup (allActive true) oneMaster).2).1 = 0 := by decide
  obtain ⟨_, _, db, _, active⟩ := chooses.returns.mp succeeds
  exact absurd active (by simp [allActive])

end OneProxy.FreeImpl
