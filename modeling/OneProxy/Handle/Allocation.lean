import OneProxy.Handle.HandleManagerLaws

/-! When `add_handle` finds the ids it needs, up to the last one that is free. -/

namespace OneProxy.HandleManager

variable {m : HandleManager}

/-! ## The loop -/

/-- How the loop of `get_globalHandleId` ends: where it began, or with a handle not in use. -/
inductive Search (flags : Finset UInt32) (old : UInt32) : UInt32 → Option UInt32 → Prop
  | back {last : UInt32} (here : nextHandle last = old) : Search flags old last none
  | found {last : UInt32} (ahead : nextHandle last ≠ old) (free : nextHandle last ∉ flags) :
      Search flags old last (some (nextHandle last))
  | turn {last : UInt32} {result : Option UInt32} (ahead : nextHandle last ≠ old)
      (taken : nextHandle last ∈ flags) (rest : Search flags old (nextHandle last) result) :
      Search flags old last result

/-- `get_globalHandleId` comes to an end. -/
def Terminates (m : HandleManager) : Prop :=
  ∃ result, Search m.globalHandleUseFlag m.lastAllocHandle m.lastAllocHandle result

/-- An id that can still be given out. -/
def Free (m : HandleManager) (id : UInt32) : Prop := id ≠ 0 ∧ id ∉ m.globalHandleUseFlag

/-- The loop ends where there is a handle ahead at which it does. -/
theorem exists_search {flags : Finset UInt32} {old target : UInt32} (used : target ≠ 0)
    (ends : target = old ∨ target ∉ flags) (last : UInt32) :
    ∃ result, Search flags old last result := by
  -- The induction is on the turns up to that handle.
  generalize turns' : turnsLeft target last = turns
  induction turns generalizing last with
  | zero =>
    have below : last.toNat < 4294967296 := last.toNat_lt
    have positive : 0 < target.toNat := Nat.pos_of_ne_zero fun zero =>
      used (UInt32.toNat_inj.mp zero)
    unfold turnsLeft handleCount at turns'
    split at turns' <;> omega
  | succ turns ih =>
    by_cases back : nextHandle last = old
    · exact ⟨none, .back back⟩
    · by_cases taken : nextHandle last ∈ flags
      · have differs : nextHandle last ≠ target := by
          intro same
          rcases ends with origin | free
          · exact back (same.trans origin)
          · exact free (same ▸ taken)
        have fewer := turnsLeft_nextHandle used differs
        obtain ⟨result, rest⟩ := ih (nextHandle last) (by omega)
        exact ⟨result, .turn back taken rest⟩
      · exact ⟨some (nextHandle last), .found back taken⟩

/-- The loop does not end that began at zero, where all handles are in use. -/
theorem not_search_of_full {flags : Finset UInt32} (full : ∀ id ≠ 0, id ∈ flags) {last : UInt32}
    {result : Option UInt32} : ¬ Search flags 0 last result := by
  intro ends
  induction ends with
  | back here => exact nextHandle_ne_zero _ here
  | found _ free => exact free (full _ (nextHandle_ne_zero _))
  | turn _ _ _ ih => exact ih

/-- `get_globalHandleId` ends unless it begins at zero and all handles are in use. -/
theorem terminates_iff : m.Terminates ↔ m.lastAllocHandle ≠ 0 ∨ ∃ id, m.Free id := by
  constructor
  · intro ends
    obtain ⟨result, ends⟩ := ends
    by_contra neither
    obtain ⟨zero, none_⟩ := not_or.mp neither
    rw [not_not.mp zero] at ends
    refine not_search_of_full (fun id used => ?_) ends
    by_contra free
    exact none_ ⟨id, used, free⟩
  · intro either
    rcases either with used | there
    · exact exists_search used (.inl rfl) _
    · obtain ⟨id, used, free⟩ := there
      exact exists_search used (.inr free) _

/-- What the bounded search finds is what the loop finds. -/
theorem search_sound {flags : Finset UInt32} {old : UInt32} {turns : Nat} {last handle : UInt32}
    (found : search flags old turns last = some handle) : Search flags old last (some handle) := by
  induction turns generalizing last with
  | zero => cases found
  | succ turns ih =>
    unfold search at found
    split at found
    · cases found
    · next ahead =>
      split at found
      · next taken => exact .turn ahead taken (ih found)
      · next free =>
        cases found
        exact .found ahead free

/-- The loop never gives out the handle it began at. -/
theorem Search.ne_old {flags : Finset UInt32} {old last handle : UInt32}
    (ends : Search flags old last (some handle)) : handle ≠ old := by
  generalize result' : some handle = result at ends
  induction ends with
  | back => cases result'
  | found ahead _ =>
    cases result'
    exact ahead
  | turn _ _ _ ih => exact ih result'

/-- Where nothing is found, all handles between are in use. -/
theorem mem_of_search_none {flags : Finset UInt32} {old id : UInt32} (used : id ≠ 0) {turns : Nat}
    {last : UInt32} (none_ : search flags old turns last = none)
    (enough : turnsLeft id last ≤ turns)
    (between : old ≠ 0 → turnsLeft id last < turnsLeft old last) : id ∈ flags := by
  have positive : 0 < id.toNat := Nat.pos_of_ne_zero fun zero => used (UInt32.toNat_inj.mp zero)
  induction turns generalizing last with
  | zero =>
    have below : last.toNat < 4294967296 := last.toNat_lt
    unfold turnsLeft handleCount at enough
    split at enough <;> omega
  | succ turns ih =>
    unfold search at none_
    split at none_
    · next back =>
      -- The search is back, so that nothing lies between.
      exfalso
      have oldUsed : old ≠ 0 := back ▸ nextHandle_ne_zero last
      have below : last.toNat < 4294967296 := last.toNat_lt
      have next := @nextHandle_toNat last
      have less := between oldUsed
      rw [back] at next
      unfold turnsLeft handleCount at *
      split at next <;> split at less <;> split at less <;> omega
    · next ahead =>
      split at none_
      · next taken =>
        by_cases here : nextHandle last = id
        · exact here ▸ taken
        · have fewer := turnsLeft_nextHandle used here
          refine ih none_ (by omega) fun oldUsed => ?_
          have fewer' := turnsLeft_nextHandle oldUsed ahead
          have less := between oldUsed
          omega
      · cases none_

/-- Nothing is found exactly where no handle is free but for the last one that was given out. -/
theorem getGlobalHandleId_none_iff :
    m.getGlobalHandleId = none ↔ ∀ id, m.Free id → id = m.lastAllocHandle := by
  rw [getGlobalHandleId, Option.map_eq_none_iff]
  constructor
  · intro none_ id free
    by_contra differs
    refine free.2 (mem_of_search_none free.1 none_ ?_ fun oldUsed => ?_)
    · have below : id.toNat < 4294967296 := id.toNat_lt
      unfold turnsLeft handleCount
      split <;> omega
    · have differs' : id.toNat ≠ m.lastAllocHandle.toNat := fun same =>
        differs (UInt32.toNat_inj.mp same)
      have positive : 0 < m.lastAllocHandle.toNat :=
        Nat.pos_of_ne_zero fun zero => oldUsed (UInt32.toNat_inj.mp zero)
      have below : id.toNat < 4294967296 := id.toNat_lt
      unfold turnsLeft handleCount
      split <;> split <;> omega
  · intro only
    by_contra some_
    obtain ⟨handle, found⟩ := Option.ne_none_iff_exists'.mp some_
    obtain ⟨free, used⟩ := search_spec found
    exact (search_sound found).ne_old (only handle ⟨used, free⟩)

/-! ## The ids of one call -/

/-- So many ids are free, and all different. -/
def Suffice (m : HandleManager) (count : Nat) : Prop :=
  ∃ ids : Finset UInt32, ids.card = count ∧ ∀ id ∈ ids, m.Free id

/-- The number of ids that a backend handle needs. -/
def needed (backendHandle : BackendHandle) : Nat := backendHandle.handle.ids.length

/-- The ids of a front handle are new, and not the same. -/
structure GivesNew (m : HandleManager) (backendHandle : BackendHandle) (front : FrontHandle) :
    Prop where
  cursor : backendHandle.handle.cursorHandle ≠ 0 → m.Free front.cursorHandle
  prepared : backendHandle.handle.preparedHandle ≠ 0 → m.Free front.preparedHandle
  distinct : backendHandle.handle.cursorHandle ≠ 0 → backendHandle.handle.preparedHandle ≠ 0 →
    front.cursorHandle ≠ front.preparedHandle

/--
The search for ids ends, and `add_handle` gives new ones, or fails where too few are free.

Where it fails, nothing is filed and nothing is marked.
-/
structure AddsExactly (m : HandleManager) (backendHandle : BackendHandle)
    (frontHandle : FrontHandle) : Prop where
  terminates : m.Terminates
  given : ∀ front after, m.addBackendHandle backendHandle frontHandle true = (0, front, after) →
    GivesNew m backendHandle front
  refused : ∀ ret front after, m.addBackendHandle backendHandle frontHandle true =
    (ret, front, after) →
    ret ≠ 0 → ret = -1 ∧ ¬ m.Suffice (needed backendHandle) ∧
      after.frontBackendHandleMap = m.frontBackendHandleMap ∧
        after.globalHandleUseFlag = m.globalHandleUseFlag

/-- The only id that is free. -/
def OnlyFree (m : HandleManager) (id : UInt32) : Prop :=
  m.Free id ∧ ∀ other, m.Free other → other = id

/--
The state is none that the search does badly with.

One free id is not found by a call for one where it was the last one given out, and is lost to a
call for two where it was not.
-/
structure Served (m : HandleManager) (backendHandle : BackendHandle) : Prop where
  starts : m.lastAllocHandle ≠ 0 ∨ ∃ id, m.Free id
  one : needed backendHandle = 1 → ¬ m.OnlyFree m.lastAllocHandle
  two : needed backendHandle = 2 → ∀ id, m.OnlyFree id → id = m.lastAllocHandle

/-- An id that is given out was free, and is the last one from then on. -/
theorem getGlobalHandleId_some {id : UInt32} {after : HandleManager}
    (found : m.getGlobalHandleId = some (id, after)) :
    m.Free id ∧ id ≠ m.lastAllocHandle ∧ after = { m with
      globalHandleUseFlag := insert id m.globalHandleUseFlag
      lastAllocHandle := id } := by
  obtain ⟨handle, searched, same⟩ := Option.map_eq_some_iff.mp found
  cases same
  obtain ⟨free, used⟩ := search_spec searched
  exact ⟨⟨used, free⟩, (search_sound searched).ne_old, rfl⟩

/-- One id is there exactly where one is free. -/
theorem suffice_one_iff : m.Suffice 1 ↔ ∃ id, m.Free id := by
  constructor
  · intro enough
    obtain ⟨ids, one, free⟩ := enough
    obtain ⟨id, rfl⟩ := Finset.card_eq_one.mp one
    exact ⟨id, free id (Finset.mem_singleton_self id)⟩
  · intro there
    obtain ⟨id, free⟩ := there
    refine ⟨{id}, Finset.card_singleton id, fun other member => ?_⟩
    rw [Finset.mem_singleton.mp member]
    exact free

/-- Two ids are not there where all that are free are the same. -/
theorem not_suffice_two {last : UInt32} (only : ∀ id, m.Free id → id = last) : ¬ m.Suffice 2 := by
  intro enough
  obtain ⟨ids, two, free⟩ := enough
  obtain ⟨a, b, differ, rfl⟩ := Finset.card_eq_two.mp two
  have first := only a (free a (by simp))
  have second := only b (free b (by simp))
  exact differ (first.trans second.symm)

section

variable {backendHandle : BackendHandle} {frontHandle : FrontHandle}

/-- A call that needs no id cannot fail. -/
theorem addsExactly_none (cursor : backendHandle.handle.cursorHandle = 0)
    (prepared : backendHandle.handle.preparedHandle = 0) :
    AddsExactly m backendHandle frontHandle ↔ Served m backendHandle := by
  have count : needed backendHandle = 0 := by simp [needed, HandleData.ids, cursor, prepared]
  have files : m.addBackendHandle backendHandle frontHandle true =
      (0, frontHandle, m.save backendHandle frontHandle) := by
    simp [addBackendHandle, giveHandle, cursor, prepared]
  constructor
  · intro exact_
    refine ⟨terminates_iff.mp exact_.terminates, fun one => ?_, fun two => ?_⟩ <;> omega
  · intro served
    refine ⟨terminates_iff.mpr served.starts, fun front after _ => ?_,
      fun ret front after done failed => ?_⟩
    · exact ⟨fun has => absurd cursor has, fun has => absurd prepared has,
        fun has => absurd cursor has⟩
    · rw [files] at done
      cases done
      exact absurd rfl failed

/--
A call that needs one id fails too early exactly where the last one given out is the only free one.
-/
theorem addsExactly_one (file : UInt32 → FrontHandle) (count : needed backendHandle = 1)
    (fails : m.getGlobalHandleId = none →
      m.addBackendHandle backendHandle frontHandle true = (-1, frontHandle, m))
    (gives : ∀ id after, m.getGlobalHandleId = some (id, after) →
      m.addBackendHandle backendHandle frontHandle true =
        (0, file id, after.save backendHandle (file id)))
    (new : ∀ id, m.Free id → GivesNew m backendHandle (file id)) :
    AddsExactly m backendHandle frontHandle ↔ Served m backendHandle := by
  constructor
  · intro exact_
    refine ⟨terminates_iff.mp exact_.terminates, fun _ only => ?_, fun two => by omega⟩
    have none_ := getGlobalHandleId_none_iff.mpr only.2
    have refused := exact_.refused _ _ _ (fails none_) (by decide)
    exact refused.2.1 (count ▸ suffice_one_iff.mpr ⟨_, only.1⟩)
  · intro served
    refine ⟨terminates_iff.mpr served.starts, fun front after done => ?_,
      fun ret front after done failed => ?_⟩
    · cases found : m.getGlobalHandleId with
      | none => cases (fails found).symm.trans done
      | some gave =>
        cases (gives _ _ found).symm.trans done
        exact new _ (getGlobalHandleId_some found).1
    · cases found : m.getGlobalHandleId with
      | none =>
        cases (fails found).symm.trans done
        refine ⟨rfl, fun enough => ?_, rfl, rfl⟩
        -- A free id could only be the last one that was given out.
        obtain ⟨id, free⟩ := suffice_one_iff.mp (count ▸ enough)
        have only := getGlobalHandleId_none_iff.mp found
        exact served.one count ⟨only id free ▸ free, only⟩
      | some gave =>
        cases (gives _ _ found).symm.trans done
        exact absurd rfl failed

/-- A call that needs two ids loses one exactly where it finds the only free one. -/
theorem addsExactly_two (cursor : backendHandle.handle.cursorHandle ≠ 0)
    (prepared : backendHandle.handle.preparedHandle ≠ 0) :
    AddsExactly m backendHandle frontHandle ↔ Served m backendHandle := by
  have count : needed backendHandle = 2 := by simp [needed, HandleData.ids, cursor, prepared]
  -- What the second search finds, once the first has found an id.
  have second : ∀ id after, m.getGlobalHandleId = some (id, after) →
      (after.getGlobalHandleId = none ↔ m.OnlyFree id) := by
    intro id after found
    obtain ⟨free, _, rfl⟩ := getGlobalHandleId_some found
    rw [getGlobalHandleId_none_iff]
    constructor
    · intro only
      refine ⟨free, fun other free' => ?_⟩
      by_contra differs
      exact differs (only other ⟨free'.1, fun marked =>
        (Finset.mem_insert.mp marked).elim differs free'.2⟩)
    · intro only other free'
      exact only.2 other ⟨free'.1, fun marked => free'.2 (Finset.mem_insert_of_mem marked)⟩
  constructor
  · intro exact_
    refine ⟨terminates_iff.mp exact_.terminates, fun one => by omega, fun _ id only => ?_⟩
    by_contra differs
    cases found : m.getGlobalHandleId with
    | none => exact differs (getGlobalHandleId_none_iff.mp found id only.1)
    | some gave =>
      obtain ⟨first, after⟩ := gave
      obtain ⟨free, _, same⟩ := getGlobalHandleId_some found
      obtain rfl := only.2 first free
      have fails : m.addBackendHandle backendHandle frontHandle true =
          (-1, { frontHandle with cursorHandle := first }, after) := by
        simp [addBackendHandle, giveHandle, cursor, prepared, found, (second _ _ found).mpr only]
      have kept := (exact_.refused _ _ _ fails (by decide)).2.2.2
      rw [same] at kept
      exact free.2 (kept ▸ Finset.mem_insert_self first _)
  · intro served
    refine ⟨terminates_iff.mpr served.starts, fun front after done => ?_,
      fun ret front after done failed => ?_⟩
    · cases found : m.getGlobalHandleId with
      | none => simp [addBackendHandle, giveHandle, cursor, found] at done
      | some gave =>
        obtain ⟨first, middle⟩ := gave
        obtain ⟨free, _, same⟩ := getGlobalHandleId_some found
        cases found' : middle.getGlobalHandleId with
        | none => simp [addBackendHandle, giveHandle, cursor, prepared, found, found'] at done
        | some gave' =>
          obtain ⟨last, final⟩ := gave'
          obtain ⟨free', _, _⟩ := getGlobalHandleId_some found'
          have unmarked : last ∉ insert first m.globalHandleUseFlag := by
            rw [same] at free'
            exact free'.2
          simp [addBackendHandle, giveHandle, cursor, prepared, found, found'] at done
          obtain ⟨rfl, _⟩ := done
          refine ⟨fun _ => free, fun _ => ⟨free'.1, fun marked => ?_⟩, fun _ _ equal => ?_⟩
          · exact unmarked (Finset.mem_insert_of_mem marked)
          · exact unmarked (Finset.mem_insert.mpr (.inl equal.symm))
    · cases found : m.getGlobalHandleId with
      | none =>
        simp [addBackendHandle, giveHandle, cursor, found] at done
        obtain ⟨rfl, _, rfl⟩ := done
        exact ⟨rfl, count ▸ not_suffice_two (getGlobalHandleId_none_iff.mp found), rfl, rfl⟩
      | some gave =>
        obtain ⟨first, middle⟩ := gave
        cases found' : middle.getGlobalHandleId with
        | none =>
          -- Then the first id was the only free one, and the last one given out before.
          exfalso
          have only := (second _ _ found).mp found'
          exact (getGlobalHandleId_some found).2.1 (served.two count first only)
        | some gave' =>
          simp [addBackendHandle, giveHandle, cursor, prepared, found, found'] at done
          exact absurd done.1.symm failed

/-- `add_handle` with global ids does what it should exactly in the states that serve the call. -/
theorem addBackendHandle_exact_iff (m : HandleManager) (backendHandle : BackendHandle)
    (frontHandle : FrontHandle) :
    AddsExactly m backendHandle frontHandle ↔ Served m backendHandle := by
  by_cases cursor : backendHandle.handle.cursorHandle = 0
  · by_cases prepared : backendHandle.handle.preparedHandle = 0
    · exact addsExactly_none cursor prepared
    · refine addsExactly_one (fun id => { frontHandle with preparedHandle := id })
        (by simp [needed, HandleData.ids, cursor, prepared]) (fun none_ => ?_)
        (fun id after found => ?_) fun id free => ?_
      · simp [addBackendHandle, giveHandle, cursor, prepared, none_]
      · simp [addBackendHandle, giveHandle, cursor, prepared, found]
      · exact ⟨fun has => absurd cursor has, fun _ => free, fun has => absurd cursor has⟩
  · by_cases prepared : backendHandle.handle.preparedHandle = 0
    · refine addsExactly_one (fun id => { frontHandle with cursorHandle := id })
        (by simp [needed, HandleData.ids, cursor, prepared]) (fun none_ => ?_)
        (fun id after found => ?_) fun id free => ?_
      · simp [addBackendHandle, giveHandle, cursor, none_]
      · simp [addBackendHandle, giveHandle, cursor, prepared, found]
      · exact ⟨fun _ => free, fun has => absurd prepared has, fun _ has => absurd prepared has⟩
    · exact addsExactly_two cursor prepared

end

/-- A call for one id fails where the last one given out is the only free one. -/
theorem not_addsExactly_of_onlyFree {backendHandle : BackendHandle}
    (cursor : backendHandle.handle.cursorHandle ≠ 0)
    (prepared : backendHandle.handle.preparedHandle = 0) (only : m.OnlyFree m.lastAllocHandle) :
    ¬ AddsExactly m backendHandle .zero := by
  intro exact_
  have none_ : m.getGlobalHandleId = none := getGlobalHandleId_none_iff.mpr only.2
  have fails : m.addBackendHandle backendHandle .zero true = (-1, .zero, m) := by
    simp [addBackendHandle, giveHandle, cursor, none_]
  have few := (exact_.refused _ _ _ fails (by decide)).2.1
  refine few ?_
  have one : needed backendHandle = 1 := by simp [needed, HandleData.ids, cursor, prepared]
  rw [one]
  exact suffice_one_iff.mpr ⟨_, only.1⟩

/-- All ids but 0 and 1. -/
noncomputable def fromTwo : Finset UInt32 :=
  ((Finset.range handleCount).image fun n => UInt32.ofNat (n + 1)).erase 1

theorem mem_fromTwo {id : UInt32} (used : id ≠ 0) : id ∈ fromTwo ↔ id ≠ 1 := by
  rw [fromTwo, Finset.mem_erase, Finset.mem_image]
  refine and_iff_left ⟨id.toNat - 1, Finset.mem_range.mpr ?_, ?_⟩
  · have below : id.toNat < 4294967296 := id.toNat_lt
    unfold handleCount
    omega
  · have positive : 0 < id.toNat := Nat.pos_of_ne_zero fun zero => used (UInt32.toNat_inj.mp zero)
    have back : id.toNat - 1 + 1 = id.toNat := by omega
    rw [back, UInt32.ofNat_toNat]

/-- The last id that was given out is the only free one, and is not found. -/
theorem fromTwo_refused : ¬ AddsExactly ⟨∅, fromTwo, 1⟩ ⟨⟨0, 7⟩, 0, none, []⟩ .zero := by
  refine not_addsExactly_of_onlyFree (by decide) rfl
    ⟨⟨by decide, fun marked => ?_⟩, fun id free => ?_⟩
  · exact (mem_fromTwo (by decide)).mp marked rfl
  · by_contra differs
    exact free.2 ((mem_fromTwo free.1).mpr differs)

end OneProxy.HandleManager
