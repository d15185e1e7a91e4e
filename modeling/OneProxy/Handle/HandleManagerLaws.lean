import OneProxy.Handle.HandleManager

/-! The order of handle data, the ids that are given out, and what adding and removing does. -/

namespace OneProxy

namespace HandleData

/-- Handle data is ordered by the cursor's handle, and then by the prepared statement's. -/
theorem less_iff (a b : HandleData) : less a b = true ↔
    a.cursorHandle < b.cursorHandle ∨
      (a.cursorHandle = b.cursorHandle ∧ a.preparedHandle < b.preparedHandle) := by
  -- The first branch of the source needs equal cursors to say more than the second one.
  simp only [less, UInt32.lt_iff_toNat_lt, UInt32.le_iff_toNat_le, ← UInt32.toNat_inj]
  split
  · simp only [true_iff]
    omega
  · split
    · simp only [true_iff]
      omega
    · simp only [Bool.false_eq_true, false_iff]
      omega

/-- The order tells all handle data apart. -/
theorem less_strictTotal : Comparator.StrictTotal less where
  irrefl a := by
    rw [← Bool.not_eq_true, less_iff]
    simp
  trans a b c first second := by
    simp only [less_iff, UInt32.lt_iff_toNat_lt, ← UInt32.toNat_inj] at *
    omega
  total a b first second := by
    rw [← Bool.not_eq_true, less_iff] at first second
    simp only [UInt32.lt_iff_toNat_lt, ← UInt32.toNat_inj] at first second
    have cursor : a.cursorHandle = b.cursorHandle := UInt32.toNat_inj.mp (by omega)
    have prepared : a.preparedHandle = b.preparedHandle := UInt32.toNat_inj.mp (by omega)
    cases a
    cases b
    simp_all

instance : Std.TransCmp (Comparator.ofLess less) := less_strictTotal.transCmp

instance : Std.LawfulEqCmp (Comparator.ofLess less) := less_strictTotal.lawfulEqCmp

/-- The ids of handle data are its components other than zero. -/
theorem mem_ids {handle : HandleData} {id : UInt32} :
    id ∈ handle.ids ↔ (id = handle.preparedHandle ∨ id = handle.cursorHandle) ∧ id ≠ 0 := by
  simp [ids]

end HandleData

namespace HandleManager

variable {m : HandleManager}

/-- No handle is zero. -/
theorem nextHandle_ne_zero (last : UInt32) : nextHandle last ≠ 0 := by
  unfold nextHandle
  split
  · decide
  · next above =>
    intro zero
    exact above (by rw [zero]; exact UInt32.le_refl 0)

/-- What the search finds is a handle that is not in use. -/
theorem search_spec {flags : Finset UInt32} {old : UInt32} {turns : Nat} {last handle : UInt32}
    (found : search flags old turns last = some handle) : handle ∉ flags ∧ handle ≠ 0 := by
  -- The induction is on the turns; the last one is the one that finds the handle.
  induction turns generalizing last with
  | zero => cases found
  | succ turns ih =>
    unfold search at found
    split at found
    · cases found
    · split at found
      · exact ih found
      · next free =>
        cases found
        exact ⟨free, nextHandle_ne_zero last⟩

/-- The next handle, as a number: after the last one comes one. -/
theorem nextHandle_toNat {last : UInt32} :
    (nextHandle last).toNat = if last.toNat = handleCount then 1 else last.toNat + 1 := by
  have below : last.toNat < 4294967296 := last.toNat_lt
  unfold nextHandle handleCount
  simp only [UInt32.le_iff_toNat_le, UInt32.toNat_add, UInt32.toNat_ofNat]
  split <;> split <;> simp [UInt32.toNat_add] <;> omega

/-- How many turns the search needs to come back to where it began. -/
def turnsLeft (old last : UInt32) : Nat :=
  if last.toNat < old.toNat then old.toNat - last.toNat else old.toNat + handleCount - last.toNat

/-- Each turn that does not bring the search back leaves one turn less. -/
theorem turnsLeft_nextHandle {old last : UInt32} (oldUsed : old ≠ 0)
    (goesOn : nextHandle last ≠ old) :
    turnsLeft old (nextHandle last) + 1 = turnsLeft old last := by
  have differs : (nextHandle last).toNat ≠ old.toNat := fun same =>
    goesOn (UInt32.toNat_inj.mp same)
  have oldBounds : 0 < old.toNat :=
    Nat.pos_of_ne_zero fun zero => oldUsed (UInt32.toNat_inj.mp zero)
  have oldBelow : old.toNat < 4294967296 := old.toNat_lt
  have lastBelow : last.toNat < 4294967296 := last.toNat_lt
  have next := @nextHandle_toNat last
  -- From here on it is about three numbers.
  unfold turnsLeft handleCount at *
  generalize (nextHandle last).toNat = after at next differs ⊢
  generalize last.toNat = here at *
  generalize old.toNat = origin at *
  split at next <;> split <;> split <;> omega

/--
The search ends by itself: turns beyond those that bring it back are never made.

So the bound on the turns is no part of what the source does.
-/
theorem search_turns {flags : Finset UInt32} {old last : UInt32} {turns : Nat} (extra : Nat)
    (oldUsed : old ≠ 0) (lastUsed : last ≠ 0) (enough : turnsLeft old last ≤ turns) :
    search flags old (turns + extra) last = search flags old turns last := by
  -- The induction is on the turns; each turn that goes on leaves one candidate less.
  induction turns generalizing last with
  | zero =>
    have lastBelow : last.toNat < 4294967296 := last.toNat_lt
    have oldBounds : 0 < old.toNat :=
      Nat.pos_of_ne_zero fun zero => oldUsed (UInt32.toNat_inj.mp zero)
    unfold turnsLeft handleCount at enough
    split at enough <;> omega
  | succ turns ih =>
    rw [Nat.add_right_comm, search, search]
    split
    · rfl
    · next goesOn =>
      split
      · have fewer := turnsLeft_nextHandle oldUsed goesOn
        exact ih (nextHandle_ne_zero last) (by omega)
      · rfl

/-- The loop of `get_globalHandleId` is over before the bound on its turns is reached. -/
theorem getGlobalHandleId_ends (used : m.lastAllocHandle ≠ 0) (extra : Nat) :
    search m.globalHandleUseFlag m.lastAllocHandle (handleCount + extra) m.lastAllocHandle =
      search m.globalHandleUseFlag m.lastAllocHandle handleCount m.lastAllocHandle := by
  refine search_turns extra used used ?_
  rw [turnsLeft, if_neg (Nat.lt_irrefl _), Nat.add_sub_cancel_left]

/-- What giving out one handle does: nothing without a backend handle, else a new id. -/
structure Gave (m after : HandleManager) (backendHandle frontHandle handle : UInt32) : Prop where
  map : after.frontBackendHandleMap = m.frontBackendHandleMap
  used : m.globalHandleUseFlag ⊆ after.globalHandleUseFlag
  without : backendHandle = 0 → handle = frontHandle
  fresh : backendHandle ≠ 0 → handle ≠ 0 ∧ handle ∉ m.globalHandleUseFlag ∧
    handle ∈ after.globalHandleUseFlag

/-- `giveHandle` gives an id that is not in use. -/
theorem giveHandle_spec {after : HandleManager} {backendHandle frontHandle handle : UInt32}
    (gave : m.giveHandle backendHandle frontHandle = some (handle, after)) :
    Gave m after backendHandle frontHandle handle := by
  unfold giveHandle at gave
  split at gave
  · next has =>
    obtain ⟨found, search, same⟩ := Option.map_eq_some_iff.mp gave
    cases same
    obtain ⟨free, used⟩ := search_spec search
    exact ⟨rfl, Finset.subset_insert _ _, fun zero => absurd zero has,
      fun _ => ⟨used, free, Finset.mem_insert_self _ _⟩⟩
  · next none_ =>
    cases gave
    exact ⟨rfl, Finset.Subset.refl _, fun _ => rfl, fun has => absurd has none_⟩

/-- What `add_handle` with global ids does to a front handle that carries none. -/
structure Added (m after : HandleManager) (backendHandle : BackendHandle) (ret : Int)
    (front : FrontHandle) : Prop where
  used : m.globalHandleUseFlag ⊆ after.globalHandleUseFlag
  fresh : ∀ id ∈ front.ids, id ∉ m.globalHandleUseFlag ∧ id ∈ after.globalHandleUseFlag
  cursor : ret = 0 → (front.cursorHandle = 0 ↔ backendHandle.handle.cursorHandle = 0)
  prepared : ret = 0 → (front.preparedHandle = 0 ↔ backendHandle.handle.preparedHandle = 0)
  map : after.frontBackendHandleMap =
    if ret = 0 then m.frontBackendHandleMap.insert front backendHandle
    else m.frontBackendHandleMap

/-- The given handle is zero exactly where the backend has none. -/
theorem Gave.zero_iff {after : HandleManager} {backendHandle handle : UInt32}
    (gave : Gave m after backendHandle 0 handle) : handle = 0 ↔ backendHandle = 0 := by
  constructor
  · intro zero
    by_contra has
    exact (gave.fresh has).1 zero
  · exact gave.without

/-- An id that was given is new. -/
theorem Gave.fresh_of_ne {after : HandleManager} {backendHandle handle : UInt32}
    (gave : Gave m after backendHandle 0 handle) (used : handle ≠ 0) :
    handle ∉ m.globalHandleUseFlag ∧ handle ∈ after.globalHandleUseFlag :=
  (gave.fresh fun none_ => used (gave.without none_)).2

/-- `add_handle` with global ids gives new ids, and files the backend handle under them. -/
theorem addBackendHandle_spec {after : HandleManager} {backendHandle : BackendHandle} {ret : Int}
    {front : FrontHandle}
    (done : m.addBackendHandle backendHandle .zero true = (ret, front, after)) :
    Added m after backendHandle ret front := by
  unfold addBackendHandle at done
  rw [if_pos rfl] at done
  split at done
  · cases done
    -- Without a cursor id nothing has changed.
    have failed : (-1 : Int) ≠ 0 := by decide
    exact ⟨Finset.Subset.refl _, by simp [HandleData.ids, HandleData.zero],
      fun same => absurd same failed, fun same => absurd same failed, (if_neg failed).symm⟩
  · next cursor m₁ gaveCursor =>
    have first : Gave m m₁ _ 0 cursor := giveHandle_spec gaveCursor
    split at done
    · cases done
      have failed : (-1 : Int) ≠ 0 := by decide
      -- Without a prepared id the cursor id stays marked, and no entry is made.
      refine ⟨first.used, fun id member => ?_, fun same => absurd same failed,
        fun same => absurd same failed, ?_⟩
      · obtain ⟨rfl | rfl, used⟩ := HandleData.mem_ids.mp member
        · exact absurd rfl used
        · exact first.fresh_of_ne used
      · rw [if_neg failed]
        exact first.map
    · next prepared m₂ gavePrepared =>
      cases done
      have second : Gave m₁ m₂ _ 0 prepared := giveHandle_spec gavePrepared
      refine ⟨first.used.trans second.used, fun id member => ?_, fun _ => first.zero_iff,
        fun _ => second.zero_iff, ?_⟩
      · obtain ⟨rfl | rfl, used⟩ := HandleData.mem_ids.mp member
        · obtain ⟨free, marked⟩ := second.fresh_of_ne used
          exact ⟨fun before => free (first.used before), marked⟩
        · obtain ⟨free, marked⟩ := first.fresh_of_ne used
          exact ⟨free, second.used marked⟩
      · rw [if_pos rfl]
        exact congrArg (fun map => Std.TreeMap.insert map ⟨prepared, cursor⟩ backendHandle)
          (second.map.trans first.map)

/-- `remove_handle` erases one entry. -/
theorem removeHandle_map (frontHandle : FrontHandle) :
    (m.removeHandle frontHandle).frontBackendHandleMap =
      m.frontBackendHandleMap.erase frontHandle := by
  unfold removeHandle
  dsimp only
  split <;> split <;> rfl

/-- `remove_handle` frees the ids of the front handle it is given. -/
theorem mem_removeHandle_flags {frontHandle : FrontHandle} {id : UInt32} :
    id ∈ (m.removeHandle frontHandle).globalHandleUseFlag ↔
      id ∈ m.globalHandleUseFlag ∧ id ∉ frontHandle.ids := by
  unfold removeHandle closeGlobalHandleId
  rw [HandleData.mem_ids]
  dsimp only
  split <;> split <;> simp_all only [Finset.mem_erase, ne_eq, not_not] <;> grind

end HandleManager

end OneProxy
