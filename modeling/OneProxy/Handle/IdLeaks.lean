import OneProxy.Handle.Allocation
import OneProxy.Handle.Freshness
import OneProxy.Lib.AllAlong

/-! Which removals leave an id marked that no front handle carries any more. -/

namespace OneProxy.HandleManager

open Runs

variable {m : HandleManager}

/-- An `add_handle` succeeds. -/
def Succeeds (m : HandleManager) : HandleCall → Prop
  | .add prepared cursor hashCode servns =>
    (m.addHandle prepared cursor hashCode servns .zero).1 = 0
  | .addBackend backendHandle => (m.addBackendHandle backendHandle .zero true).1 = 0
  | .remove _ | .removeBaseCursor _ | .removeBasePrepared _ | .setBackendServer _ => True

instance (m : HandleManager) : ∀ call, Decidable (m.Succeeds call)
  | .add .. | .addBackend _ => Int.instDecidableEq _ _
  | .remove _ | .removeBaseCursor _ | .removeBasePrepared _ | .setBackendServer _ => isTrue trivial

/-- A call, where `add_handle` succeeds. -/
def succeeding : HandleManager → HandleCall → Option HandleManager :=
  guarded Succeeds fun m call => some (m.step call)

/-- All marked ids are carried by front handles, so that without front handles none is marked. -/
structure Backed (m : HandleManager) : Prop where
  carried : ∀ id ∈ m.globalHandleUseFlag, ∃ key ∈ m.frontBackendHandleMap, id ∈ key.ids
  emptied : (∀ key, key ∉ m.frontBackendHandleMap) → m.globalHandleUseFlag = ∅

/--
A removal by cursor takes no front handle away that is the only one with a prepared statement's id
still in use.
-/
def SparesPrepared (m : HandleManager) : HandleCall → Prop
  | .removeBaseCursor cursorHandle => ∀ key ∈ m.frontBackendHandleMap,
      key.cursorHandle = cursorHandle → key.preparedHandle ≠ 0 →
      key.preparedHandle ≠ cursorHandle → key.preparedHandle ∈ m.globalHandleUseFlag →
        ∃ other ∈ m.frontBackendHandleMap, other.cursorHandle ≠ cursorHandle ∧
          key.preparedHandle ∈ other.ids
  | _ => True

/-- Without front handles that carry them, no ids are marked. -/
theorem backed_iff : m.Backed ↔
    ∀ id ∈ m.globalHandleUseFlag, ∃ key ∈ m.frontBackendHandleMap, id ∈ key.ids := by
  refine ⟨fun backed => backed.carried, fun carried => ⟨carried, fun nothing => ?_⟩⟩
  refine Finset.eq_empty_of_forall_notMem fun id marked => ?_
  obtain ⟨key, member, _⟩ := carried id marked
  exact nothing key member

/-- Giving out one handle marks no other id. -/
theorem giveHandle_flags {after : HandleManager} {backendHandle handle : UInt32}
    (gave : m.giveHandle backendHandle 0 = some (handle, after)) {id : UInt32}
    (marked : id ∈ after.globalHandleUseFlag) :
    id ∈ m.globalHandleUseFlag ∨ id = handle ∧ id ≠ 0 := by
  unfold giveHandle at gave
  split at gave
  · obtain ⟨free, _, rfl⟩ := getGlobalHandleId_some gave
    rcases Finset.mem_insert.mp marked with rfl | old
    · exact .inr ⟨rfl, free.1⟩
    · exact .inl old
  · cases gave
    exact .inl marked

/-- A successful `add_handle` marks only the ids of the front handle that it files. -/
theorem addBackendHandle_flags {after : HandleManager} {backendHandle : BackendHandle}
    {front : FrontHandle} (done : m.addBackendHandle backendHandle .zero true = (0, front, after))
    {id : UInt32} (marked : id ∈ after.globalHandleUseFlag) :
    id ∈ m.globalHandleUseFlag ∨ id ∈ front.ids := by
  rw [addBackendHandle, if_pos rfl] at done
  split at done
  · cases done
  · next cursor m₁ gaveCursor =>
    split at done
    · cases done
    · next prepared m₂ gavePrepared =>
      cases done
      rcases giveHandle_flags gavePrepared marked with middle | new
      · rcases giveHandle_flags gaveCursor middle with old | new
        · exact .inl old
        · exact .inr (HandleData.mem_ids.mpr ⟨.inr new.1, new.2⟩)
      · exact .inr (HandleData.mem_ids.mpr ⟨.inl new.1, new.2⟩)

/-- A successful `add_handle` leaves every marked id with a front handle. -/
theorem Backed.add (backed : m.Backed) (backendHandle : BackendHandle)
    (succeeds : (m.addBackendHandle backendHandle .zero true).1 = 0) :
    (m.addBackendHandle backendHandle .zero true).2.2.Backed := by
  generalize done' : m.addBackendHandle backendHandle .zero true = done at succeeds ⊢
  obtain ⟨ret, front, after⟩ := done
  obtain rfl : ret = 0 := succeeds
  have filed := (addBackendHandle_spec done').map
  rw [if_pos rfl] at filed
  refine backed_iff.mpr fun id marked => ?_
  have found : ∃ key, (key = front ∨ key ∈ m.frontBackendHandleMap) ∧ id ∈ key.ids := by
    rcases addBackendHandle_flags done' marked with old | new
    · obtain ⟨key, member, inside⟩ := backed.carried id old
      exact ⟨key, .inr member, inside⟩
    · exact ⟨front, .inl rfl, new⟩
  obtain ⟨key, member, inside⟩ := found
  exact ⟨key, filed ▸ mem_insert.mpr member, inside⟩

/--
After a removal, marked ids are carried exactly if the ids it leaves marked are by what it leaves.
-/
theorem backed_removed_iff {after : HandleManager} {call : HandleCall}
    (map : ∀ key : FrontHandle, after.frontBackendHandleMap[key]? =
      if call.Erases key then none else m.frontBackendHandleMap[key]?)
    (flags : ∀ id, id ∈ after.globalHandleUseFlag ↔ id ∈ m.globalHandleUseFlag ∧ id ∉ call.frees) :
    after.Backed ↔ ∀ id ∈ m.globalHandleUseFlag, id ∉ call.frees →
      ∃ key ∈ m.frontBackendHandleMap, ¬ call.Erases key ∧ id ∈ key.ids := by
  have keys : ∀ key, key ∈ after.frontBackendHandleMap ↔
      key ∈ m.frontBackendHandleMap ∧ ¬ call.Erases key := by
    intro key
    rw [Std.TreeMap.mem_iff_isSome_getElem?, map, Std.TreeMap.mem_iff_isSome_getElem?]
    split <;> simp [*]
  rw [backed_iff]
  simp only [flags, keys, and_assoc, and_imp]

/-- A call that erases only front handles whose ids it frees leaves every marked id carried. -/
theorem Backed.remove (backed : m.Backed) {call : HandleCall}
    (whole : ∀ key, call.Erases key → ∀ id ∈ key.ids, id ∈ call.frees) :
    ∀ id ∈ m.globalHandleUseFlag, id ∉ call.frees →
      ∃ key ∈ m.frontBackendHandleMap, ¬ call.Erases key ∧ id ∈ key.ids := by
  intro id marked stays
  obtain ⟨key, member, inside⟩ := backed.carried id marked
  exact ⟨key, member, fun erased => stays (whole key erased id inside), inside⟩

/-- A removal by cursor leaves every marked id carried exactly if it spares the prepared ones. -/
theorem Backed.removeBaseCursor_iff (backed : m.Backed) (cursorHandle : UInt32) :
    (∀ id ∈ m.globalHandleUseFlag, id ∉ (HandleCall.removeBaseCursor cursorHandle).frees →
      ∃ key ∈ m.frontBackendHandleMap,
        ¬ (HandleCall.removeBaseCursor cursorHandle).Erases key ∧ id ∈ key.ids) ↔
      m.SparesPrepared (.removeBaseCursor cursorHandle) := by
  have frees : ∀ id, id ∈ (HandleCall.removeBaseCursor cursorHandle).frees ↔
      id = cursorHandle ∧ id ≠ 0 := by
    intro id
    rw [HandleCall.frees, HandleData.mem_ids]
    constructor
    · intro freed
      exact ⟨freed.1.resolve_left freed.2, freed.2⟩
    · intro freed
      exact ⟨.inr freed.1, freed.2⟩
  constructor
  · intro carried key member same used differs marked
    exact carried key.preparedHandle marked fun freed => differs ((frees _).mp freed).1
  · intro spares id marked stays
    obtain ⟨key, member, inside⟩ := backed.carried id marked
    obtain ⟨either, used⟩ := HandleData.mem_ids.mp inside
    have differs : id ≠ cursorHandle := fun same => stays ((frees id).mpr ⟨same, used⟩)
    by_cases same : key.cursorHandle = cursorHandle
    · -- The id of the cursor is freed, so that this one is the statement's.
      obtain rfl := either.resolve_right fun cursor => differs (cursor.trans same)
      exact spares key member same used differs marked
    · exact ⟨key, member, same, inside⟩

/-- What one successful call does to the ids that are marked. -/
theorem Backed.step_iff (backed : m.Backed) {call : HandleCall} (succeeds : m.Succeeds call) :
    (m.step call).Backed ↔ m.SparesPrepared call := by
  cases call with
  | add prepared cursor hashCode servns => exact iff_of_true (backed.add _ succeeds) trivial
  | addBackend backendHandle => exact iff_of_true (backed.add _ succeeds) trivial
  | remove frontHandle =>
    have left := @backed_removed_iff m (m.step (.remove frontHandle)) (.remove frontHandle)
      (fun key => removeHandle_getElem? m frontHandle key) fun id => mem_removeHandle_flags
    exact iff_of_true (left.mpr (backed.remove fun key erased id inside => erased ▸ inside)) trivial
  | removeBaseCursor cursorHandle =>
    have left := @backed_removed_iff m (m.step (.removeBaseCursor cursorHandle))
      (.removeBaseCursor cursorHandle)
      (fun key => removeHandleBaseCursor_getElem? m cursorHandle key) fun id =>
        mem_removeHandle_flags
    exact left.trans (backed.removeBaseCursor_iff cursorHandle)
  | removeBasePrepared preparedHandle =>
    have left := @backed_removed_iff m (m.step (.removeBasePrepared preparedHandle))
      (.removeBasePrepared preparedHandle)
      (fun key => removeHandle_getElem? m ⟨preparedHandle, 0⟩ key) fun id => mem_removeHandle_flags
    refine iff_of_true (left.mpr (backed.remove fun key erased id inside => ?_)) trivial
    obtain rfl : key = ⟨preparedHandle, 0⟩ := erased
    exact inside
  | setBackendServer ns =>
    refine iff_of_true (backed_iff.mpr fun id marked => ?_) trivial
    obtain ⟨key, member, inside⟩ := backed.carried id marked
    exact ⟨key, Std.TreeMap.mem_map.mpr member, inside⟩

/--
In a session, every marked id is carried by a front handle all along exactly if each removal by
cursor spares the prepared statements' ids that are still in use.
-/
theorem backed_allAlong_iff (calls : List HandleCall) :
    (∀ front, front <+: calls → ∀ m, exec succeeding .new front = some m → m.Backed) ↔
      ∀ front call, front ++ [call] <+: calls → ∀ m after, exec succeeding .new front = some m →
        succeeding m call = some after → m.SparesPrepared call := by
  have start : new.Backed := backed_iff.mpr fun id marked => absurd marked (Finset.notMem_empty id)
  refine allReached_iff start (fun m call after backed moved => ?_) calls
  obtain ⟨succeeds, same⟩ : m.Succeeds call ∧ m.step call = after := by
    simpa [succeeding, guarded] using moved
  rw [← same]
  exact backed.step_iff succeeds

/--
Closing the cursor of a statement leaves the id of the statement marked, with no front handle.
-/
theorem closedCursor_leaks : ¬ ∀ calls : List HandleCall,
    ∀ front, front <+: calls → ∀ m, exec succeeding .new front = some m → m.Backed := by
  intro always
  have run : (exec succeeding .new [bothHandles, .removeBaseCursor 2]).map (fun m =>
      (m.frontBackendHandleMap.keys, decide (3 ∈ m.globalHandleUseFlag))) = some ([], true) := by
    decide +kernel
  obtain ⟨m, ran, seen⟩ := Option.map_eq_some_iff.mp run
  obtain ⟨nothing, marked⟩ := Prod.mk.inj seen
  have backed := always _ _ (List.prefix_refl _) m ran
  obtain ⟨key, member, _⟩ := backed.carried 3 (of_decide_eq_true marked)
  have listed := Std.TreeMap.mem_keys.mpr member
  rw [nothing] at listed
  exact absurd listed List.not_mem_nil

end OneProxy.HandleManager
