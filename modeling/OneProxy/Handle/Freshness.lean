import OneProxy.Handle.HandleManagerLaws
import OneProxy.Lib.Runs

/-! Runs of a `HandleManager`, and when the ids it gives out are new. -/

namespace OneProxy

open Runs

/-- A call of a `HandleManager`; front handles to be filled in carry no id yet. -/
inductive HandleCall
  | add (backendPreparedHandle backendCursorHandle hashCode : UInt32) (servns : Option Nat)
  | addBackend (backendHandle : BackendHandle)
  | remove (frontHandle : FrontHandle)
  | removeBaseCursor (cursorHandle : UInt32)
  | removeBasePrepared (preparedHandle : UInt32)
  | setBackendServer (ns : Option Nat)

namespace HandleCall

/-- The front handles that a call removes. -/
def Erases (call : HandleCall) (key : FrontHandle) : Prop :=
  match call with
  | remove frontHandle => key = frontHandle
  | removeBaseCursor cursorHandle => key.cursorHandle = cursorHandle
  | removeBasePrepared preparedHandle => key = ⟨preparedHandle, 0⟩
  | _ => False

instance : ∀ call key, Decidable (Erases call key)
  | remove frontHandle, key => inferInstanceAs (Decidable (key = frontHandle))
  | removeBaseCursor cursorHandle, key =>
    inferInstanceAs (Decidable (key.cursorHandle = cursorHandle))
  | removeBasePrepared preparedHandle, key =>
    inferInstanceAs (Decidable (key = ⟨preparedHandle, 0⟩))
  | add .., _ => instDecidableFalse
  | addBackend _, _ => instDecidableFalse
  | setBackendServer _, _ => instDecidableFalse

/-- The ids that a call frees. -/
def frees : HandleCall → List UInt32
  | remove frontHandle => frontHandle.ids
  | removeBaseCursor cursorHandle => HandleData.ids ⟨0, cursorHandle⟩
  | removeBasePrepared preparedHandle => HandleData.ids ⟨preparedHandle, 0⟩
  | _ => []

/-- The server of a backend handle after a call: the one that is set, if it had none. -/
def server : HandleCall → Option Nat → Option Nat
  | setBackendServer ns, pointer => if pointer = none then ns else pointer
  | _, pointer => pointer

end HandleCall

namespace HandleManager

/-- What a call leaves behind. -/
def step (m : HandleManager) : HandleCall → HandleManager
  | .add prepared cursor hashCode servns => (m.addHandle prepared cursor hashCode servns .zero).2.2
  | .addBackend backendHandle => (m.addBackendHandle backendHandle .zero true).2.2
  | .remove frontHandle => m.removeHandle frontHandle
  | .removeBaseCursor cursorHandle => m.removeHandleBaseCursor cursorHandle
  | .removeBasePrepared preparedHandle => m.removeHandleBasePrepared preparedHandle
  | .setBackendServer ns => m.setBackendServer ns

end HandleManager

/-- All runs of a `HandleManager`. -/
def handleSystem : System HandleManager HandleCall :=
  .ofStep (· = .new) fun m call => some (m.step call)

namespace HandleManager

variable {m : HandleManager}

/-- What a call does: add a backend handle, or take entries and ids away, or fill in servers. -/
inductive StepCases (m : HandleManager) (call : HandleCall) (after : HandleManager) : Prop
  | added (backendHandle : BackendHandle) (ret : Int) (front : FrontHandle)
      (server : ∀ pointer, call.server pointer = pointer)
      (done : m.addBackendHandle backendHandle .zero true = (ret, front, after))
  | removed (server : ∀ pointer, call.server pointer = pointer)
    (map : ∀ key : FrontHandle, after.frontBackendHandleMap[key]? =
        if call.Erases key then none else m.frontBackendHandleMap[key]?)
      (flags : ∀ id, id ∈ after.globalHandleUseFlag ↔ id ∈ m.globalHandleUseFlag ∧ id ∉ call.frees)
  | filled (map : ∀ key : FrontHandle, after.frontBackendHandleMap[key]? =
        m.frontBackendHandleMap[key]?.map fun backendHandle =>
          { backendHandle with pointer := call.server backendHandle.pointer })
      (flags : after.globalHandleUseFlag = m.globalHandleUseFlag)

/-- `remove_handle` erases the front handle it is given. -/
theorem removeHandle_getElem? (m : HandleManager) (frontHandle key : FrontHandle) :
    (m.removeHandle frontHandle).frontBackendHandleMap[key]? =
      if key = frontHandle then none else m.frontBackendHandleMap[key]? := by
  refine (congrArg (·[key]?) (removeHandle_map _)).trans ?_
  rw [Std.TreeMap.getElem?_erase]
  exact if_congr (Std.LawfulEqCmp.compare_eq_iff_eq.trans eq_comm) rfl rfl

/-- `remove_handleBaseCursor` erases all front handles with the cursor. -/
theorem removeHandleBaseCursor_getElem? (m : HandleManager) (cursorHandle : UInt32)
    (key : FrontHandle) :
    (m.removeHandleBaseCursor cursorHandle).frontBackendHandleMap[key]? =
      if key.cursorHandle = cursorHandle then none else m.frontBackendHandleMap[key]? := by
  rw [removeHandleBaseCursor, removeHandle_map, Std.TreeMap.getElem?_filter',
    Std.TreeMap.getElem?_erase]
  by_cases same : key.cursorHandle = cursorHandle
  · rw [if_pos same]
    simp [same]
  · -- The entry under the cursor alone is no other one than those that are gone through.
    have differs : (⟨0, cursorHandle⟩ : FrontHandle) ≠ key := by
      rintro rfl
      exact same rfl
    rw [if_neg same, if_neg (fun equal => differs (Std.LawfulEqCmp.compare_eq_iff_eq.mp equal))]
    cases m.frontBackendHandleMap[key]? <;> simp [same]

/-- Every call does one of these. -/
theorem step_cases (m : HandleManager) (call : HandleCall) : StepCases m call (m.step call) := by
  cases call with
  | add | addBackend => exact .added _ _ _ (fun _ => rfl) rfl
  | remove frontHandle | removeBasePrepared preparedHandle =>
    exact .removed (fun _ => rfl) (fun key => removeHandle_getElem? m _ key)
      fun id => mem_removeHandle_flags
  | removeBaseCursor cursorHandle =>
    exact .removed (fun _ => rfl) (fun key => removeHandleBaseCursor_getElem? m cursorHandle key)
      fun id => mem_removeHandle_flags
  | setBackendServer ns =>
    refine .filled (fun key => ?_) rfl
    rw [step, setBackendServer, Std.TreeMap.getElem?_map]
    refine congrArg (Option.map · _) (funext fun backendHandle => ?_)
    rw [HandleCall.server]
    split <;> rfl

/-- All ids in use are marked, and each is in one front handle only. -/
structure Marked (m : HandleManager) : Prop where
  marked : ∀ key ∈ m.frontBackendHandleMap, ∀ id ∈ key.ids, id ∈ m.globalHandleUseFlag
  apart : ∀ key ∈ m.frontBackendHandleMap, ∀ other ∈ m.frontBackendHandleMap,
    ∀ id ∈ key.ids, id ∈ other.ids → key = other

/-- A call removes every front handle that carries an id it frees. -/
def FreesOnlyErased (m : HandleManager) (call : HandleCall) : Prop :=
  ∀ key ∈ m.frontBackendHandleMap.keys, (∃ id ∈ call.frees, id ∈ key.ids) → call.Erases key

instance (m : HandleManager) (call : HandleCall) : Decidable (FreesOnlyErased m call) :=
  List.decidableBAll (fun key : FrontHandle => (∃ id ∈ call.frees, id ∈ key.ids) → call.Erases key)
    m.frontBackendHandleMap.keys

/-- The keys after an insertion. -/
theorem mem_insert {map : Std.TreeMap FrontHandle BackendHandle (Comparator.ofLess HandleData.less)}
    {front key : FrontHandle} {backendHandle : BackendHandle} :
    key ∈ map.insert front backendHandle ↔ key = front ∨ key ∈ map := by
  rw [Std.TreeMap.mem_insert, Std.LawfulEqCmp.compare_eq_iff_eq, eq_comm]

/-- Where removals free the ids of what they remove only, ids in use stay marked. -/
theorem Marked.step (marks : Marked m) {call : HandleCall} (frees : FreesOnlyErased m call) :
    Marked (m.step call) := by
  cases step_cases m call with
  | added backendHandle ret front server done =>
    have added := addBackendHandle_spec done
    have keys : ∀ key ∈ (m.step call).frontBackendHandleMap, key = front ∨
        key ∈ m.frontBackendHandleMap := by
      intro key member
      rw [added.map] at member
      split at member
      · exact mem_insert.mp member
      · exact .inr member
    have new : ∀ key ∈ m.frontBackendHandleMap, ∀ id ∈ front.ids, id ∉ key.ids :=
      fun key member id isNew inside => (added.fresh id isNew).1 (marks.marked key member id inside)
    refine ⟨fun key member id inside => ?_, fun key member other member' id inside inside' => ?_⟩
    · rcases keys key member with rfl | old
      · exact (added.fresh id inside).2
      · exact added.used (marks.marked key old id inside)
    · rcases keys key member with rfl | old
      · rcases keys other member' with rfl | old'
        · rfl
        · exact absurd inside' (new other old' id inside)
      · rcases keys other member' with rfl | old'
        · exact absurd inside (new key old id inside')
        · exact marks.apart key old other old' id inside inside'
  | removed server map flags =>
    have keys : ∀ key ∈ (m.step call).frontBackendHandleMap, key ∈ m.frontBackendHandleMap ∧
        ¬ call.Erases key := by
      intro key member
      rw [Std.TreeMap.mem_iff_isSome_getElem?, map] at member
      split at member
      · cases member
      · next stays => exact ⟨Std.TreeMap.mem_iff_isSome_getElem?.mpr member, stays⟩
    refine ⟨fun key member id inside => ?_, fun key member other member' => ?_⟩
    · obtain ⟨old, stays⟩ := keys key member
      refine (flags id).mpr ⟨marks.marked key old id inside, fun freed => stays ?_⟩
      exact frees key (Std.TreeMap.mem_keys.mpr old) ⟨id, freed, inside⟩
    · exact marks.apart key (keys key member).1 other (keys other member').1
  | filled map flags =>
    have keys : ∀ key ∈ (m.step call).frontBackendHandleMap, key ∈ m.frontBackendHandleMap := by
      intro key member
      rw [Std.TreeMap.mem_iff_isSome_getElem?, map, Option.isSome_map] at member
      exact Std.TreeMap.mem_iff_isSome_getElem?.mpr member
    refine ⟨fun key member id inside => ?_, fun key member other member' => ?_⟩
    · rw [flags]
      exact marks.marked key (keys key member) id inside
    · exact marks.apart key (keys key member) other (keys other member')

/--
The ids that `add_handle` gives out for the handles of a backend, and that no front handle has.
-/
structure GivesFresh (m : HandleManager) (backendHandle : BackendHandle) (ret : Int)
    (front : FrontHandle) : Prop where
  cursor : ret = 0 → backendHandle.handle.cursorHandle ≠ 0 → front.cursorHandle ≠ 0
  prepared : ret = 0 → backendHandle.handle.preparedHandle ≠ 0 → front.preparedHandle ≠ 0
  fresh : ∀ id ∈ front.ids, id ≠ 0 ∧ ∀ key ∈ m.frontBackendHandleMap, id ∉ key.ids

/--
Where each removal removes all front handles with an id that it frees, ids in use are marked, new
ids are new, and no two front handles share one.
-/
theorem fresh_of_freesOnlyErased (reached : Reachable (handleSystem.restrict FreesOnlyErased) m) :
    (∀ key ∈ m.frontBackendHandleMap, ∀ id ∈ key.ids, id ∈ m.globalHandleUseFlag) ∧
      (∀ backendHandle ret front after,
        m.addBackendHandle backendHandle .zero true = (ret, front, after) →
        GivesFresh m backendHandle ret front) ∧
      ∀ key ∈ m.frontBackendHandleMap, ∀ other ∈ m.frontBackendHandleMap,
        ∀ id ∈ key.ids, id ∈ other.ids → key = other := by
  have start : ∀ u, (handleSystem.restrict FreesOnlyErased).init u → Marked u := by
    rintro u rfl
    exact ⟨fun key member => absurd member Std.TreeMap.not_mem_emptyc,
      fun key member => absurd member Std.TreeMap.not_mem_emptyc⟩
  have marks : Marked m := by
    refine reached.invariant start ?_
    rintro u call v marks ⟨frees, done⟩
    cases done
    exact marks.step frees
  refine ⟨marks.marked, fun backendHandle ret front after done => ?_, marks.apart⟩
  have added := addBackendHandle_spec done
  refine ⟨fun ok has zero => has ((added.cursor ok).mp zero),
    fun ok has zero => has ((added.prepared ok).mp zero), fun id isNew => ?_⟩
  refine ⟨(HandleData.mem_ids.mp isNew).2, fun key member inside => ?_⟩
  exact (added.fresh id isNew).1 (marks.marked key member id inside)

/-- A backend with a prepared statement's handle 7 and a cursor's handle 9. -/
def bothHandles : HandleCall := .add 7 9 1 none

/-- The manager's own front handle is removed, after which the ids of the next one are new. -/
theorem fresh_of_freesOnlyErased_removed : ∃ m : HandleManager, m.lastAllocHandle = 5 ∧
    ∀ key ∈ m.frontBackendHandleMap, ∀ id ∈ key.ids, id ∈ m.globalHandleUseFlag := by
  have run : (exec (guarded FreesOnlyErased fun m call => some (m.step call)) .new
      [bothHandles, bothHandles, .remove ⟨3, 2⟩]).map lastAllocHandle = some 5 := by
    decide +kernel
  obtain ⟨m, reached, seen⟩ := exists_reachable_guarded (· = HandleManager.new) rfl run
  exact ⟨m, seen, (fresh_of_freesOnlyErased reached).1⟩

/--
The id of a prepared statement is freed while the front handle it is in stays.

The front handle carries a cursor too, and only the one without a cursor is removed.
-/
theorem freed_id_in_use : ¬ ∀ m, Reachable handleSystem m → ∀ key ∈ m.frontBackendHandleMap.keys,
    ∀ id ∈ key.ids, id ∈ m.globalHandleUseFlag := by
  intro always
  have run : (exec (fun m call => some (HandleManager.step m call)) .new
      [bothHandles, .removeBasePrepared 3]).map (fun m => (m.frontBackendHandleMap.keys,
        decide (3 ∈ m.globalHandleUseFlag))) = some ([⟨3, 2⟩], false) := by
    decide +kernel
  obtain ⟨m, reached, seen⟩ := exists_reachable (· = HandleManager.new) rfl run
  simp only [Prod.mk.injEq, decide_eq_false_iff_not] at seen
  have marked := always m reached ⟨3, 2⟩ (seen.1 ▸ List.mem_singleton_self _) 3 (by decide)
  exact seen.2 marked

end HandleManager

end OneProxy
