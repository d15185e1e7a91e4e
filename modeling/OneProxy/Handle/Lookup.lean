import OneProxy.Handle.Freshness

/-! Finding a backend handle again by one of the ids that were given out for it. -/

namespace OneProxy

open Runs

/-- The server of a backend handle after some calls: the first one set, if it had none. -/
def serverAfter (pointer : Option Nat) (calls : List HandleCall) : Option Nat :=
  calls.foldl (fun pointer call => call.server pointer) pointer

namespace HandleManager

/-- A call neither removes a front handle nor frees one of its ids. -/
def Spares (front : FrontHandle) (_ : HandleManager) (call : HandleCall) : Prop :=
  ¬ call.Erases front ∧ ∀ id ∈ call.frees, id ∉ front.ids

instance (front : FrontHandle) (m : HandleManager) (call : HandleCall) :
    Decidable (Spares front m call) :=
  inferInstanceAs (Decidable (¬ call.Erases front ∧ ∀ id ∈ call.frees, id ∉ front.ids))

/-- A backend handle is filed under a front handle whose ids are marked. -/
structure Registered (front : FrontHandle) (backendHandle : BackendHandle) (m : HandleManager) :
    Prop where
  found : m.frontBackendHandleMap[front]? = some backendHandle
  marked : ∀ id ∈ front.ids, id ∈ m.globalHandleUseFlag

variable {front : FrontHandle} {backendHandle : BackendHandle} {m : HandleManager}

/-- Adding another backend handle leaves a front handle with an id alone. -/
theorem Registered.add (registered : Registered front backendHandle m) {other : FrontHandle}
    {added : BackendHandle} {ret : Int} {after : HandleManager} {id : UInt32} (has : id ∈ front.ids)
    (done : m.addBackendHandle added .zero true = (ret, other, after)) :
    Registered front backendHandle after := by
  have spec := addBackendHandle_spec done
  have differs : other ≠ front := by
    rintro rfl
    exact (spec.fresh id has).1 (registered.marked id has)
  refine ⟨?_, fun id inside => spec.used (registered.marked id inside)⟩
  rw [spec.map]
  split
  · rw [Std.TreeMap.getElem?_insert,
      if_neg (fun equal => differs (Std.LawfulEqCmp.compare_eq_iff_eq.mp equal))]
    exact registered.found
  · exact registered.found

/-- A front handle with an id stays with its backend handle, except for the server. -/
theorem Registered.step (registered : Registered front backendHandle m) {id : UInt32}
    (has : id ∈ front.ids) {call : HandleCall} (spares : Spares front m call) :
    Registered front { backendHandle with pointer := call.server backendHandle.pointer }
      (m.step call) := by
  -- By what a call does to the table: it adds, removes one entry, or fills in the server.
  cases step_cases m call with
  | added other ret otherFront server done =>
    rw [server]
    exact registered.add has done
  | removed server map flags =>
    rw [server]
    refine ⟨?_, fun id inside => ?_⟩
    · rw [map, if_neg spares.1]
      exact registered.found
    · refine (flags id).mpr ⟨registered.marked id inside, fun freed => ?_⟩
      exact spares.2 id freed inside
  | filled map flags =>
    refine ⟨?_, fun id inside => flags ▸ registered.marked id inside⟩
    rw [map, registered.found]
    rfl

/-- In every run that spares it, a front handle with an id keeps its backend handle. -/
theorem Registered.run (registered : Registered front backendHandle m) {id : UInt32}
    (has : id ∈ front.ids) {calls : List HandleCall} {later : HandleManager}
    (run : Run (handleSystem.restrict (Spares front)) m calls later) :
    Registered front { backendHandle with pointer := serverAfter backendHandle.pointer calls }
      later := by
  induction run with
  | nil => exact registered
  | snoc before last ih =>
    obtain ⟨spares, done⟩ := last
    cases done
    rw [serverAfter, List.foldl_append]
    exact ih.step has spares

/-- Adding a backend handle registers it. -/
theorem registered_of_added {after : HandleManager}
    (done : m.addBackendHandle backendHandle .zero true = (0, front, after)) :
    Registered front backendHandle after := by
  have spec := addBackendHandle_spec done
  refine ⟨?_, fun id inside => (spec.fresh id inside).2⟩
  rw [spec.map, if_pos rfl]
  exact Std.TreeMap.getElem?_insert_self

/--
A backend handle with one id is found by the id that was given out for it.

What is found is what was registered, and the server that has been set for it since.
-/
theorem found_of_oneHandle {after later : HandleManager} {calls : List HandleCall}
    (done : m.addBackendHandle backendHandle .zero true = (0, front, after))
    (one : backendHandle.handle.preparedHandle = 0 ∨ backendHandle.handle.cursorHandle = 0)
    (run : Run (handleSystem.restrict (Spares front)) after calls later) :
    (front.cursorHandle ≠ 0 → later.getBackendHandleBaseCursor front.cursorHandle =
        some { backendHandle with pointer := serverAfter backendHandle.pointer calls }) ∧
      (front.preparedHandle ≠ 0 → later.getBackendHandleBasePrepared front.preparedHandle =
        some { backendHandle with pointer := serverAfter backendHandle.pointer calls }) := by
  have spec := addBackendHandle_spec done
  have registered := registered_of_added done
  refine ⟨fun cursor => ?_, fun prepared => ?_⟩
  · -- With one id only, the entry is under the key that the lookup by this id builds.
    have noPrepared : front.preparedHandle = 0 := by
      refine (spec.prepared rfl).mpr (one.resolve_right fun none_ => ?_)
      exact cursor ((spec.cursor rfl).mpr none_)
    have key : front = ⟨0, front.cursorHandle⟩ := by
      rw [← noPrepared]
    have has : front.cursorHandle ∈ front.ids := HandleData.mem_ids.mpr ⟨.inr rfl, cursor⟩
    rw [getBackendHandleBaseCursor, ← key]
    exact (registered.run has run).found
  · have noCursor : front.cursorHandle = 0 := by
      refine (spec.cursor rfl).mpr (one.resolve_left fun none_ => ?_)
      exact prepared ((spec.prepared rfl).mpr none_)
    have key : front = ⟨front.preparedHandle, 0⟩ := by
      rw [← noCursor]
    have has : front.preparedHandle ∈ front.ids := HandleData.mem_ids.mpr ⟨.inl rfl, prepared⟩
    rw [getBackendHandleBasePrepared, ← key]
    exact (registered.run has run).found

/--
A prepared statement's handle is found after another one was added and its server became known.
-/
theorem found_of_oneHandle_later : ∃ later : HandleManager,
    later.getBackendHandleBasePrepared 2 = some ⟨⟨7, 0⟩, 1, some 40, []⟩ := by
  have added : HandleManager.new.addBackendHandle ⟨⟨7, 0⟩, 1, none, []⟩ .zero true =
      (0, ⟨2, 0⟩, HandleManager.new.step (.add 7 0 1 none)) := by
    rfl
  -- Neither of the two calls removes anything or frees an id.
  have another : ∀ m, Spares ⟨2, 0⟩ m bothHandles := fun m => ⟨id, fun _ freed => nomatch freed⟩
  have known : ∀ m, Spares ⟨2, 0⟩ m (.setBackendServer (some 40)) :=
    fun m => ⟨id, fun _ freed => nomatch freed⟩
  have run : ∀ m, Run (handleSystem.restrict (Spares ⟨2, 0⟩)) m
      ([] ++ [bothHandles] ++ [.setBackendServer (some 40)])
      ((m.step bothHandles).step (.setBackendServer (some 40))) :=
    fun m => .snoc (.snoc (.nil m) ⟨another m, rfl⟩) ⟨known _, rfl⟩
  exact ⟨_, (found_of_oneHandle added (.inr rfl) (run _)).2 (by decide)⟩

/-- A key other than the new one that carries a new id is not in the map. -/
theorem none_of_new_id (marks : Marked m) {after : HandleManager} {ret : Int}
    (done : m.addBackendHandle backendHandle .zero true = (ret, front, after)) {key : FrontHandle}
    {id : UInt32} (isNew : id ∈ front.ids) (inside : id ∈ key.ids) (differs : front ≠ key) :
    after.getBackendHandle key = none := by
  have spec := addBackendHandle_spec done
  have absent : m.frontBackendHandleMap[key]? = none :=
    Std.TreeMap.getElem?_eq_none fun member =>
      (spec.fresh id isNew).1 (marks.marked key member id inside)
  rw [getBackendHandle, spec.map]
  split
  · rw [Std.TreeMap.getElem?_insert,
      if_neg (fun equal => differs (Std.LawfulEqCmp.compare_eq_iff_eq.mp equal))]
    exact absent
  · exact absent

/-- Where ids in use are marked, a backend handle with two ids is found by neither of them. -/
theorem none_of_bothHandles (marks : Marked m) {after : HandleManager}
    (done : m.addBackendHandle backendHandle .zero true = (0, front, after))
    (prepared : backendHandle.handle.preparedHandle ≠ 0)
    (cursor : backendHandle.handle.cursorHandle ≠ 0) :
    after.getBackendHandleBaseCursor front.cursorHandle = none ∧
      after.getBackendHandleBasePrepared front.preparedHandle = none := by
  have spec := addBackendHandle_spec done
  have hasPrepared : front.preparedHandle ≠ 0 := fun zero => prepared ((spec.prepared rfl).mp zero)
  have hasCursor : front.cursorHandle ≠ 0 := fun zero => cursor ((spec.cursor rfl).mp zero)
  constructor
  · refine none_of_new_id marks done (HandleData.mem_ids.mpr ⟨.inr rfl, hasCursor⟩)
      (HandleData.mem_ids.mpr ⟨.inr rfl, hasCursor⟩) fun same => ?_
    exact hasPrepared (congrArg HandleData.preparedHandle same)
  · refine none_of_new_id marks done (HandleData.mem_ids.mpr ⟨.inl rfl, hasPrepared⟩)
      (HandleData.mem_ids.mpr ⟨.inl rfl, hasPrepared⟩) fun same => ?_
    exact hasCursor (congrArg HandleData.cursorHandle same)

/-- A backend handle with a prepared statement and a cursor is found by neither of its ids. -/
theorem both_not_found :
    ¬ ∀ backendHandle front after, HandleManager.new.addBackendHandle backendHandle .zero true =
      (0, front, after) → front.cursorHandle ≠ 0 →
      after.getBackendHandleBaseCursor front.cursorHandle = some backendHandle := by
  intro always
  have found := always ⟨⟨7, 9⟩, 1, none, []⟩ ⟨3, 2⟩ (HandleManager.new.step bothHandles) rfl
    (by decide)
  exact absurd found (by decide +kernel)

end HandleManager

end OneProxy
