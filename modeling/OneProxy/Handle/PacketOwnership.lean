import OneProxy.Handle.HandleManagerLaws
import OneProxy.Lib.AllAlong

/-! Who frees the packets of a `BackendHandle`, which is copied with its packets. -/

namespace OneProxy

open Runs

/-- What is freed with a packet: its data, where there is a function to free it. -/
def DataPacket.owned (packet : DataPacket) : Option Nat :=
  if packet.freeFunc ≠ none then packet.dataPointer else none

/-- What the destructor of a `BackendHandle` frees. -/
def BackendHandle.owned (backendHandle : BackendHandle) : List Nat :=
  backendHandle.dataPacketVec.filterMap DataPacket.owned

/-- A call of a `freeFunc`, and whether an entry of the map held the packet then. -/
structure FreeCall where
  dataPointer : Nat
  held : Bool
  deriving DecidableEq

/-- The destructors of some entries or locals run in turn, beside packets that entries hold. -/
def destroyed (present : List Nat) : List BackendHandle → List FreeCall
  | [] => []
  | backendHandle :: rest =>
    (backendHandle.owned.map fun p => ⟨p, p ∈ present ++ rest.flatMap BackendHandle.owned⟩) ++
      destroyed present rest

/-- What the entries of a manager hold. -/
def HandleManager.held (m : HandleManager) : List Nat :=
  m.frontBackendHandleMap.toList.flatMap fun entry => entry.2.owned

/-- A manager, the local copies of backend handles, and what has been attached and freed. -/
structure PacketRun where
  manager : HandleManager
  locals : Nat → Option BackendHandle
  attached : List Nat
  freed : List FreeCall

/-- What the protocols do with backend handles. -/
inductive PacketCall
  /-- A local backend handle is made, with new packets. -/
  | create (i : Nat) (backendHandle : BackendHandle)
  | addBackendHandle (i : Nat) (frontHandle : FrontHandle) (useGlobalId : Bool)
  | addHandle (backendPreparedHandle backendCursorHandle hashCode : UInt32) (servns : Option Nat)
      (frontHandle : FrontHandle)
  /-- A backend handle is copied into a local. -/
  | getBackendHandle (i : Nat) (frontHandle : FrontHandle)
  | statPreparedSql (preparedHandle : UInt32)
  | removeHandle (frontHandle : FrontHandle)
  | removeHandleBaseCursor (cursorHandle : UInt32)
  | removeHandleBasePrepared (preparedHandle : UInt32)
  | setBackendServer (ns : Option Nat)
  /-- A local's life ends. -/
  | destroy (i : Nat)

namespace PacketRun

/-- Before anything is made. -/
def new : PacketRun := ⟨.new, fun _ => none, [], []⟩

/-- What a call makes of the manager and the locals. -/
def moved (s : PacketRun) : PacketCall → Option PacketRun
  | .create i backendHandle =>
    if s.locals i = none ∧ backendHandle.owned.Nodup ∧
        (∀ p ∈ backendHandle.owned, p ∉ s.attached) then
      some { s with
        locals := Function.update s.locals i (some backendHandle)
        attached := s.attached ++ backendHandle.owned }
    else none
  | .addBackendHandle i frontHandle useGlobalId => (s.locals i).map fun backendHandle =>
      { s with manager := (s.manager.addBackendHandle backendHandle frontHandle useGlobalId).2.2 }
  | .addHandle prepared cursor hashCode servns frontHandle =>
    some { s with manager := (s.manager.addHandle prepared cursor hashCode servns frontHandle).2.2 }
  | .getBackendHandle i frontHandle => (s.locals i).map fun _ =>
      match s.manager.getBackendHandle frontHandle with
      | some found => { s with locals := Function.update s.locals i (some found) }
      | none => s
  | .statPreparedSql _ => some s
  | .removeHandle frontHandle => some { s with manager := s.manager.removeHandle frontHandle }
  | .removeHandleBaseCursor cursorHandle =>
    some { s with manager := s.manager.removeHandleBaseCursor cursorHandle }
  | .removeHandleBasePrepared preparedHandle =>
    some { s with manager := s.manager.removeHandleBasePrepared preparedHandle }
  | .setBackendServer ns => some { s with manager := s.manager.setBackendServer ns }
  | .destroy i => (s.locals i).map fun _ => { s with locals := Function.update s.locals i none }

/-- The copies that a call destroys, in order. -/
def dead (s : PacketRun) : PacketCall → List BackendHandle
  -- The local copy of `stat_preparedSql` goes with its every return.
  | .statPreparedSql preparedHandle =>
    (s.manager.getBackendHandleBasePrepared preparedHandle).toList
  | .removeHandle frontHandle => (s.manager.getBackendHandle frontHandle).toList
  | .removeHandleBasePrepared preparedHandle =>
    (s.manager.getBackendHandle ⟨preparedHandle, 0⟩).toList
  | .removeHandleBaseCursor cursorHandle =>
    let rest := (s.manager.removeHandle ⟨0, cursorHandle⟩).frontBackendHandleMap.toList
    (s.manager.getBackendHandle ⟨0, cursorHandle⟩).toList ++
      (rest.filter fun entry => entry.1.cursorHandle = cursorHandle).map (·.2)
  | .destroy i => (s.locals i).toList
  | _ => []

/-- What a call leaves, with the packets freed that the destroyed copies hold. -/
def next (s : PacketRun) (call : PacketCall) : Option PacketRun :=
  (s.moved call).map fun t =>
    { t with freed := s.freed ++ destroyed t.manager.held (s.dead call) }

/-- The packets freed so far. -/
def freedPointers (s : PacketRun) : List Nat := s.freed.map (·.dataPointer)

/-- No packet has been freed twice, and none while an entry held it. -/
def FreedOnce (s : PacketRun) : Prop := s.freedPointers.Nodup ∧ ∀ c ∈ s.freed, c.held = false

/-- An entry or a local holds a packet. -/
def Holds (s : PacketRun) (p : Nat) : Prop :=
  p ∈ s.manager.held ∨ ∃ i backendHandle, s.locals i = some backendHandle ∧ p ∈ backendHandle.owned

/-- The packets of the copies that a call destroys. -/
def deadPointers (s : PacketRun) (call : PacketCall) : List Nat :=
  (s.dead call).flatMap BackendHandle.owned

/-- The copies that a call destroys are the last ones that hold their packets. -/
def DestroysLast (s : PacketRun) (call : PacketCall) : Prop :=
  ∀ t, s.moved call = some t →
    (s.deadPointers call).Nodup ∧ ∀ p ∈ s.deadPointers call, ¬ t.Holds p

/-- A call copies no backend handle over one that holds packets. -/
def Overwrites (s : PacketRun) : PacketCall → Prop
  | .getBackendHandle i _ => ∃ backendHandle, s.locals i = some backendHandle ∧
      backendHandle.owned ≠ []
  | _ => False

end PacketRun

/-! ## Destructors -/

/-- The destructors free what the copies hold, in order. -/
theorem destroyed_pointers (present : List Nat) (dead : List BackendHandle) :
    (destroyed present dead).map (·.dataPointer) = dead.flatMap BackendHandle.owned := by
  induction dead with
  | nil => rfl
  | cons backendHandle rest ih =>
    have first : (backendHandle.owned.map fun p => (⟨p, p ∈ present ++ rest.flatMap
        BackendHandle.owned⟩ : FreeCall)).map (·.dataPointer) = backendHandle.owned := by
      rw [List.map_map]
      exact List.map_id _
    rw [destroyed, List.map_append, ih, first, List.flatMap_cons]

/-- Packets that nobody else holds are not freed while an entry holds them. -/
theorem destroyed_not_held {present : List Nat} {dead : List BackendHandle}
    (nodup : (dead.flatMap BackendHandle.owned).Nodup)
    (apart : ∀ p ∈ dead.flatMap BackendHandle.owned, p ∉ present) :
    ∀ c ∈ destroyed present dead, c.held = false := by
  induction dead with
  | nil => simp [destroyed]
  | cons backendHandle rest ih =>
    rw [List.flatMap_cons, List.nodup_append'] at nodup
    obtain ⟨_, later, disjoint⟩ := nodup
    intro c member
    rcases List.mem_append.mp member with first | second
    · obtain ⟨p, inside, rfl⟩ := List.mem_map.mp first
      simp only [decide_eq_false_iff_not, List.mem_append, not_or]
      exact ⟨apart p (by simp [inside]), fun shared => disjoint inside shared⟩
    · refine ih later (fun p inside => apart p ?_) c second
      rw [List.flatMap_cons]
      exact List.mem_append_right _ inside

/-- A packet that an entry keeps is freed while the entry holds it. -/
theorem held_of_destroyed {present : List Nat} {dead : List BackendHandle} {p : Nat}
    (inside : p ∈ dead.flatMap BackendHandle.owned) (kept : p ∈ present) :
    ∃ c ∈ destroyed present dead, c.held = true := by
  induction dead with
  | nil => simp at inside
  | cons backendHandle rest ih =>
    rw [List.flatMap_cons, List.mem_append] at inside
    rcases inside with first | later
    · refine ⟨⟨p, p ∈ present ++ rest.flatMap BackendHandle.owned⟩, ?_, by simp [kept]⟩
      exact List.mem_append_left _ (List.mem_map.mpr ⟨p, first, rfl⟩)
    · obtain ⟨c, member, held⟩ := ih later
      exact ⟨c, List.mem_append_right _ member, held⟩

/-! ## The entries -/

namespace HandleManager

variable {m : HandleManager} {p : Nat}

/-- What a manager holds is held by the entry of a front handle. -/
theorem mem_held : p ∈ m.held ↔ ∃ (key : FrontHandle) (backendHandle : BackendHandle),
    m.frontBackendHandleMap[key]? = some backendHandle ∧ p ∈ backendHandle.owned := by
  simp only [held, List.mem_flatMap, Prod.exists, Std.TreeMap.mem_toList_iff_getElem?_eq_some]

/-- Giving out a handle leaves the entries. -/
theorem held_of_map_eq {after : HandleManager}
    (same : after.frontBackendHandleMap = m.frontBackendHandleMap) : after.held = m.held := by
  rw [held, held, same]

/-- `add_handle` files the backend handle in one entry, or fails. -/
theorem map_addBackendHandle (m : HandleManager) (backendHandle : BackendHandle)
    (frontHandle : FrontHandle) (useGlobalId : Bool) :
    (m.addBackendHandle backendHandle frontHandle useGlobalId).2.2.frontBackendHandleMap =
        m.frontBackendHandleMap ∨
      ∃ key, (m.addBackendHandle backendHandle frontHandle useGlobalId).2.2.frontBackendHandleMap =
        m.frontBackendHandleMap.insert key backendHandle := by
  unfold addBackendHandle
  split
  · split
    · exact Or.inl rfl
    · next cursor m₁ gaveCursor =>
      have first := (giveHandle_spec gaveCursor).map
      split
      · exact Or.inl first
      · next prepared m₂ gavePrepared =>
        -- Neither id changes the map, so what is left is the one insertion.
        have second := (giveHandle_spec gavePrepared).map
        refine Or.inr ⟨⟨prepared, cursor⟩, ?_⟩
        exact congrArg (fun map => Std.TreeMap.insert map ⟨prepared, cursor⟩ backendHandle)
          (second.trans first)
  · exact Or.inr ⟨frontHandle, rfl⟩

/-- What is held after `add_handle` was held before, or is held by the copy. -/
theorem held_addBackendHandle {backendHandle : BackendHandle} {frontHandle : FrontHandle}
    {useGlobalId : Bool}
    (holds : p ∈ (m.addBackendHandle backendHandle frontHandle useGlobalId).2.2.held) :
    p ∈ m.held ∨ p ∈ backendHandle.owned := by
  rcases map_addBackendHandle m backendHandle frontHandle useGlobalId with same | ⟨key, filed⟩
  · exact Or.inl (held_of_map_eq same ▸ holds)
  · obtain ⟨other, found, entry, inside⟩ := mem_held.mp holds
    rw [filed, Std.TreeMap.getElem?_insert] at entry
    split at entry
    · obtain rfl := Option.some.inj entry
      exact Or.inr inside
    · exact Or.inl (mem_held.mpr ⟨other, found, entry, inside⟩)

/-- Erasing entries adds none. -/
theorem held_removeHandle {frontHandle : FrontHandle}
    (holds : p ∈ (m.removeHandle frontHandle).held) :
    p ∈ m.held := by
  obtain ⟨key, found, entry, inside⟩ := mem_held.mp holds
  rw [removeHandle_map, Std.TreeMap.getElem?_erase] at entry
  split at entry
  · cases entry
  · exact mem_held.mpr ⟨key, found, entry, inside⟩

/-- Neither does erasing those of a cursor. -/
theorem held_removeHandleBaseCursor {cursorHandle : UInt32}
    (holds : p ∈ (m.removeHandleBaseCursor cursorHandle).held) : p ∈ m.held := by
  obtain ⟨key, found, entry, inside⟩ := mem_held.mp holds
  rw [removeHandleBaseCursor, Std.TreeMap.getElem?_filter'] at entry
  obtain ⟨entry, _⟩ := Option.filter_eq_some_iff.mp entry
  exact held_removeHandle (mem_held.mpr ⟨key, found, entry, inside⟩)

/-- Filling in servers leaves the packets. -/
theorem held_setBackendServer {ns : Option Nat} (holds : p ∈ (m.setBackendServer ns).held) :
    p ∈ m.held := by
  obtain ⟨key, found, entry, inside⟩ := mem_held.mp holds
  rw [setBackendServer, Std.TreeMap.getElem?_map] at entry
  obtain ⟨old, before, rfl⟩ := Option.map_eq_some_iff.mp entry
  refine mem_held.mpr ⟨key, old, before, ?_⟩
  split at inside <;> exact inside

end HandleManager

/-! ## The calls -/

namespace PacketRun

variable {s t : PacketRun} {call : PacketCall} {p : Nat}

/-- What is held after a call was held before, or is new. -/
theorem holds_moved (moved : s.moved call = some t) (holds : t.Holds p) :
    s.Holds p ∨ ∃ i backendHandle, call = .create i backendHandle ∧ p ∈ backendHandle.owned := by
  cases call with
  | create i backendHandle =>
    simp only [PacketRun.moved] at moved
    split at moved
    · obtain rfl := Option.some.inj moved
      rcases holds with entry | ⟨j, found, there, inside⟩
      · exact Or.inl (Or.inl entry)
      · by_cases same : j = i
        · subst same
          obtain rfl : backendHandle = found := by simpa using there
          exact Or.inr ⟨j, backendHandle, rfl, inside⟩
        · exact Or.inl (Or.inr ⟨j, found, by simpa [same] using there, inside⟩)
    · exact absurd moved (by simp)
  | addBackendHandle i frontHandle useGlobalId =>
    obtain ⟨backendHandle, there, rfl⟩ := Option.map_eq_some_iff.mp moved
    rcases holds with entry | other
    · rcases HandleManager.held_addBackendHandle entry with before | inside
      · exact Or.inl (Or.inl before)
      · exact Or.inl (Or.inr ⟨i, backendHandle, there, inside⟩)
    · exact Or.inl (Or.inr other)
  | addHandle prepared cursor hashCode servns frontHandle =>
    obtain rfl := Option.some.inj moved
    rcases holds with entry | other
    · rcases HandleManager.held_addBackendHandle entry with before | inside
      · exact Or.inl (Or.inl before)
      · exact absurd inside (by simp [BackendHandle.owned])
    · exact Or.inl (Or.inr other)
  | getBackendHandle i frontHandle =>
    obtain ⟨old, there, rfl⟩ := Option.map_eq_some_iff.mp moved
    split at holds
    · next found entry =>
      -- A copy of an entry shares the entry's packets.
      rcases holds with kept | ⟨j, copied, here, inside⟩
      · exact Or.inl (Or.inl kept)
      · by_cases same : j = i
        · subst same
          obtain rfl : found = copied := by simpa using here
          exact Or.inl (Or.inl (HandleManager.mem_held.mpr ⟨frontHandle, found, entry, inside⟩))
        · exact Or.inl (Or.inr ⟨j, copied, by simpa [same] using here, inside⟩)
    · exact Or.inl holds
  | statPreparedSql preparedHandle =>
    obtain rfl := Option.some.inj moved
    exact Or.inl holds
  | removeHandle frontHandle | removeHandleBasePrepared preparedHandle =>
    obtain rfl := Option.some.inj moved
    exact Or.inl (holds.imp HandleManager.held_removeHandle id)
  | removeHandleBaseCursor cursorHandle =>
    obtain rfl := Option.some.inj moved
    exact Or.inl (holds.imp HandleManager.held_removeHandleBaseCursor id)
  | setBackendServer ns =>
    obtain rfl := Option.some.inj moved
    exact Or.inl (holds.imp HandleManager.held_setBackendServer id)
  | destroy i =>
    obtain ⟨old, there, rfl⟩ := Option.map_eq_some_iff.mp moved
    rcases holds with entry | ⟨j, found, here, inside⟩
    · exact Or.inl (Or.inl entry)
    · by_cases same : j = i
      · subst same
        -- What has been destroyed is no local any more.
        simp at here
      · exact Or.inl (Or.inr ⟨j, found, by simpa [same] using here, inside⟩)

/-- A new packet has not been attached before, and nothing is destroyed. -/
theorem create_spec {i : Nat} {backendHandle : BackendHandle}
    (moved : s.moved (.create i backendHandle) = some t) :
    (∀ p ∈ backendHandle.owned, p ∉ s.attached) ∧ t.attached =
      s.attached ++ backendHandle.owned := by
  simp only [PacketRun.moved] at moved
  split at moved
  · next new =>
    obtain rfl := Option.some.inj moved
    exact ⟨new.2.2, rfl⟩
  · exact absurd moved (by simp)

/-- No packet is forgotten, and moving frees none. -/
theorem attached_moved (moved : s.moved call = some t) :
    (∀ p ∈ s.attached, p ∈ t.attached) ∧ t.freed = s.freed := by
  cases call with
  | create i backendHandle =>
    simp only [PacketRun.moved] at moved
    split at moved
    · obtain rfl := Option.some.inj moved
      exact ⟨fun p before => List.mem_append_left _ before, rfl⟩
    · exact absurd moved (by simp)
  | getBackendHandle i frontHandle =>
    obtain ⟨old, there, rfl⟩ := Option.map_eq_some_iff.mp moved
    split <;> exact ⟨fun _ => id, rfl⟩
  | addBackendHandle | destroy =>
    obtain ⟨old, there, rfl⟩ := Option.map_eq_some_iff.mp moved
    exact ⟨fun _ => id, rfl⟩
  | _ =>
    obtain rfl := Option.some.inj moved
    exact ⟨fun _ => id, rfl⟩

/-- What a destroyed copy frees was held. -/
theorem holds_of_dead (inside : p ∈ s.deadPointers call) : s.Holds p := by
  obtain ⟨backendHandle, dead, owned⟩ := List.mem_flatMap.mp inside
  cases call with
  | statPreparedSql | removeHandle | removeHandleBasePrepared =>
    exact Or.inl (HandleManager.mem_held.mpr ⟨_, backendHandle, Option.mem_toList.mp dead, owned⟩)
  | removeHandleBaseCursor cursorHandle =>
    rcases List.mem_append.mp dead with first | rest
    · exact Or.inl (HandleManager.mem_held.mpr ⟨_, backendHandle,
        Option.mem_toList.mp first, owned⟩)
    · obtain ⟨entry, member, rfl⟩ := List.mem_map.mp rest
      have there := (List.mem_filter.mp member).1
      have held : p ∈ (s.manager.removeHandle ⟨0, cursorHandle⟩).held :=
        List.mem_flatMap.mpr ⟨entry, there, owned⟩
      exact Or.inl (HandleManager.held_removeHandle held)
  | destroy i => exact Or.inr ⟨i, backendHandle, Option.mem_toList.mp dead, owned⟩
  | _ => exact absurd dead List.not_mem_nil

/-! ## Runs -/

/-- What has been freed is held by no copy any more. -/
structure Owned (s : PacketRun) : Prop where
  once : s.FreedOnce
  gone : ∀ p ∈ s.freedPointers, p ∈ s.attached ∧ ¬ s.Holds p
  live : ∀ p, s.Holds p → p ∈ s.attached

/-- The freed packets after a call. -/
theorem next_spec (done : s.next call = some t) : ∃ u, s.moved call = some u ∧
    t.freed = s.freed ++ destroyed u.manager.held (s.dead call) ∧
    t.freedPointers = s.freedPointers ++ s.deadPointers call ∧ t.locals = u.locals ∧
    t.attached = u.attached ∧ t.manager = u.manager := by
  obtain ⟨u, moved, rfl⟩ := Option.map_eq_some_iff.mp done
  refine ⟨u, moved, rfl, ?_, rfl, rfl, rfl⟩
  simp only [freedPointers, List.map_append, destroyed_pointers]
  rfl

/-- Destroying last copies only leaves every packet with one end. -/
theorem owned_next (owned : Owned s) (last : s.DestroysLast call) (done : s.next call = some t) :
    Owned t := by
  obtain ⟨u, moved, freed, pointers, locals, attached, manager⟩ := next_spec done
  obtain ⟨nodup, gone⟩ := last u moved
  have same : ∀ p, t.Holds p ↔ u.Holds p := by
    intro p
    rw [Holds, Holds, locals, manager]
  have before := (attached_moved moved).1
  rw [← attached] at before
  refine ⟨⟨?_, ?_⟩, ?_, ?_⟩
  · -- What is destroyed was held, and what had been freed was not.
    rw [pointers, List.nodup_append']
    refine ⟨owned.once.1, nodup, fun p already again => ?_⟩
    exact (owned.gone p already).2 (holds_of_dead again)
  · intro c member
    rw [freed] at member
    rcases List.mem_append.mp member with old | new
    · exact owned.once.2 c old
    · exact destroyed_not_held nodup (fun p inside entry => gone p inside (Or.inl entry)) c new
  · intro p member
    rw [pointers] at member
    rw [same]
    rcases List.mem_append.mp member with old | new
    · refine ⟨before p (owned.gone p old).1, fun holds => ?_⟩
      rcases holds_moved moved holds with held | ⟨i, backendHandle, rfl, inside⟩
      · exact (owned.gone p old).2 held
      · exact (create_spec moved).1 p inside (owned.gone p old).1
    · exact ⟨before p (owned.live p (holds_of_dead new)), gone p new⟩
  · intro p holds
    rw [same] at holds
    rcases holds_moved moved holds with held | ⟨i, backendHandle, rfl, inside⟩
    · exact before p (owned.live p held)
    · rw [attached, (create_spec moved).2]
      exact List.mem_append_right _ inside

theorem owned_new : Owned new := by
  have empty : new.manager.held = [] := by
    rw [List.eq_nil_iff_forall_not_mem]
    intro p holds
    obtain ⟨key, found, entry, _⟩ := HandleManager.mem_held.mp holds
    simp [new, HandleManager.new] at entry
  refine ⟨⟨List.nodup_nil, by simp [new]⟩, by simp [new, freedPointers], ?_⟩
  rintro p (entry | ⟨i, backendHandle, there, _⟩)
  · simp [empty] at entry
  · simp [new] at there

/-- A packet has been freed that a local still holds. -/
def Dangles (s : PacketRun) : Prop :=
  ∃ p ∈ s.freedPointers, ∃ i backendHandle, s.locals i = some backendHandle ∧
    p ∈ backendHandle.owned

/-- What has been freed twice, or under an entry, stays so. -/
theorem freedOnce_of_next (done : s.next call = some t) (once : t.FreedOnce) : s.FreedOnce := by
  obtain ⟨u, _, freed, pointers, _⟩ := next_spec done
  obtain ⟨nodup, apart⟩ := once
  rw [pointers, List.nodup_append'] at nodup
  exact ⟨nodup.1, fun c member => apart c (by simp [freed, member])⟩

/-- A copy that is not the last one leaves a packet that is freed wrongly, or dangles. -/
theorem wrong_of_not_last (shared : ¬ s.DestroysLast call) (done : s.next call = some t) :
    ¬ t.FreedOnce ∨ t.Dangles := by
  obtain ⟨u, moved, freed, pointers, locals, _⟩ := next_spec done
  simp only [DestroysLast, not_forall] at shared
  obtain ⟨u', moved', shared⟩ := shared
  obtain rfl := Option.some.inj (moved.symm.trans moved')
  rw [not_and_or] at shared
  -- Either a packet is freed again, or somebody still holds what is freed.
  rcases shared with twice | kept
  · refine Or.inl fun once => twice ?_
    have nodup := once.1
    rw [pointers, List.nodup_append'] at nodup
    exact nodup.2.1
  · simp only [not_forall, not_not] at kept
    obtain ⟨p, inside, holds⟩ := kept
    rcases holds with entry | ⟨i, backendHandle, there, owned⟩
    · obtain ⟨c, member, held⟩ := held_of_destroyed inside entry
      refine Or.inl fun once => ?_
      rw [once.2 c (by simp [freed, member])] at held
      exact absurd held (by simp)
    · exact Or.inr ⟨p, by simp [pointers, inside], i, backendHandle, by rw [locals, there], owned⟩

/-- A packet that dangles is freed again with its local. -/
theorem dangles_next (dangles : s.Dangles) (spares : ¬ s.Overwrites call)
    (done : s.next call = some t) : ¬ t.FreedOnce ∨ t.Dangles := by
  obtain ⟨u, moved, _, pointers, locals, _⟩ := next_spec done
  obtain ⟨p, gone, i, backendHandle, there, inside⟩ := dangles
  have gone' : p ∈ t.freedPointers := by simp [pointers, gone]
  -- Only the end of its life takes away what the local holds.
  have stays : u.locals i = some backendHandle → ¬ t.FreedOnce ∨ t.Dangles := fun still =>
    Or.inr ⟨p, gone', i, backendHandle, locals ▸ still, inside⟩
  cases call with
  | create j new =>
    simp only [PacketRun.moved] at moved
    split at moved
    · next fresh =>
      obtain rfl := Option.some.inj moved
      have other : i ≠ j := by
        rintro rfl
        rw [fresh.1] at there
        exact absurd there (by simp)
      exact stays (by simpa [other] using there)
    · exact absurd moved (by simp)
  | getBackendHandle j frontHandle =>
    obtain ⟨old, target, rfl⟩ := Option.map_eq_some_iff.mp moved
    have other : i ≠ j := by
      rintro rfl
      exact spares ⟨backendHandle, there, List.ne_nil_of_mem inside⟩
    apply stays
    split
    · simpa [other] using there
    · exact there
  | destroy j =>
    obtain ⟨old, target, rfl⟩ := Option.map_eq_some_iff.mp moved
    by_cases same : i = j
    · subst same
      refine Or.inl fun once => ?_
      have nodup := once.1
      rw [pointers, List.nodup_append'] at nodup
      refine nodup.2.2 gone (List.mem_flatMap.mpr ⟨backendHandle, ?_, inside⟩)
      exact Option.mem_toList.mpr there
    · exact stays (by simpa [same] using there)
  | addBackendHandle j frontHandle useGlobalId =>
    obtain ⟨old, target, rfl⟩ := Option.map_eq_some_iff.mp moved
    exact stays there
  | _ =>
    obtain rfl := Option.some.inj moved
    exact stays there

/--
Each packet is freed at most once, and never while an entry holds it, in every run whose calls
destroy only the last copies that hold their packets; and where no local with packets is
overwritten and no local is left, only in these.
-/
theorem freed_once_iff {calls : List PacketCall} {s : PacketRun}
    (ran : exec next new calls = some s) :
    (EachStep next DestroysLast new calls → s.FreedOnce) ∧
      (EachStep next (fun s call => ¬ s.Overwrites call) new calls → (∀ i, s.locals i = none) →
        s.FreedOnce → EachStep next DestroysLast new calls) := by
  constructor
  · intro each
    exact (each.preserves (fun _ _ _ owned last done => owned_next owned last done) ran
      owned_new).once
  · intro spares left once
    -- A packet that is freed wrongly stays so, and one that dangles is freed again with its local.
    have stays : ∀ s call t, ¬ Overwrites s call → ¬ s.FreedOnce ∨ s.Dangles →
        s.next call = some t → ¬ t.FreedOnce ∨ t.Dangles := by
      rintro s call t spares (twice | dangles) done
      · exact Or.inl fun once => twice (freedOnce_of_next done once)
      · exact dangles_next dangles spares done
    have good : ¬ (¬ s.FreedOnce ∨ s.Dangles) := by
      rintro (twice | ⟨p, _, i, backendHandle, there, _⟩)
      · exact twice once
      · rw [left i] at there
        exact absurd there (by simp)
    exact @EachStep.of_end _ _ next DestroysLast _ (fun s => ¬ s.FreedOnce ∨ s.Dangles)
      (fun _ _ _ _ shared done => wrong_of_not_last shared done) stays _ _ _ spares ran good

/-- A backend handle that carries the packet it was prepared with. -/
def preparedHandle : BackendHandle := ⟨⟨7, 0⟩, 1, none, [⟨some 1, some 1⟩]⟩

/-- A local whose life ends before it is copied frees its packet once. -/
theorem freed_once_alone :
    ∃ s, exec next new [.create 0 preparedHandle, .destroy 0] = some s ∧ s.freedPointers = [1] ∧
      s.FreedOnce := by
  have run : (exec next new [.create 0 preparedHandle, .destroy 0]).map (·.freedPointers) =
      some [1] := by decide +kernel
  obtain ⟨s, ran, freed⟩ := Option.map_eq_some_iff.mp run
  refine ⟨s, ran, freed, (freed_once_iff ran).1 ⟨?_, fun t made => ⟨fun u moved => ?_, ?_⟩⟩⟩
  · exact fun _ _ => ⟨List.nodup_nil, fun p inside => absurd inside List.not_mem_nil⟩
  · obtain rfl := Option.some.inj made
    obtain rfl := Option.some.inj moved
    refine ⟨by decide, fun p _ holds => ?_⟩
    -- Neither an entry nor a local is left.
    rcases holds with entry | ⟨i, backendHandle, there, _⟩
    · exact absurd (owned_new.live p (Or.inl entry)) (by simp [new])
    · by_cases self : i = 0
      · simp [self] at there
      · simp [self, new] at there
  · exact fun _ _ => trivial

/-- The local's end frees the packet of the entry that was copied from it. -/
theorem added_freed_under_entry :
    ∃ s, exec next new [.create 0 preparedHandle, .addBackendHandle 0 .zero true, .destroy 0] =
        some s ∧ ¬ s.FreedOnce := by
  have run : (exec next new [.create 0 preparedHandle, .addBackendHandle 0 .zero true,
      .destroy 0]).map (·.freed) = some [⟨1, true⟩] := by decide +kernel
  obtain ⟨s, ran, freed⟩ := Option.map_eq_some_iff.mp run
  refine ⟨s, ran, fun once => ?_⟩
  have held := once.2 ⟨1, true⟩ (by simp [freed])
  exact absurd held (by simp)

end PacketRun

end OneProxy
