import OneProxy.Pool.Store

/-! What the operations on socket objects do, and the descriptors of live sockets. -/

namespace OneProxy.Store

section Laws

variable (store : Store) (s : SocketId)

/-- Changing a database changes no socket. -/
@[simp] theorem updateDataBase_object (db : DataBaseId) (f : DataBase → DataBase) :
    (store.updateDataBase db f).object = store.object := rfl

/-- Changing a database destroys no socket. -/
@[simp] theorem updateDataBase_freed (db : DataBaseId) (f : DataBase → DataBase) :
    (store.updateDataBase db f).freed = store.freed := rfl

/-- Changing a database makes no socket. -/
@[simp] theorem updateDataBase_made (db : DataBaseId) (f : DataBase → DataBase) :
    (store.updateDataBase db f).made = store.made := rfl

/-- A destroyed object keeps its contents. -/
@[simp] theorem delete_object : (store.delete s).object = store.object := by
  unfold delete
  dsimp only
  split <;> rfl

/-- Destroying an object makes none. -/
@[simp] theorem delete_made : (store.delete s).made = store.made := by
  unfold delete
  dsimp only
  split <;> rfl

/-- Destroying an object is recorded. -/
@[simp] theorem delete_freed : (store.delete s).freed = store.freed ++ [s] := by
  unfold delete
  dsimp only
  split <;> rfl

/-- A destroyed object keeps its descriptor number. -/
@[simp] theorem delete_fd (other : SocketId) : (store.delete s).fd other = store.fd other := by
  rw [fd, delete_object, fd]

/-- Destroying an object leaves exactly the other live ones. -/
theorem live_delete (other : SocketId) :
    (store.delete s).Live other ↔ store.Live other ∧ other ≠ s := by
  simp only [Live, delete_made, delete_freed, List.mem_append, List.mem_singleton]
  tauto

/-- Changing a database matters to no socket's life. -/
@[simp] theorem live_updateDataBase (db : DataBaseId) (f : DataBase → DataBase) (other : SocketId) :
    (store.updateDataBase db f).Live other ↔ store.Live other := Iff.rfl

/-- Changing an object matters to no socket's life. -/
@[simp] theorem live_update (f : NetworkSocket → NetworkSocket) (other : SocketId) :
    (store.update s f).Live other ↔ store.Live other := Iff.rfl

/-- The object that is changed. -/
@[simp] theorem update_object_self (f : NetworkSocket → NetworkSocket) :
    (store.update s f).object s = f (store.object s) := Function.update_self _ _ _

/-- The objects that are not changed. -/
theorem update_object_of_ne (f : NetworkSocket → NetworkSocket) {other : SocketId}
    (differs : other ≠ s) : (store.update s f).object other = store.object other :=
  Function.update_of_ne differs _ _

/-- A change that keeps the descriptor changes no descriptor. -/
theorem fd_update {f : NetworkSocket → NetworkSocket} (keeps : ∀ ns, (f ns).fd = ns.fd)
    (other : SocketId) : (store.update s f).fd other = store.fd other := by
  by_cases same : other = s
  · subst same
    rw [fd, update_object_self, keeps, fd]
  · rw [fd, update_object_of_ne store s f same, fd]

/-- A change that keeps the status changes no status. -/
theorem status_update {f : NetworkSocket → NetworkSocket} (keeps : ∀ ns, (f ns).status = ns.status)
    (other : SocketId) : ((store.update s f).object other).status =
      (store.object other).status := by
  by_cases same : other = s
  · subst same
    rw [update_object_self, keeps]
  · rw [update_object_of_ne store s f same]

/-- A new object is live from then on. -/
theorem live_alloc (ns : NetworkSocket) (sound : ∀ gone ∈ store.freed, gone < store.made)
    (other : SocketId) :
    (store.alloc ns).Live other ↔ store.Live other ∨ other = store.made := by
  show other < store.made + 1 ∧ other ∉ store.freed ↔
    (other < store.made ∧ other ∉ store.freed) ∨ other = store.made
  constructor
  · rintro ⟨below, present⟩
    rcases Nat.lt_or_ge other store.made with old | new
    · exact .inl ⟨old, present⟩
    · exact .inr (Nat.le_antisymm (Nat.lt_succ_iff.mp below) new)
  · rintro (⟨below, present⟩ | rfl)
    · exact ⟨Nat.lt_succ_of_lt below, present⟩
    · refine ⟨Nat.lt_succ_self _, fun gone => ?_⟩
      exact Nat.lt_irrefl _ (sound _ gone)

/-- The objects there already are as before. -/
theorem alloc_object_of_lt (ns : NetworkSocket) {other : SocketId} (old : other < store.made) :
    (store.alloc ns).object other = store.object other :=
  Function.update_of_ne (Nat.ne_of_lt old) _ _

/-- The new object is the one asked for. -/
@[simp] theorem alloc_object_made (ns : NetworkSocket) :
    (store.alloc ns).object store.made = ns := Function.update_self _ _ _

/-- The objects there already keep their descriptors. -/
theorem fd_alloc_of_lt (ns : NetworkSocket) {other : SocketId} (old : other < store.made) :
    (store.alloc ns).fd other = store.fd other := by
  rw [fd, alloc_object_of_lt store ns old, fd]

/-- Changing an object makes none. -/
@[simp] theorem update_made (f : NetworkSocket → NetworkSocket) :
    (store.update s f).made = store.made :=
  rfl

/-- Changing an object destroys none. -/
@[simp] theorem update_freed (f : NetworkSocket → NetworkSocket) :
    (store.update s f).freed = store.freed := rfl

/-- One object more has been made. -/
@[simp] theorem alloc_made (ns : NetworkSocket) : (store.alloc ns).made = store.made + 1 := rfl

/-- Making an object destroys none. -/
@[simp] theorem alloc_freed (ns : NetworkSocket) : (store.alloc ns).freed = store.freed := rfl

/-- The other objects keep their descriptors. -/
theorem fd_update_of_ne (f : NetworkSocket → NetworkSocket) {other : SocketId}
    (differs : other ≠ s) :
    (store.update s f).fd other = store.fd other := by
  rw [fd, update_object_of_ne store s f differs, fd]

/-- Changing a database changes no descriptor. -/
@[simp] theorem fd_updateDataBase (db : DataBaseId) (f : DataBase → DataBase) (other : SocketId) :
    (store.updateDataBase db f).fd other = store.fd other := rfl

end Laws

/-- No two live sockets share an open descriptor, and only made objects were ever destroyed. -/
structure Sound (store : Store) : Prop where
  freedMade : ∀ gone ∈ store.freed, gone < store.made
  fdsDistinct : ∀ s other, store.Live s → store.Live other → store.fd s ≠ 0 →
    store.fd s = store.fd other → s = other

/-- Destroying a live object keeps the rest sound. -/
theorem Sound.delete {store : Store} (sound : store.Sound) {s : SocketId} (made : s < store.made) :
    (store.delete s).Sound where
  freedMade gone member := by
    rw [delete_freed] at member
    rw [delete_made]
    rcases List.mem_append.mp member with old | new
    · exact sound.freedMade gone old
    · rw [List.mem_singleton.mp new]
      exact made
  fdsDistinct a b aLive bLive := by
    rw [delete_fd, delete_fd]
    exact sound.fdsDistinct a b ((live_delete _ _ _).mp aLive).1 ((live_delete _ _ _).mp bLive).1

/-- An object without descriptor may always be made. -/
theorem Sound.alloc {store : Store} (sound : store.Sound) {ns : NetworkSocket}
    (closed : ns.fd = 0) :
    (store.alloc ns).Sound where
  freedMade gone member := Nat.lt_succ_of_lt (sound.freedMade gone member)
  fdsDistinct a b aLive bLive some_ same := by
    have old : ∀ x, (store.alloc ns).Live x → (store.alloc ns).fd x ≠ 0 →
        store.Live x ∧ (store.alloc ns).fd x = store.fd x := by
      intro x live open_
      rcases (live_alloc store ns sound.freedMade x).mp live with before | rfl
      · exact ⟨before, by rw [fd, alloc_object_of_lt store ns before.1, fd]⟩
      · rw [fd, alloc_object_made] at open_
        exact absurd closed open_
    obtain ⟨aOld, aFd⟩ := old a aLive some_
    obtain ⟨bOld, bFd⟩ := old b bLive (same ▸ some_)
    rw [aFd] at some_ same
    rw [bFd] at same
    exact sound.fdsDistinct a b aOld bOld some_ same

/-- A change that keeps the descriptor keeps the store sound. -/
theorem Sound.update {store : Store} (sound : store.Sound) {s : SocketId}
    {f : NetworkSocket → NetworkSocket} (keeps : ∀ ns, (f ns).fd = ns.fd) :
    (store.update s f).Sound where
  freedMade := sound.freedMade
  fdsDistinct a b aLive bLive := by
    rw [fd_update store s keeps, fd_update store s keeps]
    exact sound.fdsDistinct a b aLive bLive

/-- Databases do not matter to the sockets. -/
theorem Sound.updateDataBase {store : Store} (sound : store.Sound) (db : DataBaseId)
    (f : DataBase → DataBase) : (store.updateDataBase db f).Sound :=
  ⟨sound.freedMade, sound.fdsDistinct⟩

/-- The kernel opens a descriptor for one object that had none. -/
theorem Sound.open {store : Store} (sound : store.Sound) {s : SocketId} {new : UInt32}
    (fresh : store.FreshFd new) :
    (store.update s fun ns => { ns with fd := new }).Sound where
  freedMade := sound.freedMade
  fdsDistinct a b aLive bLive some_ same := by
    have others : ∀ x, x ≠ s →
        (store.update s fun ns => { ns with fd := new }).fd x = store.fd x := by
      intro x differs
      rw [fd, update_object_of_ne _ _ _ differs, fd]
    have self : (store.update s fun ns => { ns with fd := new }).fd s = new := by
      rw [fd, update_object_self]
    -- The new descriptor is no live object's, so that the pair has to be an old one.
    by_cases aSame : a = s <;> by_cases bSame : b = s
    · rw [aSame, bSame]
    · subst aSame
      rw [self, others b bSame] at same
      exact absurd same.symm (fresh.2 b bLive.1 bLive.2)
    · subst bSame
      rw [self, others a aSame] at same
      exact absurd same (fresh.2 a aLive.1 aLive.2)
    · rw [others a aSame] at some_ same
      rw [others b bSame] at same
      exact sound.fdsDistinct a b aLive bLive some_ same

/-- One more socket has been made, and those there already are as before. -/
structure OneMore (store after : Store) : Prop where
  sound : after.Sound
  made : after.made = store.made + 1
  live : ∀ s, after.Live s ↔ store.Live s ∨ s = store.made
  fd : ∀ s < store.made, after.fd s = store.fd s

/-- Making a socket makes one more. -/
theorem oneMore_alloc {store : Store} (sound : store.Sound) {ns : NetworkSocket}
    (closed : ns.fd = 0) :
    OneMore store (store.alloc ns) where
  sound := sound.alloc closed
  made := rfl
  live := live_alloc store ns sound.freedMade
  fd _ old := fd_alloc_of_lt store ns old

/-- Opening the new socket does nothing to the others. -/
theorem OneMore.open {store after : Store} (more : OneMore store after) {new : UInt32}
    (fresh : after.FreshFd new) :
    OneMore store (after.update store.made fun ns => { ns with fd := new }) where
  sound := more.sound.open fresh
  made := more.made
  live := more.live
  fd s old := by
    rw [fd_update_of_ne _ _ _ (Nat.ne_of_lt old)]
    exact more.fd s old

/-- Changes that keep all descriptors keep the account of what was made. -/
theorem OneMore.update {store after : Store} (more : OneMore store after) (s : SocketId)
    {f : NetworkSocket → NetworkSocket} (keeps : ∀ ns, (f ns).fd = ns.fd) :
    OneMore store (after.update s f) where
  sound := more.sound.update keeps
  made := more.made
  live := more.live
  fd other old := by
    rw [fd_update after s keeps]
    exact more.fd other old

/-- Databases do not matter to what was made. -/
theorem OneMore.updateDataBase {store after : Store} (more : OneMore store after) (db : DataBaseId)
    (f : DataBase → DataBase) : OneMore store (after.updateDataBase db f) where
  sound := more.sound.updateDataBase db f
  made := more.made
  live := more.live
  fd := more.fd

end OneProxy.Store
