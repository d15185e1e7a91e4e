import OneProxy.Pool.ConnectionPool
import OneProxy.Pool.StoreLaws

/-! What each pool operation does to the idle deques and to the used entries. -/

namespace OneProxy.ConnectionPool

/-- The deque found under a hash, empty where there is none. -/
def idleAt (pool : ConnectionPool) (hash : UInt32) : List SockInfo := pool.idleSock[hash]?.getD []

/-- The idle sockets under a hash. -/
def idleIds (pool : ConnectionPool) (hash : UInt32) : List SocketId :=
  (pool.idleAt hash).map SockInfo.socket

/-- The entry found under a descriptor. -/
abbrev usedAt (pool : ConnectionPool) (fd : UInt32) : Option SockInfo := pool.usedSock[fd]?

/-- The hash a socket is returned to the pool under. -/
def hashOf (store : Store) (s : SocketId) : UInt32 :=
  (ConnPoolKey.ofSocket (store.object s)).keyHashCode

/-- An empty map holds nothing. -/
private theorem none_of_size {α : Type} {m : Std.TreeMap UInt32 α} (empty : m.size ≤ 0)
    (key : UInt32) : m[key]? = none := by
  have isEmpty : m.isEmpty := by
    rw [Std.TreeMap.isEmpty_eq_size_eq_zero]
    simpa using empty
  exact Std.TreeMap.getElem?_of_isEmpty isEmpty

/-- Nothing is idle in a new pool. -/
@[simp] theorem idleAt_new (now : UInt64) (hash : UInt32) : (new now).idleAt hash = [] := by
  simp [idleAt, new]

/-- Nothing is used in a new pool. -/
@[simp] theorem usedAt_new (now : UInt64) (fd : UInt32) : (new now).usedAt fd = none := by
  simp [new]

/--
What a get does: nothing, or the last idle entry under the request's hash is used from then on.
-/
theorem getBackendConnect_cases (pool : ConnectionPool) (store : Store) (dbAddr : Bytes)
    (port : UInt32) (connArgs : Bytes) :
    (pool.getBackendConnect store dbAddr port connArgs = (none, pool) ∧
        pool.idleAt (ConnPoolKey.mk dbAddr port connArgs).keyHashCode = []) ∨
      ∃ front si after, pool.getBackendConnect store dbAddr port connArgs =
        (some si.socket, after) ∧
        pool.idleAt (ConnPoolKey.mk dbAddr port connArgs).keyHashCode = front ++ [si] ∧
        (∀ hash, after.idleAt hash =
          if (ConnPoolKey.mk dbAddr port connArgs).keyHashCode = hash then front
          else pool.idleAt hash) ∧
        ∀ fd, after.usedAt fd =
          if store.fd si.socket = fd then some { si with startUseTime := pool.currentTime }
          else pool.usedAt fd := by
  unfold getBackendConnect
  generalize ConnPoolKey.mk dbAddr port connArgs = key
  by_cases empty : pool.idleSock.size ≤ 0
  · left
    simp only [if_pos empty, idleAt, none_of_size empty, true_and]
    rfl
  · simp only [if_neg empty]
    cases found : pool.idleSock[key.keyHashCode]? with
    | none => exact .inl ⟨rfl, by rw [idleAt, found]; rfl⟩
    | some sis =>
      have here : pool.idleAt key.keyHashCode = sis := by rw [idleAt, found]; rfl
      cases last : sis.getLast? with
      | none =>
        exact .inl ⟨by simp only [last], by rw [here]; exact List.getLast?_eq_none_iff.mp last⟩
      | some si =>
        obtain ⟨front, rfl⟩ := List.getLast?_eq_some_iff.mp last
        refine .inr ⟨front, si, _, by simp only [last]; rfl, here, fun hash => ?_, fun fd => ?_⟩
        · -- The popped deque replaces the one found, and no other.
          rw [idleAt, Std.TreeMap.getElem?_insert, List.dropLast_concat]
          simp only [Std.compare_eq_iff_eq]
          split
          · rfl
          · rfl
        · rw [usedAt, Std.TreeMap.getElem?_insert]
          simp only [Std.compare_eq_iff_eq]

/-- What a return does: nothing, or the entry used under the socket's descriptor becomes idle. -/
theorem setBackendConnect_cases (pool : ConnectionPool) (store : Store) (s : SocketId) :
    (pool.setBackendConnect store s = (-1, pool) ∧ pool.usedAt (store.fd s) = none) ∨
      ∃ si after, pool.setBackendConnect store s = (0, after) ∧
        pool.usedAt (store.fd s) = some si ∧
        (∀ hash, after.idleAt hash =
          if hashOf store s = hash then
            pool.idleAt hash ++ [{ si with startUseTime := pool.currentTime }]
          else pool.idleAt hash) ∧
        ∀ fd, after.usedAt fd = if store.fd s = fd then none else pool.usedAt fd := by
  -- The entry goes from the map of the used ones to the end of its deque.
  unfold setBackendConnect
  by_cases empty : pool.usedSock.size ≤ 0
  · exact .inl ⟨if_pos empty, none_of_size empty _⟩
  · simp only [if_neg empty]
    cases found : pool.usedSock[store.fd s]? with
    | none => exact .inl ⟨rfl, found⟩
    | some si =>
      refine .inr ⟨si, _, rfl, found, fun hash => ?_, fun fd => ?_⟩
      · show (pool.idleSock.alter (hashOf store s) _)[hash]?.getD [] = _
        rw [Std.TreeMap.getElem?_alter]
        simp only [Std.compare_eq_iff_eq]
        by_cases same : hashOf store s = hash
        · rw [if_pos same, if_pos same, idleAt, same]
          rfl
        · rw [if_neg same, if_neg same]
          rfl
      · rw [usedAt, Std.TreeMap.getElem?_erase]
        simp only [Std.compare_eq_iff_eq]

/-- A socket saved in use is found under its descriptor. -/
theorem saveBackendConnect_used (pool : ConnectionPool) (store : Store) (s : SocketId)
    (freeSocket activeFunc : Bool) :
    (∀ hash, (pool.saveBackendConnect store s freeSocket activeFunc true).idleAt hash =
      pool.idleAt hash) ∧
    ∀ fd, (pool.saveBackendConnect store s freeSocket activeFunc true).usedAt fd =
      if store.fd s = fd then some ⟨s, freeSocket, activeFunc, pool.currentTime⟩
      else pool.usedAt fd := by
  refine ⟨fun hash => rfl, fun fd => ?_⟩
  rw [usedAt, show (pool.saveBackendConnect store s freeSocket activeFunc true).usedSock =
    pool.usedSock.insert (store.fd s) ⟨s, freeSocket, activeFunc, pool.currentTime⟩ from rfl,
    Std.TreeMap.getElem?_insert]
  simp only [Std.compare_eq_iff_eq]

/-- A socket saved idle is the first one under its hash. -/
theorem saveBackendConnect_idle (pool : ConnectionPool) (store : Store) (s : SocketId)
    (freeSocket activeFunc : Bool) :
    (∀ hash, (pool.saveBackendConnect store s freeSocket activeFunc false).idleAt hash =
      if hashOf store s = hash then ⟨s, freeSocket, activeFunc, 0⟩ :: pool.idleAt hash
      else pool.idleAt hash) ∧
    ∀ fd, (pool.saveBackendConnect store s freeSocket activeFunc false).usedAt fd =
      pool.usedAt fd := by
  refine ⟨fun hash => ?_, fun fd => rfl⟩
  show (pool.idleSock.alter (hashOf store s) _)[hash]?.getD [] = _
  rw [Std.TreeMap.getElem?_alter]
  simp only [Std.compare_eq_iff_eq]
  by_cases same : hashOf store s = hash
  · rw [if_pos same, if_pos same, idleAt, same]
    rfl
  · rw [if_neg same, if_neg same]
    rfl

/-- What a release does: nothing, or the entry used under the socket's descriptor is destroyed. -/
theorem releaseBackendSocket_cases (pool : ConnectionPool) (store : Store) (s : SocketId) :
    (pool.releaseBackendSocket store s = (store, pool) ∧ pool.usedAt (store.fd s) = none) ∨
      ∃ si after, pool.releaseBackendSocket store s = (si.delete store, after) ∧
        pool.usedAt (store.fd s) = some si ∧
        (∀ hash, after.idleAt hash = pool.idleAt hash) ∧
        ∀ fd, after.usedAt fd = if store.fd s = fd then none else pool.usedAt fd := by
  unfold releaseBackendSocket
  by_cases empty : pool.usedSock.size ≤ 0
  · exact .inl ⟨if_pos empty, none_of_size empty _⟩
  · simp only [if_neg empty]
    cases found : pool.usedSock[store.fd s]? with
    | none => exact .inl ⟨rfl, found⟩
    | some si =>
      refine .inr ⟨si, _, rfl, found, fun hash => rfl, fun fd => ?_⟩
      rw [usedAt, Std.TreeMap.getElem?_erase]
      simp only [Std.compare_eq_iff_eq]

/-- The walk keeps entries in their order. -/
theorem sweep_sublist (pool : ConnectionPool) (active : SocketId → Bool) (sid : List SockInfo) :
    (pool.sweep active sid).1.Sublist sid := by
  induction sid with
  | nil => exact List.Sublist.refl _
  | cons si rest ih =>
    unfold sweep
    split
    · exact List.Sublist.refl _
    · dsimp only
      split
      · exact ih.cons si
      · split
        · exact ih.cons_cons si
        · split
          · exact ih.cons si
          · exact ih.cons_cons si

/-- The walk keeps or destroys each entry, and never does both. -/
theorem sweep_perm (pool : ConnectionPool) (active : SocketId → Bool) (sid : List SockInfo) :
    ((pool.sweep active sid).1 ++ (pool.sweep active sid).2).Perm sid := by
  induction sid with
  | nil => exact List.Perm.refl _
  | cons si rest ih =>
    -- An entry that is destroyed is moved from the front of the list past those kept.
    have moved : ((pool.sweep active rest).1 ++ si :: (pool.sweep active rest).2).Perm
        (si :: rest) :=
      List.perm_middle.trans (ih.cons si)
    unfold sweep
    split
    · rw [List.append_nil]
    · dsimp only
      split
      · exact moved
      · split
        · exact ih.cons si
        · split
          · exact moved
          · exact ih.cons si

/-- The entries a check of all deques destroys. -/
def dropped (pool : ConnectionPool) (before : UInt64) (active : SocketId → Bool) : List SockInfo :=
  pool.idleSock.toList.flatMap fun (_, sid) =>
    (sweep { pool with currentTime := before } active sid).2

/-- A destroyed entry was idle, and is idle no more. -/
theorem mem_dropped (pool : ConnectionPool) (before : UInt64) (active : SocketId → Bool)
    {si : SockInfo} : si ∈ pool.dropped before active ↔
      ∃ hash, si ∈ (sweep { pool with currentTime := before } active (pool.idleAt hash)).2 := by
  simp only [dropped, List.mem_flatMap, Prod.exists]
  constructor
  · rintro ⟨hash, sid, member, gone⟩
    have found := Std.TreeMap.mem_toList_iff_getElem?_eq_some.mp member
    exact ⟨hash, by rw [idleAt, found]; exact gone⟩
  · rintro ⟨hash, gone⟩
    cases found : pool.idleSock[hash]? with
    | none =>
      rw [idleAt, found] at gone
      simp [sweep] at gone
    | some sid =>
      rw [idleAt, found] at gone
      exact ⟨hash, sid, Std.TreeMap.mem_toList_iff_getElem?_eq_some.mpr found, gone⟩

/-- A check keeps in each deque what the walk keeps, and leaves the used entries alone. -/
theorem checkConnectActive_spec (pool : ConnectionPool) (store : Store) (before after : UInt64)
    (active : SocketId → Bool) :
    (pool.checkConnectActive store before after active).1 =
        (pool.dropped before active).foldl SockInfo.delete store ∧
      (∀ hash, (pool.checkConnectActive store before after active).2.idleAt hash =
        (sweep { pool with currentTime := before } active (pool.idleAt hash)).1) ∧
      (pool.checkConnectActive store before after active).2.usedSock = pool.usedSock := by
  refine ⟨rfl, fun hash => ?_, rfl⟩
  show (pool.idleSock.map _)[hash]?.getD [] = _
  rw [Std.TreeMap.getElem?_map, idleAt]
  cases pool.idleSock[hash]? <;> rfl

/-- All idle sockets. -/
def idleSockets (pool : ConnectionPool) : List SocketId :=
  pool.idleSock.toList.flatMap fun entry => entry.2.map SockInfo.socket

/-- All used sockets. -/
def usedSockets (pool : ConnectionPool) : List SocketId :=
  pool.usedSock.toList.map fun entry => entry.2.socket

/-- The idle sockets are those under some hash. -/
theorem mem_idleSockets {pool : ConnectionPool} {s : SocketId} :
    s ∈ pool.idleSockets ↔ ∃ hash, s ∈ pool.idleIds hash := by
  simp only [idleSockets, List.mem_flatMap, Prod.exists]
  constructor
  · rintro ⟨hash, sid, member, inside⟩
    have found := Std.TreeMap.mem_toList_iff_getElem?_eq_some.mp member
    exact ⟨hash, by rw [idleIds, idleAt, found]; exact inside⟩
  · rintro ⟨hash, inside⟩
    rw [idleIds, idleAt] at inside
    cases found : pool.idleSock[hash]? with
    | none =>
      rw [found] at inside
      simp at inside
    | some sid =>
      rw [found] at inside
      exact ⟨hash, sid, Std.TreeMap.mem_toList_iff_getElem?_eq_some.mpr found, inside⟩

/-- The used sockets are those of the used entries. -/
theorem mem_usedSockets {pool : ConnectionPool} {s : SocketId} :
    s ∈ pool.usedSockets ↔ ∃ fd si, pool.usedAt fd = some si ∧ si.socket = s := by
  simp only [usedSockets, List.mem_map, Prod.exists]
  constructor
  · rintro ⟨fd, si, member, same⟩
    exact ⟨fd, si, Std.TreeMap.mem_toList_iff_getElem?_eq_some.mp member, same⟩
  · rintro ⟨fd, si, found, same⟩
    exact ⟨fd, si, Std.TreeMap.mem_toList_iff_getElem?_eq_some.mpr found, same⟩

end OneProxy.ConnectionPool
