import OneProxy.Pool.ConnectionPoolLaws

/-! The representation of the pool: who is where, and which operations keep it so. -/

namespace OneProxy

open ConnectionPool

/--
What holds of a pool even where sockets were destroyed behind its back.

An entry for a destroyed socket is found under the descriptor the socket had, until a live socket
with that descriptor takes its place.
-/
structure PoolCore (store : Store) (pool : ConnectionPool) : Prop where
  idleLive : ∀ hash s, s ∈ pool.idleIds hash → store.Live s
  idleOpen : ∀ hash s, s ∈ pool.idleIds hash → store.fd s ≠ 0
  idleNodup : ∀ hash, (pool.idleIds hash).Nodup
  idleApart : ∀ hash hash' s, s ∈ pool.idleIds hash → s ∈ pool.idleIds hash' → hash = hash'
  usedFd : ∀ fd si, pool.usedAt fd = some si → store.Live si.socket → store.fd si.socket = fd
  usedOpen : ∀ fd si, pool.usedAt fd = some si → fd ≠ 0
  usedApart : ∀ fd si hash, pool.usedAt fd = some si → si.socket ∉ pool.idleIds hash

/-- An idle socket is idle once. -/
theorem PoolCore.count_idleSockets {store : Store} {pool : ConnectionPool}
    (core : PoolCore store pool)
    {hash : UInt32} {s : SocketId} (idle : s ∈ pool.idleIds hash) :
    pool.idleSockets.count s = 1 := by
  have deque : ∀ entry ∈ pool.idleSock.toList, entry.2.map SockInfo.socket =
      pool.idleIds entry.1 := by
    intro entry member
    have found := Std.TreeMap.mem_toList_iff_getElem?_eq_some.mp member
    rw [idleIds, idleAt, found]
    rfl
  refine List.count_eq_one_of_mem ?_ (mem_idleSockets.mpr ⟨hash, idle⟩)
  rw [idleSockets, List.nodup_flatMap]
  constructor
  · intro entry member
    rw [deque entry member]
    exact core.idleNodup entry.1
  · -- Two deques with a socket in common are under one hash.
    refine Std.TreeMap.distinct_keys_toList.imp_of_mem ?_
    intro a b inA inB differs other here there
    exact differs (Std.LawfulEqCmp.compare_eq_iff_eq.mpr
      (core.idleApart a.1 b.1 other (deque a inA ▸ here)
      (deque b inB ▸ there)))

/-- Every used entry is about a socket that has not been destroyed. -/
def UsedLive (store : Store) (pool : ConnectionPool) : Prop :=
  ∀ fd si, pool.usedAt fd = some si → store.Live si.socket

/--
The representation invariant of the pool.

No entry is about a destroyed socket, no socket is at two places, and a used entry is found under
the descriptor of its socket.
-/
structure PoolOk (store : Store) (pool : ConnectionPool) : Prop where
  idleLive : ∀ hash, ∀ s ∈ pool.idleIds hash, store.Live s
  usedLive : ∀ fd si, pool.usedAt fd = some si → store.Live si.socket
  oneDeque : ∀ hash hash' s, s ∈ pool.idleIds hash → s ∈ pool.idleIds hash' → hash = hash'
  onceInDeque : ∀ hash, (pool.idleIds hash).Nodup
  idleOrUsed : ∀ fd si hash, pool.usedAt fd = some si → si.socket ∉ pool.idleIds hash
  usedFd : ∀ fd si, pool.usedAt fd = some si → store.fd si.socket = fd

/-- With every used socket alive, the core is the whole invariant. -/
theorem PoolCore.ok {store : Store} {pool : ConnectionPool} (core : PoolCore store pool)
    (used : UsedLive store pool) : PoolOk store pool where
  idleLive := core.idleLive
  usedLive := used
  oneDeque := core.idleApart
  onceInDeque := core.idleNodup
  idleOrUsed := core.usedApart
  usedFd fd si found := core.usedFd fd si found (used fd si found)

/-- A new pool is in order, whatever sockets there are. -/
theorem poolCore_new (store : Store) (now : UInt64) : PoolCore store (.new now) := by
  constructor <;> simp [idleIds]

/-- A new pool has no used entry. -/
theorem usedLive_new (store : Store) (now : UInt64) : UsedLive store (.new now) := by
  intro fd si found
  simp at found

/-- The settings and times of a pool do not matter to its entries. -/
theorem PoolCore.of_entries {store : Store} {pool after : ConnectionPool}
    (core : PoolCore store pool) (idle : ∀ hash, after.idleIds hash = pool.idleIds hash)
    (used : ∀ fd, after.usedAt fd = pool.usedAt fd) : PoolCore store after := by
  constructor
  · intro hash s member
    exact core.idleLive hash s (idle hash ▸ member)
  · intro hash s member
    exact core.idleOpen hash s (idle hash ▸ member)
  · intro hash
    exact (idle hash).symm ▸ core.idleNodup hash
  · intro hash hash' s member member'
    exact core.idleApart hash hash' s (idle hash ▸ member) (idle hash' ▸ member')
  · intro fd si found
    exact core.usedFd fd si (used fd ▸ found)
  · intro fd si found
    exact core.usedOpen fd si (used fd ▸ found)
  · intro fd si hash found member
    exact core.usedApart fd si hash (used fd ▸ found) (idle hash ▸ member)

/-- Changes of the store that keep the idle sockets and bring none back to life keep the pool. -/
theorem PoolCore.of_store {store after : Store} {pool : ConnectionPool}
    (core : PoolCore store pool)
    (idle : ∀ hash s, s ∈ pool.idleIds hash → after.Live s ∧ after.fd s = store.fd s)
    (used : ∀ fd si, pool.usedAt fd = some si → after.Live si.socket →
      store.Live si.socket ∧ after.fd si.socket = store.fd si.socket) :
    PoolCore after pool where
  idleLive hash s member := (idle hash s member).1
  idleOpen hash s member := by
    rw [(idle hash s member).2]
    exact core.idleOpen hash s member
  idleNodup := core.idleNodup
  idleApart := core.idleApart
  usedFd fd si found live := by
    obtain ⟨before, same⟩ := used fd si found live
    rw [same]
    exact core.usedFd fd si found before
  usedOpen := core.usedOpen
  usedApart := core.usedApart

/-- Destroying a socket that is not idle keeps the core. -/
theorem PoolCore.delete {store : Store} {pool : ConnectionPool} (core : PoolCore store pool)
    {s : SocketId} (notIdle : ∀ hash, s ∉ pool.idleIds hash) : PoolCore (store.delete s) pool := by
  refine core.of_store (fun hash other member => ⟨?_, Store.delete_fd _ _ _⟩) ?_
  · refine (Store.live_delete _ _ _).mpr ⟨core.idleLive hash other member, ?_⟩
    rintro rfl
    exact notIdle hash member
  · intro fd si found live
    exact ⟨((Store.live_delete _ _ _).mp live).1, Store.delete_fd _ _ _⟩

/-- Destroying a socket that is not used keeps the used sockets alive. -/
theorem UsedLive.delete {store : Store} {pool : ConnectionPool} (live : UsedLive store pool)
    {s : SocketId} (notUsed : ∀ fd si, pool.usedAt fd = some si → si.socket ≠ s) :
    UsedLive (store.delete s) pool := by
  intro fd si found
  exact (Store.live_delete _ _ _).mpr ⟨live fd si found, notUsed fd si found⟩

/-- An entry found under a live socket's descriptor is that socket's own. -/
theorem PoolCore.found_self {store : Store} {pool : ConnectionPool} (core : PoolCore store pool)
    (sound : store.Sound) {s : SocketId} {si : SockInfo} (live : store.Live s)
    (found : pool.usedAt (store.fd s) = some si) (alive : store.Live si.socket) :
    si.socket = s := by
  have atFd := core.usedFd _ si found alive
  refine sound.fdsDistinct si.socket s alive live ?_ atFd
  rw [atFd]
  exact core.usedOpen _ si found

/-- What a get hands out was idle, and is used and idle no more. -/
theorem get_spec {store : Store} {pool after : ConnectionPool} (core : PoolCore store pool)
    {dbAddr : Bytes} {port : UInt32} {connArgs : Bytes}
    {result : Option SocketId}
    (done : pool.getBackendConnect store dbAddr port connArgs = (result, after)) :
    PoolCore store after ∧ (UsedLive store pool → UsedLive store after) ∧
      (result = none → after = pool) ∧
      ∀ s, result = some s → s ∈ pool.idleIds (ConnPoolKey.mk dbAddr port connArgs).keyHashCode ∧
        (∀ hash, s ∉ after.idleIds hash) ∧
        (∀ hash other, other ∈ after.idleIds hash ↔ other ∈ pool.idleIds hash ∧ other ≠ s) ∧
        ∃ si ∈ pool.idleAt (ConnPoolKey.mk dbAddr port connArgs).keyHashCode, si.socket = s ∧
          ∀ fd, after.usedAt fd = if store.fd s = fd
            then some { si with startUseTime := pool.currentTime } else pool.usedAt fd := by
  rcases getBackendConnect_cases pool store dbAddr port connArgs with
    ⟨nothing, -⟩ | ⟨front, si, popped, some_, held, idle, used⟩
  · rw [nothing] at done
    cases done
    exact ⟨core, id, fun _ => rfl, fun s given => by cases given⟩
  · rw [some_] at done
    cases done
    generalize (ConnPoolKey.mk dbAddr port connArgs).keyHashCode = key at held idle ⊢
    -- The popped socket was the last under its hash, and is nowhere else.
    have ids : pool.idleIds key = front.map SockInfo.socket ++ [si.socket] := by
      rw [idleIds, held]
      simp
    have member : si.socket ∈ pool.idleIds key := by simp [ids]
    have nodup := core.idleNodup key
    rw [ids] at nodup
    have fresh : si.socket ∉ front.map SockInfo.socket := by
      intro inside
      exact List.disjoint_of_nodup_append nodup inside (by simp)
    have idleIff : ∀ hash other, other ∈ after.idleIds hash ↔
        other ∈ pool.idleIds hash ∧ other ≠ si.socket := by
      intro hash other
      rw [idleIds, idle hash]
      by_cases same : key = hash
      · subst same
        rw [if_pos rfl, ids]
        constructor
        · intro inside
          refine ⟨List.mem_append_left _ inside, ?_⟩
          rintro rfl
          exact fresh inside
        · rintro ⟨inside, differs⟩
          rcases List.mem_append.mp inside with old | last
          · exact old
          · exact absurd (List.mem_singleton.mp last) differs
      · rw [if_neg same]
        constructor
        · intro inside
          refine ⟨inside, ?_⟩
          rintro rfl
          exact same (core.idleApart key hash si.socket member inside)
        · exact fun inside => inside.1
    have liveHere := core.idleLive key si.socket member
    have openHere := core.idleOpen key si.socket member
    have gone : ∀ hash, si.socket ∉ after.idleIds hash := fun hash inside =>
      ((idleIff hash si.socket).mp inside).2 rfl
    refine ⟨⟨?_, ?_, ?_, ?_, ?_, ?_, ?_⟩, ?_, by simp, ?_⟩
    · exact fun hash s inside => core.idleLive hash s ((idleIff hash s).mp inside).1
    · exact fun hash s inside => core.idleOpen hash s ((idleIff hash s).mp inside).1
    · intro hash
      rw [idleIds, idle hash]
      split
      · exact (List.nodup_append.mp nodup).1
      · exact core.idleNodup hash
    · intro hash hash' s inside inside'
      exact core.idleApart hash hash' s ((idleIff hash s).mp inside).1
        ((idleIff hash' s).mp inside').1
    · intro fd other found live
      rw [used fd] at found
      split at found
      · next same =>
        cases found
        exact same
      · exact core.usedFd fd other found live
    · intro fd other found
      rw [used fd] at found
      split at found
      · next same => exact same ▸ openHere
      · exact core.usedOpen fd other found
    · intro fd other hash found inside
      rw [used fd] at found
      split at found
      · cases found
        exact gone hash inside
      · exact core.usedApart fd other hash found ((idleIff hash other.socket).mp inside).1
    · intro live fd other found
      rw [used fd] at found
      split at found
      · cases found
        exact liveHere
      · exact live fd other found
    · rintro s ⟨rfl⟩
      exact ⟨member, gone, idleIff, si, held ▸ (by simp), rfl, used⟩

/-- A used socket that is returned is idle under its hash, and used no more. -/
theorem set_spec {store : Store} {pool after : ConnectionPool} (core : PoolCore store pool)
    {s : SocketId} {si : SockInfo} (live : store.Live s)
    (found : pool.usedAt (store.fd s) = some si)
    (same : si.socket = s) {ret : Int} (done : pool.setBackendConnect store s = (ret, after)) :
    ret = 0 ∧ PoolCore store after ∧ (UsedLive store pool → UsedLive store after) ∧
      (∀ hash, after.idleAt hash = if hashOf store s = hash
        then pool.idleAt hash ++ [{ si with startUseTime := pool.currentTime }]
        else pool.idleAt hash) ∧
      ∀ fd, after.usedAt fd = if store.fd s = fd then none else pool.usedAt fd := by
  rcases setBackendConnect_cases pool store s with
    ⟨-, missing⟩ | ⟨si', returned, done', found', idle, used⟩
  · rw [found] at missing
    cases missing
  · rw [done'] at done
    cases done
    rw [found] at found'
    cases found'
    have fresh : ∀ hash, s ∉ pool.idleIds hash := fun hash => same ▸ core.usedApart _ si hash found
    -- The socket is the only new one, and comes under one hash.
    have idleIff : ∀ hash other, other ∈ after.idleIds hash ↔
        other ∈ pool.idleIds hash ∨ (other = s ∧ hashOf store s = hash) := by
      intro hash other
      rw [idleIds, idle hash]
      split
      · next here => simp [idleIds, same, here]
      · next elsewhere => simp [idleIds, elsewhere]
    refine ⟨rfl, ⟨?_, ?_, ?_, ?_, ?_, ?_, ?_⟩, ?_, idle, used⟩
    · intro hash other inside
      rcases (idleIff hash other).mp inside with old | ⟨rfl, -⟩
      · exact core.idleLive hash other old
      · exact live
    · intro hash other inside
      rcases (idleIff hash other).mp inside with old | ⟨rfl, -⟩
      · exact core.idleOpen hash other old
      · exact core.usedOpen _ si found
    · intro hash
      rw [idleIds, idle hash]
      split
      · rw [List.map_append, List.nodup_append]
        refine ⟨core.idleNodup hash, by simp, ?_⟩
        rintro a inside b last rfl
        simp only [List.map_cons, List.map_nil, List.mem_singleton] at last
        exact fresh hash (same ▸ last ▸ inside)
      · exact core.idleNodup hash
    · intro hash hash' other inside inside'
      rcases (idleIff hash other).mp inside with old | ⟨rfl, here⟩
      · rcases (idleIff hash' other).mp inside' with old' | ⟨rfl, -⟩
        · exact core.idleApart hash hash' other old old'
        · exact absurd old (fresh hash)
      · rcases (idleIff hash' other).mp inside' with old' | ⟨-, here'⟩
        · exact absurd old' (fresh hash')
        · exact here.symm.trans here'
    · intro fd other found' live'
      rw [used fd] at found'
      split at found'
      · cases found'
      · exact core.usedFd fd other found' live'
    · intro fd other found'
      rw [used fd] at found'
      split at found'
      · cases found'
      · exact core.usedOpen fd other found'
    · intro fd other hash found' inside
      rw [used fd] at found'
      split at found'
      · cases found'
      · next elsewhere =>
        rcases (idleIff hash other.socket).mp inside with old | ⟨isS, -⟩
        · exact core.usedApart fd other hash found' old
        · -- The socket's own entry is the one that was taken away.
          have atFd := core.usedFd fd other found' (isS ▸ live)
          rw [isS] at atFd
          exact elsewhere atFd
    · intro usedLive fd other found'
      rw [used fd] at found'
      split at found'
      · cases found'
      · exact usedLive fd other found'

/-- A live, connected socket that the pool does not hold may be saved as used. -/
theorem save_used_spec {store : Store} {pool : ConnectionPool} (core : PoolCore store pool)
    {s : SocketId} (live : store.Live s) (open_ : store.fd s ≠ 0)
    (notIdle : ∀ hash, s ∉ pool.idleIds hash) (freeSocket activeFunc : Bool) :
    PoolCore store (pool.saveBackendConnect store s freeSocket activeFunc true) ∧
      (UsedLive store pool →
        UsedLive store (pool.saveBackendConnect store s freeSocket activeFunc true)) := by
  -- The descriptor is the socket's own, so that it takes the place of no live entry.
  obtain ⟨idle, used⟩ := saveBackendConnect_used pool store s freeSocket activeFunc
  generalize pool.saveBackendConnect store s freeSocket activeFunc true = after at *
  have ids : ∀ hash, after.idleIds hash = pool.idleIds hash := fun hash => by
    rw [idleIds, idle hash, idleIds]
  refine ⟨⟨?_, ?_, ?_, ?_, ?_, ?_, ?_⟩, ?_⟩
  · exact fun hash other inside => core.idleLive hash other (ids hash ▸ inside)
  · exact fun hash other inside => core.idleOpen hash other (ids hash ▸ inside)
  · exact fun hash => (ids hash).symm ▸ core.idleNodup hash
  · exact fun hash hash' other inside inside' =>
      core.idleApart hash hash' other (ids hash ▸ inside) (ids hash' ▸ inside')
  · intro fd other found live'
    rw [used fd] at found
    split at found
    · next same => cases found; exact same
    · exact core.usedFd fd other found live'
  · intro fd other found
    rw [used fd] at found
    split at found
    · next same => exact same ▸ open_
    · exact core.usedOpen fd other found
  · intro fd other hash found inside
    rw [ids hash] at inside
    rw [used fd] at found
    split at found
    · cases found
      exact notIdle hash inside
    · exact core.usedApart fd other hash found inside
  · intro usedLive fd other found
    rw [used fd] at found
    split at found
    · cases found
      exact live
    · exact usedLive fd other found

/-- A live, connected socket that the pool does not hold may be saved as idle. -/
theorem save_idle_spec {store : Store} {pool : ConnectionPool} (core : PoolCore store pool)
    {s : SocketId} (live : store.Live s) (open_ : store.fd s ≠ 0)
    (notIdle : ∀ hash, s ∉ pool.idleIds hash)
    (notUsed : ∀ fd si, pool.usedAt fd = some si → si.socket ≠ s) (freeSocket activeFunc : Bool) :
    PoolCore store (pool.saveBackendConnect store s freeSocket activeFunc false) ∧
      (UsedLive store pool →
        UsedLive store (pool.saveBackendConnect store s freeSocket activeFunc false)) := by
  obtain ⟨idle, used⟩ := saveBackendConnect_idle pool store s freeSocket activeFunc
  generalize pool.saveBackendConnect store s freeSocket activeFunc false = after at *
  -- One socket more is idle, under its own hash.
  have idleIff : ∀ hash other, other ∈ after.idleIds hash ↔
      other ∈ pool.idleIds hash ∨ (other = s ∧ hashOf store s = hash) := by
    intro hash other
    rw [idleIds, idle hash]
    split
    · next here => simp [idleIds, here, or_comm]
    · next elsewhere => simp [idleIds, elsewhere]
  refine ⟨⟨?_, ?_, ?_, ?_, ?_, ?_, ?_⟩, fun usedLive fd other found =>
    usedLive fd other (used fd ▸ found)⟩
  · intro hash other inside
    rcases (idleIff hash other).mp inside with old | ⟨rfl, -⟩
    · exact core.idleLive hash other old
    · exact live
  · intro hash other inside
    rcases (idleIff hash other).mp inside with old | ⟨rfl, -⟩
    · exact core.idleOpen hash other old
    · exact open_
  · intro hash
    rw [idleIds, idle hash]
    split
    · exact List.nodup_cons.mpr ⟨notIdle hash, core.idleNodup hash⟩
    · exact core.idleNodup hash
  · intro hash hash' other inside inside'
    rcases (idleIff hash other).mp inside with old | ⟨rfl, here⟩
    · rcases (idleIff hash' other).mp inside' with old' | ⟨rfl, -⟩
      · exact core.idleApart hash hash' other old old'
      · exact absurd old (notIdle hash)
    · rcases (idleIff hash' other).mp inside' with old' | ⟨-, here'⟩
      · exact absurd old' (notIdle hash')
      · exact here.symm.trans here'
  · exact fun fd other found => core.usedFd fd other (used fd ▸ found)
  · exact fun fd other found => core.usedOpen fd other (used fd ▸ found)
  · intro fd other hash found inside
    rw [used fd] at found
    rcases (idleIff hash other.socket).mp inside with old | ⟨same, -⟩
    · exact core.usedApart fd other hash found old
    · exact notUsed fd other found same

/-- A used socket that is released is used no more, and destroyed if the pool may destroy it. -/
theorem release_spec {store after : Store} {pool left : ConnectionPool} (core : PoolCore store pool)
    {s : SocketId} {si : SockInfo} (found : pool.usedAt (store.fd s) = some si)
    (same : si.socket = s)
    (live : store.Live s) (done : pool.releaseBackendSocket store s = (after, left)) :
    after = si.delete store ∧ PoolCore after left ∧ (UsedLive store pool → UsedLive after left) ∧
      (∀ hash, left.idleAt hash = pool.idleAt hash) ∧
      ∀ fd, left.usedAt fd = if store.fd s = fd then none else pool.usedAt fd := by
  rcases releaseBackendSocket_cases pool store s with
    ⟨-, missing⟩ | ⟨si', gone, done', found', idle, used⟩
  · rw [found] at missing
    cases missing
  · rw [done'] at done
    cases done
    rw [found] at found'
    cases found'
    have ids : ∀ hash, left.idleIds hash = pool.idleIds hash := fun hash => by
      rw [idleIds, idle hash, idleIds]
    have notIdle : ∀ hash, s ∉ left.idleIds hash := fun hash => by
      rw [ids hash]
      exact same ▸ core.usedApart _ si hash found
    -- The entries that are left were there before, under other descriptors.
    have old : ∀ fd other, left.usedAt fd = some other →
        pool.usedAt fd = some other ∧ store.fd s ≠ fd := by
      intro fd other found'
      rw [used fd] at found'
      split at found'
      · cases found'
      · next elsewhere => exact ⟨found', elsewhere⟩
    have smaller : PoolCore store left := by
      constructor
      · exact fun hash other inside => core.idleLive hash other (ids hash ▸ inside)
      · exact fun hash other inside => core.idleOpen hash other (ids hash ▸ inside)
      · exact fun hash => (ids hash).symm ▸ core.idleNodup hash
      · exact fun hash hash' other inside inside' =>
          core.idleApart hash hash' other (ids hash ▸ inside) (ids hash' ▸ inside')
      · exact fun fd other found' => core.usedFd fd other (old fd other found').1
      · exact fun fd other found' => core.usedOpen fd other (old fd other found').1
      · intro fd other hash found'
        rw [ids hash]
        exact core.usedApart fd other hash (old fd other found').1
    have others : UsedLive store pool → ∀ fd other, left.usedAt fd = some other →
        store.Live other.socket ∧ other.socket ≠ s := by
      intro usedLive fd other found'
      obtain ⟨before, elsewhere⟩ := old fd other found'
      refine ⟨usedLive fd other before, fun isS => ?_⟩
      have atFd := core.usedFd fd other before (isS ▸ live)
      rw [isS] at atFd
      exact elsewhere atFd
    refine ⟨rfl, ?_, fun usedLive fd other found' => ?_, idle, used⟩
    · unfold SockInfo.delete
      split
      · rw [same]
        exact smaller.delete notIdle
      · exact smaller
    · obtain ⟨alive, differs⟩ := others usedLive fd other found'
      unfold SockInfo.delete
      split
      · rw [same]
        exact (Store.live_delete _ _ _).mpr ⟨alive, differs⟩
      · exact alive

/-- Destroying entries destroys their sockets and touches no other. -/
theorem foldl_delete (store : Store) (gone : List SockInfo) :
    (gone.foldl SockInfo.delete store).object = store.object ∧
      (gone.foldl SockInfo.delete store).made = store.made ∧
      (gone.foldl SockInfo.delete store).freed =
        store.freed ++ (gone.filter (·.freeSocket)).map SockInfo.socket := by
  induction gone generalizing store with
  | nil => simp
  | cons si gone ih =>
    obtain ⟨object, made, freed⟩ := ih (si.delete store)
    rw [List.foldl_cons, object, made, freed]
    by_cases frees : si.freeSocket
    · simp [SockInfo.delete, frees]
    · simp [SockInfo.delete, frees]

/-- A check destroys only idle sockets, and keeps the pool in order. -/
theorem check_spec {store after : Store} {pool swept : ConnectionPool} (sound : store.Sound)
    (core : PoolCore store pool) {t t' : UInt64} {active : SocketId → Bool}
    (done : pool.checkConnectActive store t t' active = (after, swept)) :
    after.Sound ∧ PoolCore after swept ∧ (UsedLive store pool → UsedLive after swept) ∧
      after.object = store.object ∧ after.made = store.made ∧
      (∀ s, s ∈ after.freed → s ∈ store.freed ∨ ∃ hash, s ∈ pool.idleIds hash) ∧
      (∀ s, after.freed.count s = store.freed.count s ∨ ∃ hash, s ∈ pool.idleIds hash) ∧
      (∀ hash, (swept.idleAt hash).Sublist (pool.idleAt hash)) ∧
      ∀ fd, swept.usedAt fd = pool.usedAt fd := by
  obtain ⟨stored, kept, used⟩ := checkConnectActive_spec pool store t t' active
  rw [done] at stored kept used
  dsimp only at stored kept used
  obtain ⟨object, made, freed⟩ := foldl_delete store (pool.dropped t active)
  rw [← stored] at object made freed
  have fds : ∀ s, after.fd s = store.fd s := fun s => by rw [Store.fd, object, Store.fd]
  -- Whoever is destroyed was idle, and the walk did not keep it.
  have goneIdle : ∀ s ∈ ((pool.dropped t active).filter (·.freeSocket)).map SockInfo.socket,
      ∃ hash, s ∈ pool.idleIds hash ∧ s ∉ swept.idleIds hash := by
    intro s member
    obtain ⟨si, inside, rfl⟩ := List.mem_map.mp member
    obtain ⟨hash, gone⟩ := (mem_dropped pool t active).mp (List.mem_filter.mp inside).1
    have perm := (sweep_perm { pool with currentTime := t } active (pool.idleAt hash)).map
      SockInfo.socket
    rw [List.map_append] at perm
    refine ⟨hash, perm.subset (List.mem_append_right _ (List.mem_map_of_mem gone)), ?_⟩
    have nodup := perm.nodup_iff.mpr (core.idleNodup hash)
    rw [idleIds, kept hash]
    intro still
    exact List.disjoint_of_nodup_append nodup still (List.mem_map_of_mem gone)
  have sub : ∀ hash, (swept.idleAt hash).Sublist (pool.idleAt hash) := by
    intro hash
    rw [kept hash]
    exact sweep_sublist _ _ _
  have subIds : ∀ hash s, s ∈ swept.idleIds hash → s ∈ pool.idleIds hash :=
    fun hash s inside => ((sub hash).map SockInfo.socket).subset inside
  have freedFrom : ∀ s, s ∈ after.freed → s ∈ store.freed ∨ ∃ hash, s ∈ pool.idleIds hash := by
    intro s inside
    rw [freed] at inside
    rcases List.mem_append.mp inside with old | new
    · exact .inl old
    · obtain ⟨hash, idle, -⟩ := goneIdle s new
      exact .inr ⟨hash, idle⟩
  have liveBefore : ∀ s, after.Live s → store.Live s := by
    rintro s ⟨below, present⟩
    rw [made] at below
    exact ⟨below, fun gone => present (freed ▸ List.mem_append_left _ gone)⟩
  have liveAfter : ∀ s, store.Live s → (∀ hash, s ∈ pool.idleIds hash → s ∈ swept.idleIds hash) →
      after.Live s := by
    rintro s ⟨below, present⟩ stays
    refine ⟨made ▸ below, fun gone => ?_⟩
    rw [freed] at gone
    rcases List.mem_append.mp gone with old | new
    · exact present old
    · obtain ⟨hash, idle, notKept⟩ := goneIdle s new
      exact notKept (stays hash idle)
  have idleAlive : ∀ hash s, s ∈ swept.idleIds hash → after.Live s := by
    intro hash s inside
    refine liveAfter s (core.idleLive hash s (subIds hash s inside)) fun hash' inside' => ?_
    rw [core.idleApart hash' hash s inside' (subIds hash s inside)]
    exact inside
  refine ⟨⟨fun gone member => ?_, fun a b aLive bLive => ?_⟩,
    ⟨idleAlive, fun hash s inside => ?_, fun hash => ?_, fun hash hash' s inside inside' => ?_,
      fun fd si found live => ?_, fun fd si found => ?_, fun fd si hash found inside => ?_⟩,
    fun usedLive fd si found => ?_, object, made, freedFrom, fun s => ?_, sub, fun fd => by
      rw [usedAt, used]⟩
  · rw [made]
    rcases freedFrom gone member with old | ⟨hash, idle⟩
    · exact sound.freedMade gone old
    · exact (core.idleLive hash gone idle).1
  · rw [fds, fds]
    exact sound.fdsDistinct a b (liveBefore a aLive) (liveBefore b bLive)
  · rw [fds]
    exact core.idleOpen hash s (subIds hash s inside)
  · exact ((sub hash).map SockInfo.socket).nodup (core.idleNodup hash)
  · exact core.idleApart hash hash' s (subIds hash s inside) (subIds hash' s inside')
  · rw [fds]
    exact core.usedFd fd si (by rwa [usedAt, used] at found) (liveBefore _ live)
  · exact core.usedOpen fd si (by rwa [usedAt, used] at found)
  · exact core.usedApart fd si hash (by rwa [usedAt, used] at found) (subIds hash _ inside)
  · rw [usedAt, used] at found
    exact liveAfter _ (usedLive fd si found)
      fun hash inside => absurd inside (core.usedApart fd si hash found)
  · by_cases idle : ∃ hash, s ∈ pool.idleIds hash
    · exact .inr idle
    · left
      have none_ : (((pool.dropped t active).filter (·.freeSocket)).map SockInfo.socket).count s =
          0 := by
        rw [List.count_eq_zero]
        intro inside
        obtain ⟨hash, here, -⟩ := goneIdle s inside
        exact idle ⟨hash, here⟩
      rw [freed, List.count_append, none_, Nat.add_zero]

end OneProxy
