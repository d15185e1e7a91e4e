import OneProxy.Session.ClientThread

/-! Who holds which socket, in every run of a thread: the pool, or one slot of one connection. -/

namespace OneProxy

open ConnectionPool Runs

namespace Worker

/-- The connection that is changed. -/
@[simp] theorem updateConn_self (w : Worker) (c : ConnId) (f : Connection → Connection) :
    (w.updateConn c f).conn c = f (w.conn c) := Function.update_self _ _ _

/-- The connections that are not changed. -/
theorem updateConn_of_ne (w : Worker) {c other : ConnId} (f : Connection → Connection)
    (differs : other ≠ c) : (w.updateConn c f).conn other = w.conn other :=
  Function.update_of_ne differs _ _

/-- A connection that has not been deleted has a socket in a slot. -/
def Holds (w : Worker) (c : ConnId) (slot : Slot) (s : SocketId) : Prop :=
  c ∈ w.connectList ∧ (w.conn c).sock.at slot = some s

/--
What holds in every run of a thread.

Sockets of connections are alive, open, and neither idle nor another connection's. A backend of a
connection that uses the pool is among the used ones there, and the live used ones are all such.
-/
structure Owned (w : Worker) : Prop where
  sound : w.store.Sound
  core : PoolCore w.store w.pool
  idleFree : ∀ hash, ∀ si ∈ w.pool.idleAt hash, si.freeSocket = true
  usedMade : ∀ fd si, w.pool.usedAt fd = some si → si.socket < w.store.made
  listed : ∀ c ∈ w.connectList, c < w.connMade
  heldLive : ∀ c slot s, w.Holds c slot s → w.store.Live s
  heldOpen : ∀ c slot s, w.Holds c slot s → w.store.fd s ≠ 0
  heldApart : ∀ c slot c' slot' s, w.Holds c slot s → w.Holds c' slot' s → c = c' ∧ slot = slot'
  heldBusy : ∀ c slot s, w.Holds c slot s → ∀ hash, s ∉ w.pool.idleIds hash
  heldUsed : ∀ c slot s, w.Holds c (.backend slot) s → (w.conn c).usesPool = true →
    ∃ si, w.pool.usedAt (w.store.fd s) = some si ∧ si.socket = s ∧ si.freeSocket = true
  usedHeld : ∀ fd si, w.pool.usedAt fd = some si → w.store.Live si.socket →
    ∃ c slot, w.Holds c (.backend slot) si.socket ∧ (w.conn c).usesPool = true
  attached : ∀ c slot s, w.Holds c (.backend slot) s → (w.conn c).protocolBase = true

/-- Every used entry of the pool is about a socket that has not been destroyed. -/
abbrev AllUsedLive (w : Worker) : Prop := UsedLive w.store w.pool

/-- A thread without connections holds nothing. -/
theorem owned_initial (dataBase : DataBaseId → DataBase) (now : UInt64) :
    Owned (initial dataBase now) := by
  -- There is no connection to hold a socket, and no socket that a descriptor could be shared with.
  refine ⟨⟨by simp [initial], ?_⟩,
    poolCore_new _ now, ?_, ?_, by simp [initial], ?_, ?_, ?_, ?_, ?_, ?_,
    ?_⟩
  · intro a b live
    exact absurd live.1 (Nat.not_lt_zero a)
  · simp [initial]
  · simp [initial]
  · intro c slot s held
    exact absurd held.1 List.not_mem_nil
  · intro c slot s held
    exact absurd held.1 List.not_mem_nil
  · intro c slot c' slot' s held
    exact absurd held.1 List.not_mem_nil
  · intro c slot s held
    exact absurd held.1 List.not_mem_nil
  · intro c slot s held
    exact absurd held.1 List.not_mem_nil
  · intro fd si found
    simp [initial] at found
  · intro c slot s held
    exact absurd held.1 List.not_mem_nil

/--
Changes that touch no socket made before and no slot keep everything in place.

New sockets may be made, and a connection may change all but what it holds.
-/
theorem Owned.transport {w : Worker} (owned : Owned w) (after : Worker) (pool : after.pool = w.pool)
    (sound : after.store.Sound) (made : w.store.made ≤ after.store.made)
    (live : ∀ s < w.store.made, (after.store.Live s ↔ w.store.Live s))
    (fd : ∀ s < w.store.made, after.store.fd s = w.store.fd s)
    (list : after.connectList = w.connectList) (connMade : w.connMade ≤ after.connMade)
    (sock : ∀ c ∈ w.connectList, ∀ slot, (after.conn c).sock.at slot = (w.conn c).sock.at slot)
    (usesPool : ∀ c slot s, w.Holds c (.backend slot) s →
      (after.conn c).usesPool = (w.conn c).usesPool)
    (attached : ∀ c slot s, w.Holds c (.backend slot) s → (after.conn c).protocolBase = true) :
    Owned after ∧ (AllUsedLive w → AllUsedLive after) := by
  -- What is held was held, so that it is one of the sockets made before.
  have holds : ∀ c slot s, after.Holds c slot s → w.Holds c slot s := by
    rintro c slot s ⟨member, here⟩
    rw [list] at member
    exact ⟨member, sock c member slot ▸ here⟩
  have old : ∀ c slot s, after.Holds c slot s → s < w.store.made :=
    fun c slot s held => (owned.heldLive c slot s (holds c slot s held)).1
  refine ⟨⟨sound, ?_, ?_, ?_, ?_, ?_, ?_, ?_, ?_, ?_, ?_, ?_⟩, ?_⟩
  · rw [pool]
    refine owned.core.of_store ?_ ?_
    · intro hash s idle
      have before := owned.core.idleLive hash s idle
      exact ⟨(live s before.1).mpr before, fd s before.1⟩
    · intro at_ si found alive
      have below := owned.usedMade at_ si found
      exact ⟨(live _ below).mp alive, fd _ below⟩
  · rw [pool]
    exact owned.idleFree
  · intro at_ si found
    rw [pool] at found
    exact Nat.lt_of_lt_of_le (owned.usedMade at_ si found) made
  · intro c member
    rw [list] at member
    exact Nat.lt_of_lt_of_le (owned.listed c member) connMade
  · intro c slot s held
    exact (live s (old c slot s held)).mpr (owned.heldLive c slot s (holds c slot s held))
  · intro c slot s held
    rw [fd s (old c slot s held)]
    exact owned.heldOpen c slot s (holds c slot s held)
  · intro c slot c' slot' s held held'
    exact owned.heldApart c slot c' slot' s (holds c slot s held) (holds c' slot' s held')
  · intro c slot s held
    rw [pool]
    exact owned.heldBusy c slot s (holds c slot s held)
  · intro c slot s held uses
    have before := holds c _ s held
    rw [pool, fd s (old c _ s held)]
    exact owned.heldUsed c slot s before (usesPool c slot s before ▸ uses)
  · intro at_ si found alive
    rw [pool] at found
    have below := owned.usedMade at_ si found
    obtain ⟨c, slot, held, uses⟩ := owned.usedHeld at_ si found ((live _ below).mp alive)
    refine ⟨c, slot, ⟨list ▸ held.1, ?_⟩, (usesPool c slot _ held).trans uses⟩
    rw [sock c held.1]
    exact held.2
  · exact fun c slot s held => attached c slot s (holds c _ s held)
  · intro allLive at_ si found
    rw [pool] at found
    have alive := allLive at_ si found
    exact (live _ alive.1).mpr alive

/-- Changes of one connection that keep its slots, its pool and its protocol keep everything. -/
theorem Owned.updateConn {w : Worker} (owned : Owned w) {c : ConnId} {f : Connection → Connection}
    (sock : ∀ slot, (f (w.conn c)).sock.at slot = (w.conn c).sock.at slot)
    (usesPool : ∀ slot s, w.Holds c (.backend slot) s →
      (f (w.conn c)).usesPool = (w.conn c).usesPool)
    (attached : ∀ slot s, w.Holds c (.backend slot) s → (f (w.conn c)).protocolBase = true) :
    Owned (w.updateConn c f) ∧ (AllUsedLive w → AllUsedLive (w.updateConn c f)) := by
  -- The other connections are as they were; the slots of this one are as its hypothesis says.
  refine owned.transport _ rfl owned.sound (Nat.le_refl _) (fun _ _ => Iff.rfl) (fun _ _ => rfl) rfl
    (Nat.le_refl _) ?_ ?_ ?_
  · intro other _ slot
    by_cases same : other = c
    · subst same
      simpa using sock slot
    · rw [updateConn_of_ne w f same]
  · intro other slot s held
    by_cases same : other = c
    · subst same
      simpa using usesPool slot s held
    · rw [updateConn_of_ne w f same]
  · intro other slot s held
    by_cases same : other = c
    · subst same
      simpa using attached slot s held
    · rw [updateConn_of_ne w f same]
      exact owned.attached other slot s held

/-- Changes of one socket object that keep its descriptor keep everything. -/
theorem Owned.updateStore {w : Worker} (owned : Owned w) (s : SocketId)
    {f : NetworkSocket → NetworkSocket} (keeps : ∀ ns, (f ns).fd = ns.fd) :
    Owned { w with store := w.store.update s f } ∧
      (AllUsedLive w → AllUsedLive { w with store := w.store.update s f }) :=
  owned.transport _ rfl (owned.sound.update keeps) (Nat.le_refl _) (fun _ _ => Iff.rfl)
    (fun other _ => Store.fd_update _ _ keeps other) rfl (Nat.le_refl _) (fun _ _ _ => rfl)
    (fun _ _ _ _ => rfl) owned.attached

/-- Everything but sockets, pool and connections may change freely. -/
theorem Owned.of_eq {w : Worker} (owned : Owned w) (after : Worker) (store : after.store = w.store)
    (pool : after.pool = w.pool) (conn : after.conn = w.conn)
    (list : after.connectList = w.connectList) (made : after.connMade = w.connMade) :
    Owned after ∧ (AllUsedLive w → AllUsedLive after) := by
  refine owned.transport after pool (store ▸ owned.sound) (store ▸ Nat.le_refl _) ?_ ?_ list
    (made ▸ Nat.le_refl _) ?_ ?_ ?_
  · intro s _
    rw [store]
  · intro s _
    rw [store]
  · intro c _ slot
    rw [conn]
  · intro c slot s _
    rw [conn]
  · intro c slot s held
    rw [conn]
    exact owned.attached c slot s held

/-- A socket held in a slot is not used in the pool, unless as a backend of a pooled connection. -/
theorem Owned.not_used {w : Worker} (owned : Owned w) (allLive : AllUsedLive w) {c : ConnId}
    {slot : Slot} {s : SocketId} (held : w.Holds c slot s)
    (outside : slot = .client ∨ (w.conn c).usesPool = false) :
    ∀ fd si, w.pool.usedAt fd = some si → si.socket ≠ s := by
  rintro fd si found rfl
  obtain ⟨c', slot', held', uses⟩ := owned.usedHeld fd si found (allLive fd si found)
  obtain ⟨rfl, rfl⟩ := owned.heldApart _ _ _ _ _ held held'
  rcases outside with isClient | unpooled
  · cases isClient
  · rw [unpooled] at uses
    cases uses

/-- One socket is not held any more, and nothing else about connections has changed. -/
structure Dropped (w after : Worker) (s : SocketId) : Prop where
  list : after.connectList = w.connectList
  connMade : after.connMade = w.connMade
  holds : ∀ c slot other, after.Holds c slot other ↔ w.Holds c slot other ∧ other ≠ s
  usesPool : ∀ c, (after.conn c).usesPool = (w.conn c).usesPool
  protocolBase : ∀ c, (after.conn c).protocolBase = (w.conn c).protocolBase

/-- Emptying the slot that holds a socket drops the socket. -/
theorem Owned.dropped {w after : Worker} (owned : Owned w) {c : ConnId} {slot : Slot} {s : SocketId}
    (held : w.Holds c slot s) (list : after.connectList = w.connectList)
    (connMade : after.connMade = w.connMade) {f : SocketSet → SocketSet}
    (conn : after.conn = Function.update w.conn c ((w.conn c).updateSock f))
    (empty : (f (w.conn c).sock).at slot = none)
    (others : ∀ other, other ≠ slot → (f (w.conn c).sock).at other = (w.conn c).sock.at other) :
    Dropped w after s := by
  have elsewhere : ∀ c', c' ≠ c → after.conn c' = w.conn c' := fun c' differs => by
    rw [conn, Function.update_of_ne differs]
  have here : after.conn c = (w.conn c).updateSock f := by rw [conn, Function.update_self]
  -- A socket has one holder, so that no other slot loses it.
  refine ⟨list, connMade, fun c' slot' other => ?_, fun c' => ?_, fun c' => ?_⟩
  · constructor
    · rintro ⟨member, at_⟩
      rw [list] at member
      by_cases same : c' = c
      · subst same
        rw [here] at at_
        by_cases sameSlot : slot' = slot
        · subst sameSlot
          rw [show ((w.conn c').updateSock f).sock = f (w.conn c').sock from rfl, empty] at at_
          cases at_
        · have old : w.Holds c' slot' other := ⟨member, (others slot' sameSlot).symm.trans at_⟩
          refine ⟨old, ?_⟩
          rintro rfl
          exact sameSlot (owned.heldApart _ _ _ _ _ old held).2
      · rw [elsewhere c' same] at at_
        refine ⟨⟨member, at_⟩, ?_⟩
        rintro rfl
        exact same (owned.heldApart c' slot' c slot other ⟨member, at_⟩ held).1
    · rintro ⟨⟨member, at_⟩, differs⟩
      refine ⟨list ▸ member, ?_⟩
      by_cases same : c' = c
      · subst same
        have otherSlot : slot' ≠ slot := by
          rintro rfl
          exact differs (Option.some.inj (at_.symm.trans held.2))
        rw [here]
        exact (others slot' otherSlot).trans at_
      · rw [elsewhere c' same]
        exact at_
  · by_cases same : c' = c
    · subst same
      rw [here]
      rfl
    · rw [elsewhere c' same]
  · by_cases same : c' = c
    · subst same
      rw [here]
      rfl
    · rw [elsewhere c' same]

/-- Destroying a socket that was held keeps everything else in place. -/
theorem Owned.close {w after : Worker} (owned : Owned w) {c : ConnId} {slot : Slot} {s : SocketId}
    (held : w.Holds c slot s) (dropped : Dropped w after s)
    (store : after.store = w.store.delete s) (pool : after.pool = w.pool) :
    Owned after ∧ (AllUsedLive w → (slot = .client ∨ (w.conn c).usesPool = false) →
      AllUsedLive after) := by
  -- No one holds the destroyed socket any more, so that what is held stays live.
  have old : ∀ c' slot' other, after.Holds c' slot' other → w.Holds c' slot' other :=
    fun c' slot' other held' => ((dropped.holds c' slot' other).mp held').1
  have alive := owned.heldLive c slot s held
  refine ⟨⟨?_, ?_, ?_, ?_, ?_, ?_, ?_, ?_, ?_, ?_, ?_, ?_⟩, ?_⟩
  · rw [store]
    exact owned.sound.delete alive.1
  · rw [store, pool]
    exact owned.core.delete (owned.heldBusy c slot s held)
  · rw [pool]
    exact owned.idleFree
  · rw [store, pool, Store.delete_made]
    exact owned.usedMade
  · rw [dropped.list, dropped.connMade]
    exact owned.listed
  · intro c' slot' other held'
    obtain ⟨before, differs⟩ := (dropped.holds c' slot' other).mp held'
    rw [store]
    exact (Store.live_delete _ _ _).mpr ⟨owned.heldLive c' slot' other before, differs⟩
  · intro c' slot' other held'
    rw [store, Store.delete_fd]
    exact owned.heldOpen c' slot' other (old _ _ _ held')
  · intro c₁ slot₁ c₂ slot₂ other held₁ held₂
    exact owned.heldApart _ _ _ _ other (old _ _ _ held₁) (old _ _ _ held₂)
  · intro c' slot' other held'
    rw [pool]
    exact owned.heldBusy c' slot' other (old _ _ _ held')
  · intro c' slot' other held' pooled
    rw [dropped.usesPool] at pooled
    rw [store, pool, Store.delete_fd]
    exact owned.heldUsed c' slot' other (old _ _ _ held') pooled
  · intro fd si found live
    rw [pool] at found
    rw [store, Store.live_delete] at live
    obtain ⟨c', slot', held', pooled⟩ := owned.usedHeld fd si found live.1
    exact ⟨c', slot', (dropped.holds _ _ _).mpr ⟨held', live.2⟩, (dropped.usesPool c').trans pooled⟩
  · intro c' slot' other held'
    rw [dropped.protocolBase]
    exact owned.attached c' slot' other (old _ _ _ held')
  · intro allLive outside
    rw [AllUsedLive, store, pool]
    exact UsedLive.delete allLive (owned.not_used allLive held outside)

/-- Returning a backend of a pooled connection succeeds, and makes the backend idle. -/
theorem Owned.giveBack {w after : Worker} (owned : Owned w) {c : ConnId} {slot : BackendSlot}
    {s : SocketId} (held : w.Holds c (.backend slot) s) (pooled : (w.conn c).usesPool = true)
    (dropped : Dropped w after s) (store : after.store = w.store) (ret : Int)
    (done : w.pool.setBackendConnect w.store s = (ret, after.pool)) :
    ret = 0 ∧ Owned after ∧ (AllUsedLive w → AllUsedLive after) ∧
      (∃ hash, s ∈ after.pool.idleIds hash) ∧
      ∀ hash other, other ∈ w.pool.idleIds hash → other ∈ after.pool.idleIds hash := by
  obtain ⟨si, found, self, frees⟩ := owned.heldUsed c slot s held pooled
  have alive := owned.heldLive c _ s held
  obtain ⟨ret0, core, used, idle, usedAfter⟩ := set_spec owned.core alive found self done
  have old : ∀ c' slot' other, after.Holds c' slot' other → w.Holds c' slot' other ∧ other ≠ s :=
    fun c' slot' other => (dropped.holds c' slot' other).mp
  -- Other live sockets have other descriptors, so their entries stay.
  have apart : ∀ other, w.store.Live other → other ≠ s → w.store.fd s ≠ w.store.fd other :=
    fun other live differs same => differs
      (owned.sound.fdsDistinct s other alive live (owned.heldOpen c _ s held) same).symm
  have entry : ∀ fd other, after.pool.usedAt fd = some other →
      w.pool.usedAt fd = some other ∧ w.store.fd s ≠ fd := by
    intro fd other found'
    rw [usedAfter fd] at found'
    split at found'
    · cases found'
    · next elsewhere => exact ⟨found', elsewhere⟩
  have idleMem : ∀ hash si', si' ∈ after.pool.idleAt hash →
      si' ∈ w.pool.idleAt hash ∨ (si'.socket = s ∧ si'.freeSocket = true) := by
    intro hash si' member
    rw [idle hash] at member
    split at member
    · rcases List.mem_append.mp member with before | last
      · exact .inl before
      · rw [List.mem_singleton.mp last]
        exact .inr ⟨self, frees⟩
    · exact .inl member
  refine ⟨ret0, ⟨store ▸ owned.sound, store ▸ core, ?_, ?_, ?_, ?_, ?_, ?_, ?_, ?_, ?_,
    ?_⟩, ?_, ?_, ?_⟩
  · intro hash si' member
    rcases idleMem hash si' member with before | ⟨-, frees'⟩
    · exact owned.idleFree hash si' before
    · exact frees'
  · intro fd other found'
    rw [store]
    exact owned.usedMade fd other (entry fd other found').1
  · rw [dropped.list, dropped.connMade]
    exact owned.listed
  · intro c' slot' other held'
    rw [store]
    exact owned.heldLive c' slot' other (old _ _ _ held').1
  · intro c' slot' other held'
    rw [store]
    exact owned.heldOpen c' slot' other (old _ _ _ held').1
  · intro c₁ slot₁ c₂ slot₂ other held₁ held₂
    exact owned.heldApart _ _ _ _ other (old _ _ _ held₁).1 (old _ _ _ held₂).1
  · intro c' slot' other held' hash inside
    obtain ⟨before, differs⟩ := old _ _ _ held'
    obtain ⟨si', member, rfl⟩ := List.mem_map.mp inside
    rcases idleMem hash si' member with wasIdle | ⟨isS, -⟩
    · exact owned.heldBusy c' slot' _ before hash (List.mem_map_of_mem wasIdle)
    · exact differs isS
  · intro c' slot' other held' pooled'
    obtain ⟨before, differs⟩ := old _ _ _ held'
    rw [dropped.usesPool] at pooled'
    obtain ⟨si', found', rest⟩ := owned.heldUsed c' slot' other before pooled'
    refine ⟨si', ?_, rest⟩
    rw [store, usedAfter, if_neg (apart other (owned.heldLive _ _ _ before) differs)]
    exact found'
  · intro fd other found' live
    rw [store] at live
    obtain ⟨before, elsewhere⟩ := entry fd other found'
    obtain ⟨c', slot', held', pooled'⟩ := owned.usedHeld fd other before live
    refine ⟨c', slot', (dropped.holds _ _ _).mpr ⟨held', ?_⟩, (dropped.usesPool c').trans pooled'⟩
    intro isS
    apply elsewhere
    rw [← isS]
    exact owned.core.usedFd fd other before live
  · intro c' slot' other held'
    rw [dropped.protocolBase]
    exact owned.attached c' slot' other (old _ _ _ held').1
  · intro allLive
    rw [AllUsedLive, store]
    exact used allLive
  · refine ⟨hashOf w.store s,
      List.mem_map.mpr ⟨{ si with startUseTime := w.pool.currentTime }, ?_, self⟩⟩
    rw [idle, if_pos rfl]
    exact List.mem_append_right _ (List.mem_singleton_self _)
  · intro hash other inside
    obtain ⟨si', member, rfl⟩ := List.mem_map.mp inside
    refine List.mem_map_of_mem ?_
    rw [idle]
    split
    · exact List.mem_append_left _ member
    · exact member

/-- Releasing a backend of a pooled connection destroys it, and makes nothing idle. -/
theorem Owned.letGo {w after : Worker} (owned : Owned w) {c : ConnId} {slot : BackendSlot}
    {s : SocketId} (held : w.Holds c (.backend slot) s) (pooled : (w.conn c).usesPool = true)
    (dropped : Dropped w after s)
    (done : w.pool.releaseBackendSocket w.store s = (after.store, after.pool)) :
    Owned after ∧ (AllUsedLive w → AllUsedLive after) ∧ after.store = w.store.delete s ∧
      ∀ hash, after.pool.idleIds hash = w.pool.idleIds hash := by
  obtain ⟨si, found, self, frees⟩ := owned.heldUsed c slot s held pooled
  have alive := owned.heldLive c _ s held
  obtain ⟨deleted, core, used, idle, usedAfter⟩ := release_spec owned.core found self alive done
  have store : after.store =
    w.store.delete s := by rw [deleted, SockInfo.delete, if_pos frees, self]
  have old : ∀ c' slot' other, after.Holds c' slot' other → w.Holds c' slot' other ∧ other ≠ s :=
    fun c' slot' other => (dropped.holds c' slot' other).mp
  -- The pool forgets an entry by its descriptor, which no other live socket has.
  have apart : ∀ other, w.store.Live other → other ≠ s → w.store.fd s ≠ w.store.fd other :=
    fun other live differs same => differs
      (owned.sound.fdsDistinct s other alive live (owned.heldOpen c _ s held) same).symm
  have entry : ∀ fd other, after.pool.usedAt fd = some other → w.pool.usedAt fd = some other := by
    intro fd other found'
    rw [usedAfter fd] at found'
    split at found'
    · cases found'
    · exact found'
  have ids : ∀ hash, after.pool.idleIds hash = w.pool.idleIds hash := fun hash => by
    rw [idleIds, idle hash, idleIds]
  refine ⟨⟨?_, core, ?_, ?_, ?_, ?_, ?_, ?_, ?_, ?_, ?_, ?_⟩, used, store, ids⟩
  · rw [store]
    exact owned.sound.delete alive.1
  · intro hash si' member
    rw [idle hash] at member
    exact owned.idleFree hash si' member
  · intro fd other found'
    rw [store, Store.delete_made]
    exact owned.usedMade fd other (entry fd other found')
  · rw [dropped.list, dropped.connMade]
    exact owned.listed
  · intro c' slot' other held'
    obtain ⟨before, differs⟩ := old _ _ _ held'
    rw [store]
    exact (Store.live_delete _ _ _).mpr ⟨owned.heldLive c' slot' other before, differs⟩
  · intro c' slot' other held'
    rw [store, Store.delete_fd]
    exact owned.heldOpen c' slot' other (old _ _ _ held').1
  · intro c₁ slot₁ c₂ slot₂ other held₁ held₂
    exact owned.heldApart _ _ _ _ other (old _ _ _ held₁).1 (old _ _ _ held₂).1
  · intro c' slot' other held' hash
    rw [ids hash]
    exact owned.heldBusy c' slot' other (old _ _ _ held').1 hash
  · intro c' slot' other held' pooled'
    obtain ⟨before, differs⟩ := old _ _ _ held'
    rw [dropped.usesPool] at pooled'
    obtain ⟨si', found', rest⟩ := owned.heldUsed c' slot' other before pooled'
    refine ⟨si', ?_, rest⟩
    rw [store, Store.delete_fd, usedAfter,
      if_neg (apart other (owned.heldLive _ _ _ before) differs)]
    exact found'
  · intro fd other found' live
    rw [store, Store.live_delete] at live
    obtain ⟨c', slot', held', pooled'⟩ := owned.usedHeld fd other (entry fd other found') live.1
    exact ⟨c', slot', (dropped.holds _ _ _).mpr ⟨held', live.2⟩,
      (dropped.usesPool c').trans pooled'⟩
  · intro c' slot' other held'
    rw [dropped.protocolBase]
    exact owned.attached c' slot' other (old _ _ _ held').1

/-- One more socket is held, and nothing else about who holds what has changed. -/
structure Gained (w after : Worker) (c : ConnId) (slot : Slot) (s : SocketId) : Prop where
  listed : ∀ c' ∈ after.connectList, c' < after.connMade
  holds : ∀ c' slot' other, after.Holds c' slot' other ↔
    w.Holds c' slot' other ∨ (c' = c ∧ slot' = slot ∧ other = s)
  usesPool : ∀ c' slot' other, w.Holds c' (.backend slot') other →
    (after.conn c').usesPool = (w.conn c').usesPool
  protocolBase : ∀ c' slot' other, w.Holds c' (.backend slot') other →
    (after.conn c').protocolBase = (w.conn c').protocolBase

/-- Filling an empty slot of a connection gains the socket it is filled with. -/
theorem Owned.gained {w after : Worker} (owned : Owned w) {c : ConnId} {slot : BackendSlot}
    {s : SocketId} (member : c ∈ w.connectList) (list : after.connectList = w.connectList)
    (connMade : after.connMade = w.connMade) {conn : Connection}
    (update : after.conn = Function.update w.conn c conn)
    (vacant : (w.conn c).sock.backend slot = none) (filled : conn.sock.backend slot = some s)
    (others : ∀ other, other ≠ .backend slot → conn.sock.at other = (w.conn c).sock.at other)
    (usesPool : conn.usesPool = (w.conn c).usesPool)
    (protocolBase : conn.protocolBase = (w.conn c).protocolBase) :
    Gained w after c (.backend slot) s := by
  -- Only the slot of this connection is new, and it was empty before.
  have elsewhere : ∀ c', c' ≠ c → after.conn c' = w.conn c' := fun c' differs => by
    rw [update, Function.update_of_ne differs]
  have here : after.conn c = conn := by rw [update, Function.update_self]
  refine ⟨list ▸ connMade ▸ owned.listed, fun c' slot' other => ?_, fun c' _ _ _ => ?_,
    fun c' _ _ _ => ?_⟩
  · constructor
    · rintro ⟨member', at_⟩
      rw [list] at member'
      by_cases same : c' = c
      · subst same
        rw [here] at at_
        by_cases sameSlot : slot' = .backend slot
        · subst sameSlot
          exact .inr ⟨rfl, rfl, Option.some.inj (at_.symm.trans filled)⟩
        · exact .inl ⟨member', (others slot' sameSlot).symm.trans at_⟩
      · rw [elsewhere c' same] at at_
        exact .inl ⟨member', at_⟩
    · rintro (⟨member', at_⟩ | ⟨rfl, rfl, rfl⟩)
      · refine ⟨list ▸ member', ?_⟩
        by_cases same : c' = c
        · subst same
          have otherSlot : slot' ≠ .backend slot := by
            rintro rfl
            rw [show (w.conn c').sock.at (.backend slot) = (w.conn c').sock.backend slot from rfl,
              vacant] at at_
            cases at_
          rw [here]
          exact (others slot' otherSlot).trans at_
        · rw [elsewhere c' same]
          exact at_
      · exact ⟨list ▸ member, by rw [here]; exact filled⟩
  · by_cases same : c' = c
    · rw [same, here, usesPool]
    · rw [elsewhere c' same]
  · by_cases same : c' = c
    · rw [same, here, protocolBase]
    · rw [elsewhere c' same]

/-- A backend from the pool is idle no more, and is held by the connection it was got for. -/
theorem Owned.take {w after : Worker} (owned : Owned w) {c : ConnId} {slot : BackendSlot}
    {s : SocketId} (gained : Gained w after c (.backend slot) s)
    (pooled : (after.conn c).usesPool = true) (protocol : (after.conn c).protocolBase = true)
    (store : after.store = w.store) {dbAddr : Bytes}
    {port : UInt32} {connArgs : Bytes}
    (done : w.pool.getBackendConnect w.store dbAddr port connArgs = (some s, after.pool)) :
    Owned after ∧ (AllUsedLive w → AllUsedLive after) := by
  obtain ⟨core, used, -, given⟩ := get_spec owned.core done
  obtain ⟨wasIdle, gone, idle, si, inside, self, usedAfter⟩ := given s rfl
  have alive := owned.core.idleLive _ s wasIdle
  have opened := owned.core.idleOpen _ s wasIdle
  -- The socket was idle, so no connection held it.
  have differs : ∀ c' slot' other, w.Holds c' slot' other → other ≠ s := by
    rintro c' slot' other held rfl
    exact owned.heldBusy c' slot' other held _ wasIdle
  have sub : ∀ hash si', si' ∈ after.pool.idleAt hash → si' ∈ w.pool.idleAt hash := by
    intro hash si' member
    rcases ConnectionPool.getBackendConnect_cases w.pool w.store dbAddr port connArgs with
      ⟨nothing, -⟩ | ⟨front, popped, pool, some_, held, idle', -⟩
    · rw [done] at nothing
      cases nothing
    · rw [done] at some_
      cases some_
      rw [idle' hash] at member
      split at member
      · next same => exact same ▸ held ▸ List.mem_append_left _ member
      · exact member
  refine ⟨⟨store ▸ owned.sound, store ▸ core, ?_, ?_, ?_, ?_, ?_, ?_, ?_, ?_, ?_, ?_⟩, ?_⟩
  · exact fun hash si' member => owned.idleFree hash si' (sub hash si' member)
  · intro fd other found
    rw [store]
    rw [usedAfter fd] at found
    split at found
    · cases found
      exact self ▸ alive.1
    · exact owned.usedMade fd other found
  · exact gained.listed
  · intro c' slot' other held
    rw [store]
    rcases (gained.holds _ _ _).mp held with before | ⟨rfl, rfl, rfl⟩
    · exact owned.heldLive _ _ _ before
    · exact alive
  · intro c' slot' other held
    rw [store]
    rcases (gained.holds _ _ _).mp held with before | ⟨rfl, rfl, rfl⟩
    · exact owned.heldOpen _ _ _ before
    · exact opened
  · intro c₁ slot₁ c₂ slot₂ other held₁ held₂
    rcases (gained.holds _ _ _).mp held₁ with before₁ | ⟨rfl, rfl, same₁⟩
    · rcases (gained.holds _ _ _).mp held₂ with before₂ | ⟨rfl, rfl, same₂⟩
      · exact owned.heldApart _ _ _ _ _ before₁ before₂
      · exact absurd same₂ (differs _ _ _ before₁)
    · rcases (gained.holds _ _ _).mp held₂ with before₂ | ⟨rfl, rfl, -⟩
      · exact absurd same₁ (differs _ _ _ before₂)
      · exact ⟨rfl, rfl⟩
  · intro c' slot' other held hash member
    rcases (gained.holds _ _ _).mp held with before | ⟨rfl, rfl, rfl⟩
    · exact owned.heldBusy _ _ _ before hash ((idle hash other).mp member).1
    · exact gone hash member
  · intro c' slot' other held pooled'
    rw [store]
    rcases (gained.holds _ _ _).mp held with before | ⟨rfl, -, rfl⟩
    · rw [gained.usesPool _ _ _ before] at pooled'
      obtain ⟨si', found, rest⟩ := owned.heldUsed _ _ _ before pooled'
      refine ⟨si', ?_, rest⟩
      rw [usedAfter, if_neg]
      · exact found
      · intro same
        exact differs _ _ _ before (owned.sound.fdsDistinct s other alive
          (owned.heldLive _ _ _ before) opened same).symm
    · exact ⟨{ si with startUseTime := w.pool.currentTime }, by rw [usedAfter, if_pos rfl], self,
        owned.idleFree _ si inside⟩
  · intro fd other found live
    rw [store] at live
    rw [usedAfter fd] at found
    split at found
    · cases found
      exact ⟨c, slot, (gained.holds _ _ _).mpr (.inr ⟨rfl, rfl, self⟩), pooled⟩
    · obtain ⟨c', slot', held, pooled'⟩ := owned.usedHeld fd other found live
      exact ⟨c', slot', (gained.holds _ _ _).mpr (.inl held),
        (gained.usesPool _ _ _ held).trans pooled'⟩
  · intro c' slot' other held
    rcases (gained.holds _ _ _).mp held with before | ⟨rfl, -, -⟩
    · rw [gained.protocolBase _ _ _ before]
      exact owned.attached _ _ _ before
    · exact protocol
  · intro allLive
    rw [AllUsedLive, store]
    exact used allLive

/--
A socket that is new and open is held by the connection it was made for, and by nobody else.

The pool is told of backends of connections that use it.
-/
theorem Owned.create {w after : Worker} (owned : Owned w) {c : ConnId} {slot : Slot}
    (gained : Gained w after c slot w.store.made)
    (protocol : slot ≠ .client → (after.conn c).protocolBase = true)
    (sound : after.store.Sound) (made : after.store.made = w.store.made + 1)
    (live : ∀ s, after.store.Live s ↔ w.store.Live s ∨ s = w.store.made)
    (fd : ∀ s < w.store.made, after.store.fd s = w.store.fd s)
    (opened : after.store.fd w.store.made ≠ 0)
    (pool : after.pool = if slot ≠ .client ∧ (after.conn c).usesPool = true then
      w.pool.saveBackendConnect after.store w.store.made true true true else w.pool) :
    Owned after ∧ (AllUsedLive w → AllUsedLive after) := by
  have below : ∀ c' slot' other, w.Holds c' slot' other → other < w.store.made :=
    fun c' slot' other held => (owned.heldLive c' slot' other held).1
  have alive : after.store.Live w.store.made := (live _).mpr (.inr rfl)
  have liveOld : ∀ s < w.store.made, (after.store.Live s ↔ w.store.Live s) := by
    intro s old
    rw [live]
    exact ⟨fun either => either.resolve_right (Nat.ne_of_lt old), .inl⟩
  have idleBelow : ∀ hash s, s ∈ w.pool.idleIds hash → s < w.store.made :=
    fun hash s member => (owned.core.idleLive hash s member).1
  -- Seen from the pool the new store differs in nothing.
  have core : PoolCore after.store w.pool := by
    refine owned.core.of_store ?_ ?_
    · intro hash s member
      have old := idleBelow hash s member
      exact ⟨(liveOld s old).mpr (owned.core.idleLive hash s member), fd s old⟩
    · intro at_ si found alive'
      have old := owned.usedMade at_ si found
      exact ⟨(liveOld _ old).mp alive', fd _ old⟩
  have notIdle : ∀ hash, w.store.made ∉ w.pool.idleIds hash :=
    fun hash member => Nat.lt_irrefl _ (idleBelow hash _ member)
  have idle : ∀ hash, after.pool.idleAt hash = w.pool.idleAt hash := by
    intro hash
    rw [pool]
    split
    · exact (saveBackendConnect_used _ _ _ _ _).1 hash
    · rfl
  have ids : ∀ hash, after.pool.idleIds hash = w.pool.idleIds hash := fun hash => by
    rw [idleIds, idle hash, idleIds]
  -- The used entries are those of before, and in a pooled connection's case the new socket's.
  have entry : ∀ at_ si, after.pool.usedAt at_ = some si → w.pool.usedAt at_ = some si ∨
      (si.socket = w.store.made ∧ slot ≠ .client ∧ (after.conn c).usesPool = true) := by
    intro at_ si found
    rw [pool] at found
    split at found
    · next pooled =>
      rw [(saveBackendConnect_used _ _ _ _ _).2 at_] at found
      split at found
      · cases found
        exact .inr ⟨rfl, pooled.1, pooled.2⟩
      · exact .inl found
    · exact .inl found
  have pooledCore : PoolCore after.store after.pool ∧
      (UsedLive after.store w.pool → UsedLive after.store after.pool) := by
    rw [pool]
    split
    · exact save_used_spec core alive opened notIdle true true
    · exact ⟨core, id⟩
  refine ⟨⟨sound, pooledCore.1, ?_, ?_, ?_, ?_, ?_, ?_, ?_, ?_, ?_, ?_⟩, ?_⟩
  · intro hash si member
    rw [idle hash] at member
    exact owned.idleFree hash si member
  · intro at_ si found
    rw [made]
    rcases entry at_ si found with before | ⟨new, -⟩
    · exact Nat.lt_succ_of_lt (owned.usedMade at_ si before)
    · exact new ▸ Nat.lt_succ_self _
  · exact gained.listed
  · intro c' slot' other held
    rcases (gained.holds _ _ _).mp held with before | ⟨-, -, rfl⟩
    · exact (liveOld _ (below _ _ _ before)).mpr (owned.heldLive _ _ _ before)
    · exact alive
  · intro c' slot' other held
    rcases (gained.holds _ _ _).mp held with before | ⟨-, -, rfl⟩
    · rw [fd _ (below _ _ _ before)]
      exact owned.heldOpen _ _ _ before
    · exact opened
  · intro c₁ slot₁ c₂ slot₂ other held₁ held₂
    rcases (gained.holds _ _ _).mp held₁ with before₁ | ⟨rfl, rfl, same₁⟩
    · rcases (gained.holds _ _ _).mp held₂ with before₂ | ⟨rfl, rfl, same₂⟩
      · exact owned.heldApart _ _ _ _ _ before₁ before₂
      · exact absurd same₂ (Nat.ne_of_lt (below _ _ _ before₁))
    · rcases (gained.holds _ _ _).mp held₂ with before₂ | ⟨rfl, rfl, -⟩
      · exact absurd same₁ (Nat.ne_of_lt (below _ _ _ before₂))
      · exact ⟨rfl, rfl⟩
  · intro c' slot' other held hash
    rw [ids hash]
    rcases (gained.holds _ _ _).mp held with before | ⟨-, -, rfl⟩
    · exact owned.heldBusy _ _ _ before hash
    · exact notIdle hash
  · intro c' slot' other held pooled'
    rcases (gained.holds _ _ _).mp held with before | ⟨rfl, isSlot, rfl⟩
    · rw [gained.usesPool _ _ _ before] at pooled'
      obtain ⟨si, found, rest⟩ := owned.heldUsed _ _ _ before pooled'
      refine ⟨si, ?_, rest⟩
      have old := below _ _ _ before
      rw [fd _ old, pool]
      split
      · rw [(saveBackendConnect_used _ _ _ _ _).2, if_neg]
        · exact found
        · -- The new descriptor is no other live socket's.
          intro same
          rw [← fd _ old] at same
          exact Nat.ne_of_gt old (sound.fdsDistinct _ _ alive
            ((liveOld _ old).mpr (owned.heldLive _ _ _ before)) opened same)
      · exact found
    · rw [pool, if_pos ⟨isSlot ▸ Slot.noConfusion, pooled'⟩]
      exact ⟨_, by rw [(saveBackendConnect_used _ _ _ _ _).2, if_pos rfl], rfl, rfl⟩
  · intro at_ si found alive'
    rcases entry at_ si found with before | ⟨new, backend, pooled'⟩
    · have old := owned.usedMade at_ si before
      obtain ⟨c', slot', held, pooled'⟩ := owned.usedHeld at_ si before ((liveOld _ old).mp alive')
      exact ⟨c', slot', (gained.holds _ _ _).mpr (.inl held),
        (gained.usesPool _ _ _ held).trans pooled'⟩
    · cases slot with
      | client => exact absurd rfl backend
      | backend slot => exact ⟨c, slot, (gained.holds _ _ _).mpr (.inr ⟨rfl, rfl, new⟩), pooled'⟩
  · intro c' slot' other held
    rcases (gained.holds _ _ _).mp held with before | ⟨rfl, isSlot, -⟩
    · rw [gained.protocolBase _ _ _ before]
      exact owned.attached _ _ _ before
    · exact protocol (isSlot ▸ Slot.noConfusion)
  · intro allLive
    refine pooledCore.2 fun at_ si found => ?_
    exact (liveOld _ (owned.usedMade at_ si found)).mpr (allLive at_ si found)

end Worker

end OneProxy
