import OneProxy.Session.Ownership

/-! Releasing the backends of a connection: each is returned or destroyed, and nobody else's is. -/

namespace OneProxy

open ConnectionPool

namespace SocketSet

variable (sock : SocketSet) (slot : BackendSlot) (ns : Option SocketId)

/-- The slot that is stored to. -/
@[simp] theorem backend_setBackend : (sock.setBackend slot ns).backend slot = ns := by
  cases slot <;> rfl

/-- The other slots stay. -/
theorem at_setBackend {other : Slot} (differs : other ≠ .backend slot) :
    (sock.setBackend slot ns).at other = sock.at other := by
  cases other with
  | client => cases slot <;> rfl
  | backend other => cases slot <;> cases other <;> first | rfl | exact absurd rfl differs

/-- The other backend stays. -/
theorem backend_setBackend_of_ne {other : BackendSlot} (differs : other ≠ slot) :
    (sock.setBackend slot ns).backend other = sock.backend other := by
  cases slot <;> cases other <;> first | rfl | exact absurd rfl differs

/-- Emptying an empty slot does nothing. -/
theorem setBackend_none (empty : sock.backend slot = none) : sock.setBackend slot none = sock := by
  cases slot
  · exact congrArg (fun masters => { sock with masters := masters }) empty.symm
  · exact congrArg (fun slavers => { sock with slavers := slavers }) empty.symm

end SocketSet

namespace Worker

/-- A socket is idle, or has been destroyed once. -/
def Placed (w : Worker) (s : SocketId) : Prop :=
  (∃ hash, s ∈ w.pool.idleIds hash) ∨ w.store.freed.count s = 1

/-- What a connection holds is neither idle nor destroyed. -/
theorem Owned.not_placed {w : Worker} (owned : Owned w) {c : ConnId} {slot : Slot} {s : SocketId}
    (held : w.Holds c slot s) : ¬ w.Placed s := by
  rintro (⟨hash, idle⟩ | once)
  · exact owned.heldBusy c slot s held hash idle
  · rw [List.count_eq_zero_of_not_mem (owned.heldLive c slot s held).2] at once
    exact absurd once (by decide)

/-- One backend of a connection has been dealt with, and all is well with everything else. -/
structure Settles (w after : Worker) (c : ConnId) (slot : BackendSlot) : Prop where
  owned : Owned after
  used : AllUsedLive w → AllUsedLive after
  list : after.connectList = w.connectList
  vacant : (after.conn c).sock.backend slot = none
  others : ∀ other, other ≠ .backend slot → (after.conn c).sock.at other = (w.conn c).sock.at other
  usesPool : (after.conn c).usesPool = (w.conn c).usesPool
  placed : ∀ s, (w.conn c).sock.backend slot = some s → after.Placed s
  kept : ∀ s, w.Placed s → after.Placed s

end Worker

namespace Release

open Worker

/-- The thread, as a release of a connection has left it so far. -/
def worker (r : Release) (w : Worker) (c : ConnId) : Worker :=
  (w.withSockets r.sk).updateConn c fun _ => r.conn

/-- Forgets one backend of the connection. -/
def clear (r : Release) (slot : BackendSlot) : Release :=
  { r with conn := r.conn.updateSock (·.setBackend slot none) }

variable {r : Release} {w : Worker} {c : ConnId} {slot : BackendSlot}

/-- The connection is the one being released. -/
@[simp] theorem worker_conn : (r.worker w c).conn c = r.conn := Function.update_self _ _ _

/-- A release changes the connection released, and no other. -/
theorem worker_update (r after : Release) (w : Worker) (c : ConnId) :
    (after.worker w c).conn = Function.update (r.worker w c).conn c after.conn := by
  show Function.update w.conn c after.conn = Function.update (Function.update w.conn c r.conn) c _
  rw [Function.update_idem]

/-- Dropping the socket of one backend, as each way of dealing with it does. -/
theorem dropped (after : Release) (owned : Owned (r.worker w c)) (member : c ∈ w.connectList)
    {s : SocketId}
    (held : r.conn.sock.backend slot = some s)
    (conn : after.conn = r.conn.updateSock (·.setBackend slot none)) :
    Dropped (r.worker w c) (after.worker w c) s := by
  have holds : (r.worker w c).Holds c (.backend slot) s := ⟨member, by rw [worker_conn]; exact held⟩
  refine owned.dropped (f := (·.setBackend slot none)) holds rfl rfl ?_
    (SocketSet.backend_setBackend _ _ _) (fun other differs =>
      SocketSet.at_setBackend _ _ _ differs)
  rw [worker_update r, conn, worker_conn]

/-- Dealing with a slot that is empty changes nothing. -/
theorem settles_empty {after : Release} (owned : Owned (r.worker w c))
    (empty : r.conn.sock.backend slot = none)
    (same : after.worker w c = r.worker w c) :
    Settles (r.worker w c) (after.worker w c) c slot := by
  rw [same]
  refine ⟨owned, id, rfl, by rw [worker_conn, empty], fun _ _ => rfl, rfl, fun s held => ?_,
    fun _ => id⟩
  rw [worker_conn, empty] at held
  cases held

/-- What `Settles` says of the connection itself, when one slot is emptied. -/
theorem settles_of_drop {after : Release}
    (conn : after.conn = r.conn.updateSock (·.setBackend slot none))
    (owned : Owned (after.worker w c))
    (used : AllUsedLive (r.worker w c) → AllUsedLive (after.worker w c))
    (placed : ∀ s, r.conn.sock.backend slot = some s → (after.worker w c).Placed s)
    (kept : ∀ s, (r.worker w c).Placed s → (after.worker w c).Placed s) :
    Settles (r.worker w c) (after.worker w c) c slot := by
  refine ⟨owned, used, rfl, ?_, ?_, ?_, fun s held => placed s (by rwa [worker_conn] at held), kept⟩
  · rw [worker_conn, conn]
    exact SocketSet.backend_setBackend _ _ _
  · intro other differs
    rw [worker_conn, worker_conn, conn]
    exact SocketSet.at_setBackend _ _ _ differs
  · rw [worker_conn, worker_conn, conn]
    rfl

/-- A backend of a pooled connection that is given back is idle. -/
theorem giveBack_settles (slot : BackendSlot) (owned : Owned (r.worker w c))
    (member : c ∈ w.connectList)
    (pooled : r.conn.usesPool = true) :
    Settles (r.worker w c) ((r.giveBack slot).worker w c) c slot ∧
      (r.giveBack slot).type = r.type ∧ (r.giveBack slot).conn.usesPool = true := by
  cases held : r.conn.sock.backend slot with
  | none =>
    have same : r.giveBack slot = r := by
      rw [giveBack, held]
      show { r with conn := r.conn.updateSock (·.setBackend slot none) } = r
      rw [Connection.updateSock, SocketSet.setBackend_none _ _ held]
    rw [same]
    exact ⟨settles_empty owned held rfl, rfl, pooled⟩
  | some s =>
    have holds : (r.worker w c).Holds c (.backend slot) s :=
      ⟨member, by rw [worker_conn]; exact held⟩
    have pooledHere : ((r.worker w c).conn c).usesPool = true := by rw [worker_conn]; exact pooled
    -- The pool knows the socket, so it takes it.
    obtain ⟨si, found, self, -⟩ := owned.heldUsed c slot s holds pooledHere
    obtain ⟨ret0, -⟩ := set_spec owned.core (owned.heldLive c _ s holds) found self
      (Prod.eta (r.sk.pool.setBackendConnect r.sk.store s)).symm
    have same : r.giveBack slot = { r with
        sk := (setOldSocketToPool r.sk s).2
        conn := r.conn.updateSock (·.setBackend slot none), returned := r.returned ++ [slot] } := by
      rw [giveBack, held]
      exact if_neg (not_not.mpr ret0)
    have drop := dropped (r.giveBack slot) owned member held (by rw [same])
    obtain ⟨-, ownedAfter, used, idle, kept⟩ := owned.giveBack holds pooledHere drop
      (by rw [same]; rfl) (r.sk.pool.setBackendConnect r.sk.store s).1 (by rw [same]; rfl)
    refine ⟨settles_of_drop (by rw [same]) ownedAfter used ?_ ?_, by rw [same], by
      rw [same]; exact pooled⟩
    · intro other held'
      rw [held] at held'
      cases held'
      exact .inl idle
    · rintro other (⟨hash, inside⟩ | once)
      · exact .inl ⟨hash, kept hash other inside⟩
      · exact .inr (by rw [same]; exact once)

/-- One more socket destroyed, which was held before, leaves placed what was. -/
theorem placed_of_delete {w after : Worker} {s : SocketId} (owned : Owned w) {c : ConnId}
    {slot : Slot}
    (held : w.Holds c slot s) (store : after.store = w.store.delete s)
    (idle : ∀ hash, after.pool.idleIds hash = w.pool.idleIds hash) :
    after.Placed s ∧ ∀ other, w.Placed other → after.Placed other := by
  have alive := owned.heldLive c slot s held
  refine ⟨.inr ?_, ?_⟩
  · rw [store, Store.delete_freed, List.count_append, List.count_eq_zero_of_not_mem alive.2]
    simp
  · intro other placed
    have differs : other ≠ s := by
      rintro rfl
      exact owned.not_placed held placed
    rcases placed with ⟨hash, inside⟩ | once
    · exact .inl ⟨hash, by rw [idle hash]; exact inside⟩
    · refine .inr ?_
      rw [store, Store.delete_freed, List.count_append, once,
        List.count_eq_zero_of_not_mem (by simpa using differs)]

/-- A backend of a pooled connection that is let go is destroyed. -/
theorem letGo_settles (slot : BackendSlot) (owned : Owned (r.worker w c))
    (member : c ∈ w.connectList)
    (pooled : r.conn.usesPool = true) :
    Settles (r.worker w c) (((r.letGo slot).clear slot).worker w c) c slot ∧
      ((r.letGo slot).clear slot).conn.usesPool = true := by
  cases held : r.conn.sock.backend slot with
  | none =>
    have same : ((r.letGo slot).clear slot) = r := by
      rw [letGo, held]
      show { r with conn := r.conn.updateSock (·.setBackend slot none) } = r
      rw [Connection.updateSock, SocketSet.setBackend_none _ _ held]
    rw [same]
    exact ⟨settles_empty owned held rfl, pooled⟩
  -- The pool knows the socket of a pooled connection, and destroys it.
  | some s =>
    have holds : (r.worker w c).Holds c (.backend slot) s :=
      ⟨member, by rw [worker_conn]; exact held⟩
    have pooledHere : ((r.worker w c).conn c).usesPool = true := by rw [worker_conn]; exact pooled
    have same : (r.letGo slot).clear slot = { r with
        sk := ⟨(r.sk.pool.releaseBackendSocket r.sk.store s).1,
          (r.sk.pool.releaseBackendSocket r.sk.store s).2⟩
        conn := r.conn.updateSock (·.setBackend slot none), released := r.released ++ [slot] } := by
      rw [letGo, held]
      rfl
    have drop := dropped ((r.letGo slot).clear slot) owned member held (by rw [same])
    obtain ⟨ownedAfter, used, store, idle⟩ := owned.letGo holds pooledHere drop (by rw [same]; rfl)
    obtain ⟨placed, kept⟩ := placed_of_delete owned holds store idle
    refine ⟨settles_of_drop (by rw [same]) ownedAfter used ?_ kept, by rw [same]; exact pooled⟩
    intro other held'
    rw [held] at held'
    cases held'
    exact placed

/-- A backend of a connection without pool is destroyed. -/
theorem destroy_settles (slot : BackendSlot) (owned : Owned (r.worker w c))
    (member : c ∈ w.connectList)
    (unpooled : r.conn.usesPool = false) :
    Settles (r.worker w c) (((r.destroy slot).clear slot).worker w c) c slot ∧
      ((r.destroy slot).clear slot).conn.usesPool = false := by
  cases held : r.conn.sock.backend slot with
  | none =>
    have same : ((r.destroy slot).clear slot) = r := by
      rw [destroy, held]
      show { r with conn := r.conn.updateSock (·.setBackend slot none) } = r
      rw [Connection.updateSock, SocketSet.setBackend_none _ _ held]
    rw [same]
    exact ⟨settles_empty owned held rfl, unpooled⟩
  -- Without a pool there is no entry that the destruction could leave behind.
  | some s =>
    have holds : (r.worker w c).Holds c (.backend slot) s :=
      ⟨member, by rw [worker_conn]; exact held⟩
    have same : (r.destroy slot).clear slot = { r with
        sk := { r.sk with store := r.sk.store.delete s }
        conn := r.conn.updateSock (·.setBackend slot none) } := by
      rw [destroy, held]
      rfl
    have drop := dropped ((r.destroy slot).clear slot) owned member held (by rw [same])
    have store : ((((r.destroy slot).clear slot).worker w c)).store =
        (r.worker w c).store.delete s := by
      rw [same]
      rfl
    have pool : ((((r.destroy slot).clear slot).worker w c)).pool = (r.worker w c).pool := by
      rw [same]
      rfl
    obtain ⟨ownedAfter, used⟩ := owned.close holds drop store pool
    obtain ⟨placed, kept⟩ := placed_of_delete owned holds store (fun hash => by rw [pool])
    refine ⟨settles_of_drop (by rw [same]) ownedAfter (fun live => used live (.inr ?_)) ?_ kept,
      by rw [same]; exact unpooled⟩
    · rw [worker_conn]
      exact unpooled
    · intro other held'
      rw [held] at held'
      cases held'
      exact placed

/-- A release that has not begun leaves the thread as it is. -/
theorem worker_self (w : Worker) (c : ConnId) (type : ConnFinishType) (returned released) :
    (Release.mk ⟨w.store, w.pool⟩ (w.conn c) type returned released).worker w c = w := by
  show { w with conn := Function.update w.conn c (w.conn c) } = w
  rw [Function.update_eq_self]

/-- Forgetting a backend that is not there does nothing. -/
theorem clear_vacant (r : Release) (slot : BackendSlot) (vacant : r.conn.sock.backend slot = none) :
    r.clear slot = r := by
  show { r with conn := r.conn.updateSock (·.setBackend slot none) } = r
  rw [Connection.updateSock, SocketSet.setBackend_none _ _ vacant]

/-- Letting one backend go and forgetting the other can be done in either order. -/
theorem letGo_clear (r : Release) : (r.clear .masters).letGo .slavers =
      (r.letGo .slavers).clear .masters := by
  have same : (r.clear .masters).conn.sock.backend .slavers = r.conn.sock.backend .slavers := rfl
  unfold letGo
  rw [same]
  cases r.conn.sock.backend .slavers <;> rfl

/-- Destroying one backend and forgetting the other can be done in either order. -/
theorem destroy_clear (r : Release) :
    (r.clear .masters).destroy .slavers = (r.destroy .slavers).clear .masters := by
  have same : (r.clear .masters).conn.sock.backend .slavers = r.conn.sock.backend .slavers := rfl
  unfold destroy
  rw [same]
  cases r.conn.sock.backend .slavers <;> rfl

end Release

namespace Worker

open Release

/-- What a release of a connection has done when it is over. -/
structure Released (w after : Worker) (c : ConnId) : Prop where
  owned : Owned after
  used : AllUsedLive w → AllUsedLive after
  list : after.connectList = w.connectList
  vacant : ∀ slot, (after.conn c).sock.backend slot = none
  client : (after.conn c).sock.curclins = (w.conn c).sock.curclins
  placed : ∀ slot s, (w.conn c).sock.backend slot = some s → after.Placed s

/-- Dealing with one backend and then with the other releases the connection. -/
theorem Settles.both {w middle after : Worker} {c : ConnId} (first : Settles w middle c .masters)
    (second : Settles middle after c .slavers) : Released w after c where
  owned := second.owned
  used live := second.used (first.used live)
  list := second.list.trans first.list
  vacant slot := by
    cases slot with
    | masters => exact (second.others (.backend .masters) (by decide)).trans first.vacant
    | slavers => exact second.vacant
  client := (second.others .client (by decide)).trans (first.others .client (by decide))
  placed slot s held := by
    cases slot with
    | masters => exact second.kept s (first.placed s held)
    | slavers => exact second.placed s ((first.others (.backend .slavers) (by decide)).trans held)

/-- `protocol_releaseBackendConnect` returns or destroys each backend, whatever the reason. -/
theorem Owned.protocolReleaseBackendConnect {w : Worker} (owned : Owned w) {c : ConnId}
    (member : c ∈ w.connectList) (type : ConnFinishType) :
    Released w ((protocolReleaseBackendConnect ⟨w.store, w.pool⟩ (w.conn c) type).worker w c)
      c := by
  by_cases pooled : (w.conn c).usesPool = true
  · let r : Release := ⟨⟨w.store, w.pool⟩, w.conn c, releaseType (w.conn c) type, [], []⟩
    have start : r.worker w c = w := worker_self w c _ _ _
    have ownedStart : Owned (r.worker w c) := start.symm ▸ owned
    by_cases isErr : releaseType (w.conn c) type = .err
    · -- Both are let go.
      have same : OneProxy.protocolReleaseBackendConnect ⟨w.store, w.pool⟩ (w.conn c) type =
          ((((r.letGo .masters).clear .masters).letGo .slavers).clear .slavers) := by
        rw [letGo_clear, OneProxy.protocolReleaseBackendConnect]
        dsimp only
        rw [if_pos pooled, if_neg (not_not.mpr isErr), if_pos isErr]
        rfl
      obtain ⟨first, pooled'⟩ := letGo_settles .masters ownedStart member pooled
      obtain ⟨second, -⟩ := letGo_settles .slavers first.owned member pooled'
      have both := first.both second
      rw [start] at both
      rw [same]
      exact both
    · obtain ⟨first, type₁, pooled₁⟩ := giveBack_settles .masters ownedStart member pooled
      obtain ⟨second, type₂, -⟩ := giveBack_settles .slavers first.owned member pooled₁
      have both := first.both second
      have vacant : ∀ slot, ((r.giveBack .masters).giveBack .slavers).conn.sock.backend slot =
          none := by
        intro slot
        have := both.vacant slot
        rwa [worker_conn] at this
      have stays : ((r.giveBack .masters).giveBack .slavers).type ≠ .err := by
        rw [type₂, type₁]
        exact isErr
      have same : OneProxy.protocolReleaseBackendConnect ⟨w.store, w.pool⟩ (w.conn c) type =
          (r.giveBack .masters).giveBack .slavers := by
        have cleared := clear_vacant _ .slavers (vacant .slavers)
        rw [← cleared, ← clear_vacant _ .masters (vacant .masters)]
        rw [OneProxy.protocolReleaseBackendConnect]
        dsimp only
        rw [if_pos pooled, if_pos isErr, if_neg stays]
        rfl
      rw [start] at both
      rw [same]
      exact both
  · let r : Release := ⟨⟨w.store, w.pool⟩, w.conn c, type, [], []⟩
    have start : r.worker w c = w := worker_self w c _ _ _
    have ownedStart : Owned (r.worker w c) := start.symm ▸ owned
    have unpooled : (w.conn c).usesPool = false := by simpa using pooled
    have same : OneProxy.protocolReleaseBackendConnect ⟨w.store, w.pool⟩ (w.conn c) type =
        ((((r.destroy .masters).clear .masters).destroy .slavers).clear .slavers) := by
      rw [destroy_clear, OneProxy.protocolReleaseBackendConnect]
      dsimp only
      rw [if_neg pooled]
      rfl
    obtain ⟨first, unpooled'⟩ := destroy_settles .masters ownedStart member unpooled
    obtain ⟨second, -⟩ := destroy_settles .slavers first.owned member unpooled'
    have both := first.both second
    rw [start] at both
    rw [same]
    exact both

end Worker

end OneProxy
