import OneProxy.Lib.Runs
import OneProxy.Pool.PoolInvariant

/-!
Whom the pool hands a connection to: requests, and the logins connections were returned under.
-/

namespace OneProxy

open ConnectionPool Runs

/-- A server and the arguments of a login to it. -/
structure Login where
  dbAddr : Bytes
  port : UInt32
  args : KVStringMap
  deriving DecidableEq

/-- The key a login is looked up by, with the arguments rendered. -/
def Login.key (login : Login) : ConnPoolKey :=
  ⟨login.dbAddr, login.port, NetworkSocket.renderArgs login.args⟩

/-- A connection handed out: the login asked for, and the one the socket was last returned under. -/
structure Handout where
  request : Login
  found : Option Login
  deriving DecidableEq

/-- The socket is a connection to the server and for the login that were asked for. -/
def Handout.Matches (handout : Handout) : Prop := handout.found = some handout.request

instance (handout : Handout) : Decidable handout.Matches :=
  inferInstanceAs (Decidable (handout.found = some handout.request))

/-- The pool, the sockets, and the history of both that isolation is about. -/
structure PoolState where
  store : Store
  pool : ConnectionPool
  /-- The arguments each socket was last returned to the pool under. -/
  returnedArgs : SocketId → Option KVStringMap
  handouts : List Handout

/-- The calls of the pool, and what happens to sockets between them. -/
inductive PoolCall
  | connect (dbAddr : Bytes) (port fd : UInt32)
  | addConnArgs (s : SocketId) (key value : Bytes)
  | configure (check release : UInt64) (active : Bool)
  | saveBackendConnect (s : SocketId) (freeSocket activeFunc isUsing : Bool)
  | setBackendConnect (s : SocketId)
  | getBackendConnect (request : Login)
  | releaseBackendSocket (s : SocketId)
  | checkConnectActive (before after : UInt64) (active : SocketId → Bool)
  | close (s : SocketId)

namespace PoolState

/-- No socket has been made and the pool is empty. -/
def initial (now : UInt64) : PoolState where
  store := ⟨fun _ => .new [] 0, 0, [], fun _ => ⟨[], 0, 0, 0, 0, true⟩⟩
  pool := .new now
  returnedArgs _ := none
  handouts := []

/-- The arguments a socket has now are those it is returned under. -/
def returned (st : PoolState) (s : SocketId) : SocketId → Option KVStringMap :=
  Function.update st.returnedArgs s (some (st.store.object s).connArgsMap)

/-- The socket is in the pool, idle or used. -/
def Pooled (st : PoolState) (s : SocketId) : Prop :=
  s ∈ st.pool.idleSockets ∨ s ∈ st.pool.usedSockets

instance (st : PoolState) (s : SocketId) : Decidable (st.Pooled s) :=
  inferInstanceAs (Decidable (s ∈ st.pool.idleSockets ∨ s ∈ st.pool.usedSockets))

/-- The server of a socket, and the arguments it was last returned under. -/
def login (st : PoolState) (s : SocketId) : Option Login :=
  (st.returnedArgs s).map fun args => ⟨(st.store.object s).address, (st.store.object s).port, args⟩

/--
One call.

The calls are given live sockets. A socket is saved once, connected, and sockets of the pool are
destroyed by the pool alone.
-/
def step (st : PoolState) : PoolCall → Option PoolState
  | .connect dbAddr port fd =>
    let store := st.store.alloc (.new dbAddr port)
    if store.FreshFd fd then
      some { st with store := store.update st.store.made fun ns => { ns with fd := fd } }
    else none
  | .addConnArgs s key value =>
    if st.store.Live s then
      some { st with store := st.store.update s fun ns => ns.addConnArgs key value }
    else none
  | .configure check release active =>
    some { st with pool := { st.pool with
      idleTimeoutCheck := check, idleTimeoutRelease := release, checkActive := active } }
  | .saveBackendConnect s freeSocket activeFunc isUsing =>
    if st.store.Live s ∧ st.store.fd s ≠ 0 ∧ ¬ st.Pooled s then
      some { st with
        pool := st.pool.saveBackendConnect st.store s freeSocket activeFunc isUsing
        returnedArgs := if isUsing then st.returnedArgs else st.returned s }
    else none
  | .setBackendConnect s =>
    if st.store.Live s then
      let (ret, pool) := st.pool.setBackendConnect st.store s
      some { st with
        pool := pool, returnedArgs := if ret = 0 then st.returned s else st.returnedArgs }
    else none
  | .getBackendConnect request =>
    let (ns, pool) := st.pool.getBackendConnect st.store request.dbAddr request.port
      (NetworkSocket.renderArgs request.args)
    some { st with
      pool := pool
      handouts := st.handouts ++ (ns.map fun s => Handout.mk request (st.login s)).toList }
  | .releaseBackendSocket s =>
    if st.store.Live s then
      let (store, pool) := st.pool.releaseBackendSocket st.store s
      some { st with store := store, pool := pool }
    else none
  | .checkConnectActive before after active =>
    let (store, pool) := st.pool.checkConnectActive st.store before after active
    some { st with store := store, pool := pool }
  | .close s =>
    if st.store.Live s ∧ ¬ st.Pooled s then some { st with store := st.store.delete s } else none

/-- The hash tells a request from all other logins that idle sockets were returned under. -/
def NoCollision (st : PoolState) : PoolCall → Prop
  | .getBackendConnect request => ∀ s ∈ st.pool.idleSockets, ∀ login ∈ st.login s,
      login.key.keyHashCode = request.key.keyHashCode → login = request
  | _ => True

instance (st : PoolState) (call : PoolCall) : Decidable (st.NoCollision call) :=
  match call with
  | .getBackendConnect request => List.decidableBAll (fun s => ∀ login ∈ st.login s,
      login.key.keyHashCode = request.key.keyHashCode → login = request) st.pool.idleSockets
  | .connect .. | .addConnArgs .. | .configure .. | .saveBackendConnect .. | .setBackendConnect _
  | .releaseBackendSocket _ | .checkConnectActive .. | .close _ => isTrue trivial

end PoolState

/-- All runs of the pool, from the empty one. -/
def poolSystem : System PoolState PoolCall :=
  .ofStep (fun st => ∃ now, st = .initial now) PoolState.step

/-- The pool is in order, and each idle socket is filed under the login it was returned under. -/
structure Filed (st : PoolState) : Prop where
  sound : st.store.Sound
  core : PoolCore st.store st.pool
  used : UsedLive st.store st.pool
  filed : ∀ hash, ∀ s ∈ st.pool.idleIds hash,
    ∃ login, st.login s = some login ∧ login.key.keyHashCode = hash

/-- The empty pool is in order. -/
theorem filed_initial (now : UInt64) : Filed (.initial now) := by
  refine ⟨⟨by simp [PoolState.initial], ?_⟩, poolCore_new _ now, usedLive_new _ now, ?_⟩
  · intro a b live
    exact absurd live.1 (Nat.not_lt_zero a)
  · intro hash s member
    simp [PoolState.initial, idleIds] at member

/-- A socket that is returned is filed under the login it is returned under. -/
theorem hashOf_returned (st : PoolState) (s : SocketId) : ∃ login,
    PoolState.login { st with returnedArgs := st.returned s } s = some login ∧
      login.key.keyHashCode = hashOf st.store s := by
  refine ⟨⟨(st.store.object s).address, (st.store.object s).port, (st.store.object s).connArgsMap⟩,
    ?_, rfl⟩
  simp [PoolState.login, PoolState.returned]

/-- Logins are read off a socket's server and its last return, and nothing else. -/
theorem login_congr {st after : PoolState} {s : SocketId}
    (args : after.returnedArgs s = st.returnedArgs s)
    (address : (after.store.object s).address = (st.store.object s).address)
    (port : (after.store.object s).port = (st.store.object s).port) :
    after.login s = st.login s := by
  rw [PoolState.login, PoolState.login, args, address, port]

/-- Changes of a live socket that keep its descriptor and its server keep everything filed. -/
theorem Filed.update {st : PoolState} (filed : Filed st) {s : SocketId}
    {f : NetworkSocket → NetworkSocket} (fd : ∀ ns, (f ns).fd = ns.fd)
    (address : ∀ ns, (f ns).address = ns.address) (port : ∀ ns, (f ns).port = ns.port) :
    Filed { st with store := st.store.update s f } := by
  have fds := Store.fd_update st.store s fd
  refine ⟨filed.sound.update fd, filed.core.of_store ?_ ?_, filed.used, ?_⟩
  · exact fun hash other member => ⟨filed.core.idleLive hash other member, fds other⟩
  · exact fun at_ si found live => ⟨live, fds si.socket⟩
  · intro hash other member
    obtain ⟨login, is_, same⟩ := filed.filed hash other member
    refine ⟨login, ?_, same⟩
    rw [← is_]
    by_cases here : other = s
    · subst here
      exact login_congr rfl (by rw [Store.update_object_self, address])
        (by rw [Store.update_object_self, port])
    · exact login_congr rfl (by rw [Store.update_object_of_ne _ _ _ here])
        (by rw [Store.update_object_of_ne _ _ _ here])

/-- A new connection is in nobody's way. -/
theorem Filed.connect {st : PoolState} (filed : Filed st) (dbAddr : Bytes) (port fd : UInt32)
    (fresh : (st.store.alloc (.new dbAddr port)).FreshFd fd) :
    Filed { st with
      store := (st.store.alloc (.new dbAddr port)).update st.store.made fun ns =>
        { ns with fd := fd } } := by
  -- The sockets in the pool were made before.
  have old : ∀ s, s < st.store.made → ((st.store.alloc (.new dbAddr port)).update st.store.made
      fun ns => { ns with fd := fd }).object s = st.store.object s := by
    intro s below
    rw [Store.update_object_of_ne _ _ _ (Nat.ne_of_lt below), Store.alloc_object_of_lt _ _ below]
  have alive : ∀ s, st.store.Live s → (st.store.alloc (.new dbAddr port)).Live s :=
    fun s live => (Store.live_alloc _ _ filed.sound.freedMade s).mpr (.inl live)
  refine ⟨(filed.sound.alloc rfl).open fresh, filed.core.of_store ?_ ?_, ?_, ?_⟩
  · intro hash s member
    have live := filed.core.idleLive hash s member
    exact ⟨alive s live, by rw [Store.fd, old s live.1, Store.fd]⟩
  · intro at_ si found _
    have live := filed.used at_ si found
    exact ⟨live, by rw [Store.fd, old si.socket live.1, Store.fd]⟩
  · exact fun at_ si found => alive si.socket (filed.used at_ si found)
  · intro hash s member
    obtain ⟨login, is_, same⟩ := filed.filed hash s member
    have here := old s (filed.core.idleLive hash s member).1
    exact ⟨login, by rw [← is_]; exact login_congr rfl (by rw [here]) (by rw [here]), same⟩

/-- A socket that the pool does not hold may be destroyed. -/
theorem Filed.delete {st : PoolState} (filed : Filed st) {s : SocketId} (live : st.store.Live s)
    (outside : ¬ st.Pooled s) : Filed { st with store := st.store.delete s } := by
  have notIdle : ∀ hash, s ∉ st.pool.idleIds hash :=
    fun hash inside => outside (.inl (mem_idleSockets.mpr ⟨hash, inside⟩))
  have notUsed : ∀ fd si, st.pool.usedAt fd = some si → si.socket ≠ s :=
    fun fd si found same => outside (.inr (mem_usedSockets.mpr ⟨fd, si, found, same⟩))
  refine ⟨filed.sound.delete live.1, filed.core.delete notIdle, filed.used.delete notUsed, ?_⟩
  intro hash other member
  obtain ⟨login, is_, same⟩ := filed.filed hash other member
  exact ⟨login, by rw [← is_]; exact login_congr rfl (by simp) (by simp), same⟩

/-- Saving a socket files it under its present login, or among the used ones. -/
theorem Filed.save {st : PoolState} (filed : Filed st) {s : SocketId} (live : st.store.Live s)
    (open_ : st.store.fd s ≠ 0) (outside : ¬ st.Pooled s) (freeSocket activeFunc isUsing : Bool) :
    Filed { st with
      pool := st.pool.saveBackendConnect st.store s freeSocket activeFunc isUsing
      returnedArgs := if isUsing then st.returnedArgs else st.returned s } := by
  have notIdle : ∀ hash, s ∉ st.pool.idleIds hash :=
    fun hash inside => outside (.inl (mem_idleSockets.mpr ⟨hash, inside⟩))
  have notUsed : ∀ fd si, st.pool.usedAt fd = some si → si.socket ≠ s :=
    fun fd si found same => outside (.inr (mem_usedSockets.mpr ⟨fd, si, found, same⟩))
  cases isUsing with
  | true =>
    obtain ⟨core, used⟩ := save_used_spec filed.core live open_ notIdle freeSocket activeFunc
    refine ⟨filed.sound, core, used filed.used, ?_⟩
    intro hash other member
    rw [idleIds, (saveBackendConnect_used _ _ _ _ _).1] at member
    exact filed.filed hash other member
  | false =>
    obtain ⟨core, used⟩ :=
      save_idle_spec filed.core live open_ notIdle notUsed freeSocket activeFunc
    refine ⟨filed.sound, core, used filed.used, ?_⟩
    intro hash other member
    rw [idleIds, (saveBackendConnect_idle _ _ _ _ _).1] at member
    -- The socket is filed under the login that is noted for it now.
    by_cases new : other = s
    · subst new
      split at member
      · next here => exact here ▸ hashOf_returned st other
      · exact absurd member (notIdle hash)
    · have before : other ∈ st.pool.idleIds hash := by
        split at member
        · rcases List.mem_cons.mp member with same | old
          · exact absurd same new
          · exact old
        · exact member
      obtain ⟨login, is_, same⟩ := filed.filed hash other before
      refine ⟨login, ?_, same⟩
      rw [← is_]
      exact login_congr (Function.update_of_ne new _ _) rfl rfl

/-- A get only takes an idle socket away. -/
theorem Filed.get {st : PoolState} (filed : Filed st) {dbAddr : Bytes} {port : UInt32}
    {connArgs : Bytes} {ns : Option SocketId} {pool : ConnectionPool} {handouts : List Handout}
    (done : st.pool.getBackendConnect st.store dbAddr port connArgs = (ns, pool)) :
    Filed { st with pool := pool, handouts := handouts } := by
  obtain ⟨core, used, nothing, given⟩ := get_spec filed.core done
  refine ⟨filed.sound, core, used filed.used, ?_⟩
  intro hash s member
  -- What is still idle was idle before.
  have before : s ∈ st.pool.idleIds hash := by
    cases ns with
    | none => exact nothing rfl ▸ member
    | some other => exact (((given other rfl).2.2.1 hash s).mp member).1
  exact filed.filed hash s before

/-- A socket that is returned is filed under its present login. -/
theorem Filed.set {st : PoolState} (filed : Filed st) {s : SocketId} (live : st.store.Live s)
    {ret : Int} {pool : ConnectionPool}
    (done : st.pool.setBackendConnect st.store s = (ret, pool)) :
    Filed { st with
      pool := pool, returnedArgs := if ret = 0 then st.returned s else st.returnedArgs } := by
  cases found : st.pool.usedAt (st.store.fd s) with
  | none =>
    -- The pool does not know the socket, and nothing changes.
    rcases setBackendConnect_cases st.pool st.store s with ⟨same, -⟩ | ⟨si, after, -, known, -⟩
    · rw [done] at same
      cases same
      exact filed
    · rw [found] at known
      cases known
  | some si =>
    have self := filed.core.found_self filed.sound live found (filed.used _ si found)
    obtain ⟨rfl, core, used, idle, -⟩ := set_spec filed.core live found self done
    refine ⟨filed.sound, core, used filed.used, ?_⟩
    intro hash other member
    have notIdle : ∀ hash, s ∉ st.pool.idleIds hash :=
      fun hash => self ▸ filed.core.usedApart _ si hash found
    rw [idleIds, idle hash] at member
    by_cases new : other = s
    · subst new
      split at member
      · next here => exact here ▸ hashOf_returned st other
      · exact absurd member (notIdle hash)
    · have before : other ∈ st.pool.idleIds hash := by
        split at member
        · rw [List.map_append, List.mem_append] at member
          rcases member with old | last
          · exact old
          · exact absurd ((List.mem_singleton.mp last).trans self) new
        · exact member
      obtain ⟨login, is_, same⟩ := filed.filed hash other before
      refine ⟨login, ?_, same⟩
      rw [← is_]
      exact login_congr (Function.update_of_ne new _ _) rfl rfl

/-- A release destroys no idle socket. -/
theorem Filed.release {st : PoolState} (filed : Filed st) {s : SocketId} (live : st.store.Live s)
    {store : Store} {pool : ConnectionPool}
    (done : st.pool.releaseBackendSocket st.store s = (store, pool)) :
    Filed { st with store := store, pool := pool } := by
  cases found : st.pool.usedAt (st.store.fd s) with
  | none =>
    rcases releaseBackendSocket_cases st.pool st.store s with ⟨same, -⟩ | ⟨si, after, -, known, -⟩
    · rw [done] at same
      cases same
      exact filed
    · rw [found] at known
      cases known
  | some si =>
    have self := filed.core.found_self filed.sound live found (filed.used _ si found)
    obtain ⟨rfl, core, used, idle, -⟩ := release_spec filed.core found self live done
    -- What is destroyed is forgotten by the store, but no login changes.
    have objects : (si.delete st.store).object = st.store.object := by
      unfold SockInfo.delete
      split
      · exact Store.delete_object _ _
      · rfl
    refine ⟨?_, core, used filed.used, ?_⟩
    · unfold SockInfo.delete
      split
      · exact filed.sound.delete (self ▸ live.1)
      · exact filed.sound
    · intro hash other member
      rw [idleIds, idle hash] at member
      obtain ⟨login, is_, same⟩ := filed.filed hash other member
      refine ⟨login, ?_, same⟩
      rw [← is_]
      exact login_congr rfl (by rw [objects]) (by rw [objects])

/-- A check only takes idle sockets away. -/
theorem Filed.check {st : PoolState} (filed : Filed st) {before after : UInt64}
    {active : SocketId → Bool} {store : Store} {pool : ConnectionPool}
    (done : st.pool.checkConnectActive st.store before after active = (store, pool)) :
    Filed { st with store := store, pool := pool } := by
  obtain ⟨sound, core, used, object, -, -, -, kept, -⟩ := check_spec filed.sound filed.core done
  refine ⟨sound, core, used filed.used, ?_⟩
  intro hash s member
  have old : s ∈ st.pool.idleIds hash := ((kept hash).map SockInfo.socket).subset member
  obtain ⟨login, is_, same⟩ := filed.filed hash s old
  exact ⟨login, by rw [← is_]; exact login_congr rfl (by rw [object]) (by rw [object]), same⟩

/-- One call keeps the pool in order and everything filed. -/
theorem step_filed {st after : PoolState} {call : PoolCall} (filed : Filed st)
    (done : st.step call = some after) : Filed after := by
  -- One lemma for each call that moves a socket.
  cases call with
  | connect dbAddr port fd =>
    simp only [PoolState.step] at done
    split at done
    · next fresh =>
      cases done
      exact filed.connect dbAddr port fd fresh
    · cases done
  | addConnArgs s key value =>
    simp only [PoolState.step] at done
    split at done
    · cases done
      exact filed.update (fun _ => rfl) (fun _ => rfl) (fun _ => rfl)
    · cases done
  | configure check release active =>
    cases done
    exact ⟨filed.sound, filed.core.of_entries (fun _ => rfl) (fun _ => rfl), filed.used,
      filed.filed⟩
  | saveBackendConnect s freeSocket activeFunc isUsing =>
    simp only [PoolState.step] at done
    split at done
    · next asked =>
      cases done
      exact filed.save asked.1 asked.2.1 asked.2.2 freeSocket activeFunc isUsing
    · cases done
  | setBackendConnect s =>
    simp only [PoolState.step] at done
    split at done
    · next live =>
      cases done
      exact filed.set live rfl
    · cases done
  | getBackendConnect request =>
    cases done
    exact filed.get rfl
  | releaseBackendSocket s =>
    simp only [PoolState.step] at done
    split at done
    · next live =>
      cases done
      exact filed.release live rfl
    · cases done
  | checkConnectActive before after' active =>
    cases done
    exact filed.check rfl
  | close s =>
    simp only [PoolState.step] at done
    split at done
    · next asked =>
      cases done
      exact filed.delete asked.1 asked.2
    · cases done

/-- A call hands out nothing, or the last socket under the hash of its request. -/
theorem step_handouts {st after : PoolState} {call : PoolCall} (filed : Filed st)
    (done : st.step call = some after) : after.handouts = st.handouts ∨
      ∃ request, call = .getBackendConnect request ∧
        ∃ s ∈ st.pool.idleIds request.key.keyHashCode,
          after.handouts = st.handouts ++ [⟨request, st.login s⟩] := by
  -- Only a request can hand out a socket.
  cases call with
  | getBackendConnect request =>
    simp only [PoolState.step, Option.some.injEq] at done
    subst done
    obtain ⟨-, -, -, given⟩ := get_spec filed.core (Prod.eta
      (st.pool.getBackendConnect st.store request.dbAddr request.port
        (NetworkSocket.renderArgs request.args))).symm
    cases result : (st.pool.getBackendConnect st.store request.dbAddr request.port
        (NetworkSocket.renderArgs request.args)).1 with
    | none => exact .inl (by simp)
    | some s => exact .inr ⟨request, rfl, s, (given s result).1, by simp⟩
  | configure check release active | checkConnectActive before after' active =>
    cases done
    exact .inl rfl
  | connect dbAddr port fd | addConnArgs s key value | setBackendConnect s | releaseBackendSocket s
  | close s | saveBackendConnect s freeSocket activeFunc isUsing =>
    simp only [PoolState.step] at done
    split at done
    · cases done
      exact .inl rfl
    · cases done

/-- Where the hash tells the logins apart, every connection handed out is one for the request. -/
theorem handouts_match {st : PoolState}
    (reached : Reachable (poolSystem.restrict PoolState.NoCollision) st) :
    ∀ handout ∈ st.handouts, handout.Matches := by
  have start : ∀ u, (poolSystem.restrict PoolState.NoCollision).init u →
      Filed u ∧ ∀ handout ∈ u.handouts, handout.Matches := by
    rintro u ⟨now, rfl⟩
    exact ⟨filed_initial now, by simp [PoolState.initial]⟩
  refine (reached.invariant start ?_).2
  rintro u call v ⟨filed, matching⟩ ⟨allowed, done⟩
  refine ⟨step_filed filed done, ?_⟩
  rcases step_handouts filed done with same | ⟨request, rfl, s, idle, more⟩
  · exact same ▸ matching
  · -- The socket is filed under the request's hash, so under the request.
    obtain ⟨login, is_, hashed⟩ := filed.filed _ s idle
    have equal := allowed s (mem_idleSockets.mpr ⟨_, idle⟩) login is_ hashed
    rw [more]
    intro handout member
    rcases List.mem_append.mp member with old | new
    · exact matching handout old
    · rw [List.mem_singleton.mp new, Handout.Matches, is_, equal]

/-- Logins to one server, which differ in the password given. -/
def loginWith (pwd : Bytes) : Login := ⟨[100, 98], 3306, KVStringMap.empty.set [112, 119, 100] pwd⟩

/-- A connection is made with the password `abcd` and returned, and then one is asked for. -/
def returnThenGet (request : Login) : List PoolCall :=
  [.connect [100, 98] 3306 5, .addConnArgs 0 [112, 119, 100] [97, 98, 99, 100],
    .saveBackendConnect 0 true true true, .setBackendConnect 0, .getBackendConnect request]

/-- The login that made the connection is handed it again. -/
theorem handouts_match_returned : ∃ st : PoolState, st.handouts.length = 1 ∧
    ∀ handout ∈ st.handouts, handout.Matches := by
  have run : (exec (guarded PoolState.NoCollision PoolState.step) (.initial 0)
      (returnThenGet (loginWith [97, 98, 99, 100]))).map (fun st => st.handouts.length) =
          some 1 := by
    decide +kernel
  obtain ⟨st, reached, seen⟩ :=
    exists_reachable_guarded (fun st => ∃ now, st = PoolState.initial now) ⟨0, rfl⟩ run
  exact ⟨st, seen, handouts_match reached⟩

/--
The login with the password `abxd` is handed the connection that was made with `abcd`.

The third character of a group of four is not hashed.
-/
theorem password_not_told_apart :
    ¬ ∀ st, Reachable poolSystem st → ∀ handout ∈ st.handouts, handout.Matches := by
  intro always
  have run : (exec PoolState.step (.initial 0)
      (returnThenGet (loginWith [97, 98, 120, 100]))).map PoolState.handouts =
        some [⟨loginWith [97, 98, 120, 100], some (loginWith [97, 98, 99, 100])⟩] := by
    decide +kernel
  obtain ⟨st, reached, seen⟩ :=
    exists_reachable (fun st => ∃ now, st = PoolState.initial now) ⟨0, rfl⟩ run
  have matching :=
    always st reached ⟨loginWith [97, 98, 120, 100], some (loginWith [97, 98, 99, 100])⟩
    (by rw [seen]; exact List.mem_singleton_self _)
  exact absurd matching (by decide)

end OneProxy
