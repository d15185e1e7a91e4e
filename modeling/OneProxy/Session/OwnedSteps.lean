import OneProxy.Session.CreateLaws
import OneProxy.Session.ReleaseLaws

/-! Every step of a thread leaves each socket with one owner. -/

namespace OneProxy

open ConnectionPool Runs

namespace Worker

section Fields

variable (w : Worker) (ns : Option SocketId)

/-- Leaving an event only changes the registrations. -/
theorem leaveEvent_fields : (w.leaveEvent ns).store = w.store ∧ (w.leaveEvent ns).pool = w.pool ∧
    (w.leaveEvent ns).conn = w.conn ∧ (w.leaveEvent ns).connectList = w.connectList ∧
    (w.leaveEvent ns).connMade = w.connMade := by
  unfold leaveEvent
  split
  · split
    · exact ⟨rfl, rfl, rfl, rfl, rfl⟩
    · exact ⟨rfl, rfl, rfl, rfl, rfl⟩
  · exact ⟨rfl, rfl, rfl, rfl, rfl⟩

/-- Watching a socket only changes the registrations. -/
theorem watchRead_fields (fp : IoCallback) (c : ConnId) : (w.watchRead ns fp c).store = w.store ∧
    (w.watchRead ns fp c).pool = w.pool ∧ (w.watchRead ns fp c).conn = w.conn ∧
    (w.watchRead ns fp c).connectList = w.connectList ∧
    (w.watchRead ns fp c).connMade = w.connMade := by
  cases ns <;> exact ⟨rfl, rfl, rfl, rfl, rfl⟩

/-- Not watching a socket any more only changes the registrations. -/
theorem unwatch_fields : (w.unwatch ns).store = w.store ∧ (w.unwatch ns).pool = w.pool ∧
    (w.unwatch ns).conn = w.conn ∧ (w.unwatch ns).connectList = w.connectList ∧
    (w.unwatch ns).connMade = w.connMade := by
  cases ns <;> exact ⟨rfl, rfl, rfl, rfl, rfl⟩

end Fields

/-- What closing the client's socket of a connection does. -/
structure ClientClosed (w after : Worker) (c : ConnId) : Prop where
  owned : Owned after
  used : AllUsedLive w → AllUsedLive after
  list : after.connectList = w.connectList
  client : (after.conn c).sock.curclins = none
  backend : ∀ slot, (after.conn c).sock.backend slot = (w.conn c).sock.backend slot
  protocolBase : (after.conn c).protocolBase = (w.conn c).protocolBase

/-- Closing the client's socket leaves the backends. -/
theorem Owned.closeClient {w : Worker} (owned : Owned w) {c : ConnId} (member : c ∈ w.connectList) :
    ClientClosed w (w.closeClient c) c := by
  -- Without a client socket there is nothing to close; with one, the slot is emptied.
  cases held : (w.conn c).sock.curclins with
  | none =>
    have same : w.closeClient c = w := by rw [Worker.closeClient, held]
    rw [same]
    exact ⟨owned, id, rfl, held, fun _ => rfl, rfl⟩
  | some cns =>
    have same : w.closeClient c =
        (w.closeFds cns).updateConn c (·.updateSock ({ · with curclins := none })) := by
      rw [Worker.closeClient, held]
    have here : (w.closeClient c).conn c = (w.conn c).updateSock ({ · with curclins := none }) := by
      rw [same]
      exact Function.update_self _ _ _
    have holds : w.Holds c .client cns := ⟨member, held⟩
    have drop : Dropped w (w.closeClient c) cns := by
      rw [same]
      refine owned.dropped (f := ({ · with curclins := none })) holds rfl rfl rfl rfl ?_
      intro other differs
      cases other with
      | client => exact absurd rfl differs
      | backend slot => cases slot <;> rfl
    obtain ⟨ownedAfter, used⟩ := owned.close holds drop (by rw [same]; rfl) (by rw [same]; rfl)
    refine ⟨ownedAfter, fun live => used live (.inl rfl), drop.list, ?_, fun slot => ?_, ?_⟩
    · rw [here]
      rfl
    · rw [here]
      cases slot <;> rfl
    · rw [here]
      rfl

/-- The release at the end of a connection, also of one that has no protocol. -/
theorem Owned.releaseBackends {w : Worker} (owned : Owned w) {c : ConnId}
    (member : c ∈ w.connectList)
    (type : ConnFinishType) : Released w (w.releaseBackends c type) c := by
  unfold Worker.releaseBackends
  split
  · exact owned.protocolReleaseBackendConnect member type
  · next without =>
    -- A connection without protocol has no backends.
    have vacant : ∀ slot, (w.conn c).sock.backend slot = none := by
      intro slot
      cases held : (w.conn c).sock.backend slot with
      | none => rfl
      | some s => exact absurd (owned.attached c slot s ⟨member, held⟩) without
    refine ⟨owned, id, rfl, vacant, rfl, fun slot s held => ?_⟩
    rw [vacant slot] at held
    cases held

/-- Taking back an allocation changes databases only. -/
theorem decAlloc_fields {store after : Store} {group : Option DataBaseGroup}
    {db : Option DataBaseId} {useConnectNum : DataBaseGroup → Bool}
    (done : decAlloc store group db useConnectNum = some after) :
    after.object = store.object ∧ after.made = store.made ∧ after.freed = store.freed := by
  unfold decAlloc at done
  split at done
  · cases done
    exact ⟨rfl, rfl, rfl⟩
  · obtain ⟨g, -, same⟩ := Option.map_eq_some_iff.mp done
    split at same
    · cases same
      exact ⟨rfl, rfl, rfl⟩
    · cases same
      exact ⟨rfl, rfl, rfl⟩

/-- A connection that holds nothing may be deleted. -/
theorem Owned.deleteConnection {w after : Worker} (owned : Owned w) {c : ConnId}
    (nothing : ∀ slot s, ¬ w.Holds c slot s) (done : w.deleteConnection c = some after) :
    Owned after ∧ (AllUsedLive w → AllUsedLive after) ∧
      after.connectList = w.connectList.filter (· ≠ c) ∧ after.store.freed = w.store.freed ∧
      after.pool = w.pool := by
  simp only [Worker.deleteConnection, Option.bind_eq_bind, Option.bind_eq_some_iff] at done
  obtain ⟨store₁, first, store₂, second, same⟩ := done
  cases same
  obtain ⟨object₁, made₁, freed₁⟩ := decAlloc_fields first
  obtain ⟨object₂, made₂, freed₂⟩ := decAlloc_fields second
  have object : store₂.object = w.store.object := object₂.trans object₁
  have made : store₂.made = w.store.made := made₂.trans made₁
  have freed : store₂.freed = w.store.freed := freed₂.trans freed₁
  have live : ∀ s, store₂.Live s ↔ w.store.Live s := fun s => by
    rw [Store.Live, Store.Live, made, freed]
  have fd : ∀ s, store₂.fd s = w.store.fd s := fun s => by rw [Store.fd, Store.fd, object]
  have sound : store₂.Sound := by
    refine ⟨fun gone member => ?_, fun a b aLive bLive => ?_⟩
    · rw [made]
      exact owned.sound.freedMade gone (freed ▸ member)
    · rw [fd, fd]
      exact owned.sound.fdsDistinct a b ((live a).mp aLive) ((live b).mp bLive)
  -- First the databases are told, then the connection leaves the list.
  obtain ⟨told, used⟩ := owned.transport { w with store := store₂ } rfl sound
    (Nat.le_of_eq made.symm) (fun s _ => live s) (fun s _ => fd s) rfl (Nat.le_refl _)
    (fun _ _ _ => rfl) (fun _ _ _ _ => rfl) owned.attached
  have sub : ∀ c' slot s,
      Holds { w with store := store₂, connectList := w.connectList.filter (· ≠ c) } c' slot s →
        Holds { w with store := store₂ } c' slot s :=
    fun c' slot s held => ⟨(List.mem_filter.mp held.1).1, held.2⟩
  refine ⟨⟨told.sound, told.core, told.idleFree, told.usedMade, ?_, ?_, ?_, ?_, ?_, ?_, ?_, ?_⟩,
    used,
    rfl, freed, rfl⟩
  · exact fun c' member => told.listed c' (List.mem_filter.mp member).1
  · exact fun c' slot s held => told.heldLive c' slot s (sub c' slot s held)
  · exact fun c' slot s held => told.heldOpen c' slot s (sub c' slot s held)
  · exact fun c₁ slot₁ c₂ slot₂ s held₁ held₂ =>
      told.heldApart c₁ slot₁ c₂ slot₂ s (sub _ _ _ held₁) (sub _ _ _ held₂)
  · exact fun c' slot s held => told.heldBusy c' slot s (sub c' slot s held)
  · exact fun c' slot s held => told.heldUsed c' slot s (sub c' _ s held)
  · intro at_ si found alive
    obtain ⟨c', slot, held, pooled⟩ := told.usedHeld at_ si found alive
    refine ⟨c', slot, ⟨List.mem_filter.mpr ⟨held.1, ?_⟩, held.2⟩, pooled⟩
    have differs : c' ≠ c := by
      rintro rfl
      exact nothing _ _ held
    simpa using differs
  · exact fun c' slot s held => told.attached c' slot s (sub c' _ s held)

/-- What `finished_connection` has done when it is over. -/
structure Finished (w after : Worker) (c : ConnId) : Prop where
  owned : Owned after
  used : AllUsedLive w → AllUsedLive after
  list : after.connectList =
    if w.servIsInEvent c then w.connectList else w.connectList.filter (· ≠ c)
  placed : w.servIsInEvent c = false → ∀ slot s, (w.conn c).sock.backend slot = some s →
    after.Placed s

/-- `finished_connection` leaves nothing behind of a connection that it deletes. -/
theorem Owned.finishedConnection {w after : Worker} (owned : Owned w) {c : ConnId}
    (member : c ∈ w.connectList) {type : ConnFinishType}
    (done : w.finishedConnection c type = some after) : Finished w after c := by
  have closed := owned.closeClient member
  let w₂ := ((w.closeClient c).leaveEvent (w.conn c).sock.masters).leaveEvent
    (w.conn c).sock.slavers
  obtain ⟨store₁, pool₁, conn₁, list₁, made₁⟩ :=
    leaveEvent_fields (w.closeClient c) (w.conn c).sock.masters
  obtain ⟨store₂, pool₂, conn₂, list₂, made₂⟩ := leaveEvent_fields
    ((w.closeClient c).leaveEvent (w.conn c).sock.masters) (w.conn c).sock.slavers
  have conn : w₂.conn = (w.closeClient c).conn := conn₂.trans conn₁
  have list : w₂.connectList = w.connectList := (list₂.trans list₁).trans closed.list
  obtain ⟨ownedLeft, usedLeft⟩ := closed.owned.of_eq w₂ (store₂.trans store₁)
    (pool₂.trans pool₁) conn (list₂.trans list₁) (made₂.trans made₁)
  unfold Worker.finishedConnection at done
  dsimp only at done
  -- A connection whose backend is in an event stays in the list; any other is deleted.
  split at done
  · next busy =>
    cases done
    refine ⟨ownedLeft, fun live => usedLeft (closed.used live), ?_, fun notBusy => ?_⟩
    · rw [if_pos busy]
      exact list
    · rw [busy] at notBusy
      cases notBusy
  · next notBusy =>
    have released := ownedLeft.releaseBackends (c := c) (list ▸ member) type
    -- Both the client's slot and the backends' are empty by then, so that no holder is deleted.
    have nothing : ∀ slot s, ¬ (w₂.releaseBackends c type).Holds c slot s := by
      rintro (_ | slot) s ⟨-, held⟩
      · have gone : ((w₂.releaseBackends c type).conn c).sock.curclins = none := by
          rw [released.client, conn, closed.client]
        cases gone.symm.trans held
      · cases (released.vacant slot).symm.trans held
    obtain ⟨ownedAfter, usedAfter, listAfter, freed, pool⟩ :=
      released.owned.deleteConnection nothing done
    refine ⟨ownedAfter, fun live => usedAfter (released.used (usedLeft (closed.used live))), ?_, ?_⟩
    · rw [if_neg notBusy, listAfter, released.list, list]
    · intro _ slot s held
      have here : (w₂.conn c).sock.backend slot = some s := by
        rw [conn, closed.backend]
        exact held
      rcases released.placed slot s here with ⟨hash, idle⟩ | once
      · exact .inl ⟨hash, by rw [pool]; exact idle⟩
      · exact .inr (by rw [freed]; exact once)

/-- What closing one backend of a connection does. -/
structure BackendClosed (w after : Worker) (c : ConnId) (slot : BackendSlot) : Prop where
  owned : Owned after
  used : AllUsedLive w → ((w.conn c).usesPool = true → (w.conn c).sock.backend slot = none) →
    AllUsedLive after
  list : after.connectList = w.connectList
  vacant : (after.conn c).sock.backend slot = none
  others : ∀ other, other ≠ .backend slot → (after.conn c).sock.at other = (w.conn c).sock.at other
  usesPool : (after.conn c).usesPool = (w.conn c).usesPool

/-- Closing a backend destroys it; where the pool knew it, the pool is not told. -/
theorem Owned.closeBackend {w : Worker} (owned : Owned w) {c : ConnId} (member : c ∈ w.connectList)
    (slot : BackendSlot) : BackendClosed w (w.closeBackend c slot) c slot := by
  cases held : (w.conn c).sock.backend slot with
  | none =>
    have same : w.closeBackend c slot = w := by rw [Worker.closeBackend, held]
    rw [same]
    exact ⟨owned, fun live _ => live, rfl, held, fun _ _ => rfl, rfl⟩
  | some s =>
    have same : w.closeBackend c slot =
        (w.closeFds s).updateConn c (·.updateSock (·.setBackend slot none)) := by
      rw [Worker.closeBackend, held]
    have here : (w.closeBackend c slot).conn c = (w.conn c).updateSock
        (·.setBackend slot none) := by
      rw [same]
      exact Function.update_self _ _ _
    have holds : w.Holds c (.backend slot) s := ⟨member, held⟩
    have drop : Dropped w (w.closeBackend c slot) s := by
      rw [same]
      exact owned.dropped (f := (·.setBackend slot none)) holds rfl rfl rfl
        (SocketSet.backend_setBackend _ _ _) (fun other => SocketSet.at_setBackend _ _ _)
    obtain ⟨ownedAfter, used⟩ := owned.close holds drop (by rw [same]; rfl) (by rw [same]; rfl)
    refine ⟨ownedAfter, fun live unpooled => used live (.inr ?_), drop.list, ?_, ?_,
      drop.usesPool c⟩
    · cases pooled : (w.conn c).usesPool with
      | false => rfl
      | true =>
        rw [unpooled pooled] at held
        cases held
    · rw [here]
      exact SocketSet.backend_setBackend _ _ _
    · intro other differs
      rw [here]
      exact SocketSet.at_setBackend _ _ _ differs

/--
The retry branch keeps everything in place, and the used sockets where it destroys none of them.
-/
theorem Owned.retryLater {w : Worker} (owned : Owned w) {c : ConnId} (member : c ∈ w.connectList) :
    Owned (w.retryLater c) ∧ (w.retryLater c).connectList = w.connectList ∧
      (AllUsedLive w →
        ((w.conn c).usesPool = true → ∀ slot, (w.conn c).sock.backend slot = none) →
        AllUsedLive (w.retryLater c)) := by
  have first := owned.closeBackend member .masters
  have second := first.owned.closeBackend (first.list ▸ member) .slavers
  let w₂ := (w.closeBackend c .masters).closeBackend c .slavers
  have vacant : ∀ slot, (w₂.conn c).sock.backend slot = none := by
    rintro (_ | _)
    · exact (second.others (.backend .masters) (by decide)).trans first.vacant
    · exact second.vacant
  have list : w₂.connectList = w.connectList := second.list.trans first.list
  -- Without backends the connection needs no protocol.
  obtain ⟨detached, live⟩ :=
    second.owned.updateConn (c := c) (f := ({ · with protocolBase := false }))
    (fun _ => rfl) (fun _ _ _ => rfl) (fun slot s held => by cases (vacant slot).symm.trans held.2)
  obtain ⟨ownedAfter, used⟩ := detached.of_eq (w.retryLater c) rfl rfl rfl rfl rfl
  refine ⟨ownedAfter, list, fun allLive unheld => used
    (live (second.used (first.used allLive ?_) ?_))⟩
  · exact fun pooled => unheld pooled .masters
  · intro pooled
    rw [first.usesPool] at pooled
    exact (first.others (.backend .slavers) (by decide)).trans (unheld pooled .slavers)

/-- Changes of everything but sockets, pool and connections add nothing to what a step has done. -/
theorem Owned.and_eq {P : Prop} {w after : Worker} (before : Owned w ∧ (P → AllUsedLive w))
    (store : after.store = w.store) (pool : after.pool = w.pool) (conn : after.conn = w.conn)
    (list : after.connectList = w.connectList) (made : after.connMade = w.connMade) :
    Owned after ∧ (P → AllUsedLive after) := by
  obtain ⟨owned, used⟩ := before.1.of_eq after store pool conn list made
  exact ⟨owned, fun given => used (before.2 given)⟩

/-- The client of a connection has not failed often enough to be given up. -/
def retries (times : Nat) (w : Worker) (c : ConnId) : Bool :=
  match (w.conn c).sock.curclins with
  | some cns => decide ((w.store.object cns).connServerFailed + 1 < times)
  | none => false

/-- `get_serverFailed` counts the failure, and then ends the connection or will try again. -/
theorem Owned.getServerFailed {w after : Worker} (owned : Owned w) {times : Nat} {c : ConnId}
    (member : c ∈ w.connectList) {rest : List Frame}
    (done : w.getServerFailed times c rest = some after) :
    Owned after ∧ (AllUsedLive w ∧ (w.retries times c = true → (w.conn c).usesPool = true →
      ∀ slot, (w.conn c).sock.backend slot = none) → AllUsedLive after) := by
  simp only [Worker.getServerFailed, Option.bind_eq_bind, Option.bind_eq_some_iff] at done
  obtain ⟨cns, client, done⟩ := done
  have counted := owned.updateStore cns (f := ({ · with
    connServerFailed := (w.store.object cns).connServerFailed + 1 })) (fun _ => rfl)
  split at done
  · cases done
    exact Owned.and_eq ⟨counted.1, fun both => counted.2 both.1⟩ rfl rfl rfl rfl rfl
  · next below =>
    cases done
    obtain ⟨later, -, usedLater⟩ := counted.1.retryLater member
    refine Owned.and_eq ⟨later, fun both => usedLater (counted.2 both.1) (both.2 ?_)⟩
      rfl rfl rfl rfl rfl
    rw [Worker.retries, client]
    exact decide_eq_true (Nat.lt_of_not_le below)

/-- Getting a backend for a connection leaves each socket with one owner. -/
theorem Owned.getBackend {w : Worker} (owned : Owned w) {c : ConnId} (member : c ∈ w.connectList)
    (protocol : (w.conn c).protocolBase = true) {result : ConnectResult} {ret : Int} {sk : Sockets}
    {conn : Connection} (got : GetBackend ⟨w.store, w.pool⟩ (w.conn c) result ret sk conn) :
    Owned ((w.withSockets sk).updateConn c fun _ => conn) ∧
      (AllUsedLive w → AllUsedLive ((w.withSockets sk).updateConn c fun _ => conn)) := by
  have here : ∀ conn, ((w.withSockets sk).updateConn c fun _ => conn).conn c = conn :=
    fun conn => Function.update_self _ _ _
  -- Becoming the current backend changes no slot, being recorded changes one.
  have current : ∀ ns slot, (withCurrent (protocolChooseDatabase (w.conn c)) ns).sock.at slot =
      (w.conn c).sock.at slot := by
    intro ns slot
    exact (show _ = (protocolChooseDatabase (w.conn c)).sock.at slot by
      cases slot with
      | client => rfl
      | backend slot => cases slot <;> rfl).trans (chosen_at _ slot)
  have gains : ∀ sk ns, (w.conn c).sock.backend (chosenSlot (w.conn c)) = none →
      Gained w ((w.withSockets sk).updateConn c fun _ =>
        (withCurrent (protocolChooseDatabase (w.conn c)) ns).updateSock
          (·.setBackend (chosenSlot (w.conn c)) (some ns))) c
              (.backend (chosenSlot (w.conn c))) ns := by
    intro sk ns vacant
    refine owned.gained member rfl rfl rfl vacant (SocketSet.backend_setBackend _ _ _) ?_ rfl rfl
    exact fun other differs => (SocketSet.at_setBackend _ _ _ differs).trans (current ns other)
  cases got with
  | current has =>
    exact owned.updateConn (f := fun _ => protocolChooseDatabase (w.conn c)) (chosen_at _)
      (fun _ _ _ => rfl) (fun slot s held => owned.attached c slot s held)
  | pooled vacant uses got =>
    exact owned.take (gains _ _ vacant) (by rw [here]; exact uses)
      (by rw [here]; exact protocol) rfl got
  | failed vacant more pool =>
    refine owned.transport _ pool more.sound (more.made ▸ Nat.le_succ _) ?_ more.fd rfl
      (Nat.le_refl _)
      ?_ ?_ ?_
    · intro s old
      rw [show ((w.withSockets sk).updateConn c _).store = sk.store from rfl, more.live]
      exact ⟨fun either => either.resolve_right (Nat.ne_of_lt old), .inl⟩
    · intro other _ slot
      by_cases same : other = c
      · rw [same, here]
        exact current _ slot
      · rw [updateConn_of_ne _ _ same]
        rfl
    · intro other slot s _
      by_cases same : other = c
      · rw [same, here]
        rfl
      · rw [updateConn_of_ne _ _ same]
        rfl
    · intro other slot s held
      by_cases same : other = c
      · rw [same, here]
        exact protocol
      · rw [updateConn_of_ne _ _ same]
        exact owned.attached other slot s held
  | created vacant more opened pool =>
    refine owned.create (gains _ _ vacant) (fun _ => by rw [here]; exact protocol) more.sound
      more.made more.live
      more.fd opened ?_
    rw [here]
    exact pool.trans (if_congr (by simp; rfl) rfl rfl)

/-- `alloc_server` leaves each socket with one owner, whether it succeeds or not. -/
theorem Owned.allocServer {w after : Worker} (owned : Owned w) {c : ConnId}
    (member : c ∈ w.connectList) {result : ConnectResult} {rest : List Frame}
    (done : w.allocServer c result rest = some after) :
    Owned after ∧ (AllUsedLive w → AllUsedLive after) := by
  -- The store and the pool are those of the backend that was got, whatever follows.
  unfold Worker.allocServer at done
  split at done
  · cases done
    exact owned.of_eq _ rfl rfl rfl rfl rfl
  · split at done
    · cases done
    · next attached =>
      simp only [Option.bind_eq_bind, Option.bind_eq_some_iff, Prod.exists] at done
      obtain ⟨ret, sk, conn, got, ns, -, done⟩ := done
      have protocol : (w.conn c).protocolBase = true := by simpa using attached
      obtain ⟨ownedGot, usedGot⟩ := owned.getBackend member protocol
        (getBackendConnect_cases owned.sound got)
      split at done <;> split at done <;> cases done
      all_goals
        exact Owned.and_eq ⟨ownedGot, usedGot⟩ rfl rfl rfl rfl rfl

/-- A connection without protocol has no backends that a group could be about. -/
theorem Owned.attach {w : Worker} (owned : Owned w) {c : ConnId}
    (detached : ¬ (w.conn c).protocolBase = true) (group : Option (DataBaseGroup × Bool))
    (rest : List Frame) :
    Owned (w.attach c group rest) ∧ (AllUsedLive w → AllUsedLive (w.attach c group rest)) := by
  -- The database changes which slots a connection has, but before the protocol they are all empty.
  have nothing : ∀ slot s, ¬ w.Holds c (.backend slot) s :=
    fun slot s held => detached (owned.attached c slot s held)
  have same := owned.of_eq w rfl rfl rfl rfl rfl
  unfold Worker.attach
  split
  · exact Owned.and_eq same rfl rfl rfl rfl rfl
  · have changed := owned.updateConn (c := c)
      (f := fun conn => { conn with database := { conn.database with dataBaseGroup := none } })
      (fun _ => rfl) (fun slot s held => absurd held (nothing slot s))
      (fun slot s held => absurd held (nothing slot s))
    exact Owned.and_eq changed rfl rfl rfl rfl rfl
  · next chosen =>
    have changed := owned.updateConn (c := c)
      (f := fun conn => { conn with
        database := getDatabaseFromGroup w.store chosen
          { (w.conn c).database with dataBaseGroup := some chosen }
        protocolBase := true })
      (fun _ => rfl) (fun slot s held => absurd held (nothing slot s)) (fun _ _ _ => rfl)
    dsimp only
    split
    · exact Owned.and_eq changed rfl rfl rfl rfl rfl
    · exact Owned.and_eq changed rfl rfl rfl rfl rfl

/-- What protocols do themselves moves no socket. -/
theorem Owned.act {w after : Worker} (owned : Owned w) {c : ConnId} {act : ProtocolAct}
    (done : w.act c act = some after) : Owned after ∧ (AllUsedLive w → AllUsedLive after) := by
  have keep : ∀ f : Connection →
    Connection, (∀ conn slot, (f conn).sock.at slot = conn.sock.at slot) →
      (∀ conn, (f conn).usesPool = conn.usesPool) →
        (∀ conn, (f conn).protocolBase = conn.protocolBase) →
      Owned (w.updateConn c f) ∧ (AllUsedLive w → AllUsedLive (w.updateConn c f)) := by
    intro f sock usesPool protocolBase
    refine owned.updateConn (sock _) (fun _ _ _ => usesPool _) fun slot s held => ?_
    rw [protocolBase]
    exact owned.attached c slot s held
  -- Each act changes the connection aside from its sockets, or a socket aside from its holder.
  cases act with
  | chooseDatabase =>
    cases done
    exact keep _ chosen_at (fun _ => rfl) (fun _ => rfl)
  | useMasterServer | useSlaverServer =>
    cases done
    refine keep _ (fun conn slot => ?_) (fun _ => rfl) (fun _ => rfl)
    cases slot with
    | client => rfl
    | backend slot => cases slot <;> rfl
  | setStatus slot status =>
    simp only [Worker.act, Option.bind_eq_bind, Option.bind_eq_some_iff] at done
    obtain ⟨ns, -, same⟩ := done
    cases same
    exact owned.updateStore ns (fun _ => rfl)
  | addConnArgs slot key value =>
    simp only [Worker.act, Option.bind_eq_bind, Option.bind_eq_some_iff] at done
    obtain ⟨ns, -, same⟩ := done
    cases same
    exact owned.updateStore ns (fun _ => rfl)
  | setConnStatus status =>
    cases done
    exact keep ({ · with status := status }) (fun _ _ => rfl) (fun _ => rfl) (fun _ => rfl)
  | setType type =>
    cases done
    exact keep (fun conn => { conn with record := { conn.record with type := type } })
      (fun _ _ => rfl)
      (fun _ => rfl) (fun _ => rfl)

/-- Writing moves no socket. -/
theorem Owned.writeData {w after : Worker} (owned : Owned w) {c : ConnId} {isFront flushed : Bool}
    {outcome : WriteOutcome} {checks : List SendCheck} {rest : List Frame}
    (done : w.writeData c isFront flushed outcome checks rest = some after) :
    Owned after ∧ (AllUsedLive w → AllUsedLive after) := by
  -- Afterwards a socket may be watched for other events, which concerns no owner.
  have watched : ∀ ns fp, Owned (if flushed then w.watchRead ns fp c else w) ∧
      (AllUsedLive w → AllUsedLive (if flushed then w.watchRead ns fp c else w)) := by
    intro ns fp
    split
    · obtain ⟨store, pool, conn, list, made⟩ := watchRead_fields w ns fp c
      exact owned.of_eq _ store pool conn list made
    · exact ⟨owned, id⟩
  simp only [Worker.writeData, Option.bind_eq_bind, Option.bind_eq_some_iff] at done
  obtain ⟨desSocket, -, done⟩ := done
  cases outcome with
  | nothing =>
    cases done
    exact owned.of_eq _ rfl rfl rfl rfl rfl
  | again =>
    cases done
    obtain ⟨store, pool, conn, list, made⟩ := unwatch_fields _ _
    exact Owned.and_eq (watched _ _) store pool conn list made
  | error =>
    cases done
    exact Owned.and_eq (watched _ _) rfl rfl rfl rfl rfl
  | finished =>
    cases done
    exact Owned.and_eq (watched _ _) rfl rfl rfl rfl rfl

/-- A new client is held by its connection. -/
theorem Owned.addTask {w after : Worker} (owned : Owned w) {address : Bytes} {port fd : UInt32}
    (done : w.addTask address port fd = some after) :
    Owned after ∧ (AllUsedLive w → AllUsedLive after) := by
  unfold Worker.addTask at done
  dsimp only at done
  split at done
  · next fresh =>
    cases done
    have alloc : Store.OneMore w.store (w.store.alloc (.new address port)) :=
      Store.oneMore_alloc owned.sound rfl
    have more := alloc.open fresh
    -- The number of the new connection has been given to none before.
    have absent : w.connMade ∉ w.connectList := fun member =>
      Nat.lt_irrefl _ (owned.listed _ member)
    refine owned.create (show Gained w _ w.connMade .client w.store.made from ⟨?_, ?_, ?_, ?_⟩)
      (fun differs => absurd rfl differs) more.sound more.made more.live more.fd ?_ ?_
    · intro c member
      rcases List.mem_append.mp member with old | new
      · exact Nat.lt_succ_of_lt (owned.listed c old)
      · exact List.mem_singleton.mp new ▸ Nat.lt_succ_self _
    · intro c slot s
      constructor
      · rintro ⟨member, held⟩
        dsimp only at held
        rcases List.mem_append.mp member with old | new
        · have differs : c ≠ w.connMade := fun same => absent (same ▸ old)
          rw [Function.update_of_ne differs] at held
          exact .inl ⟨old, held⟩
        · rw [List.mem_singleton] at new
          subst new
          rw [Function.update_self] at held
          cases slot with
          | client => exact .inr ⟨rfl, rfl, (Option.some.inj held).symm⟩
          | backend slot => cases slot <;> cases held
      · rintro (⟨member, held⟩ | ⟨rfl, rfl, rfl⟩)
        · have differs : c ≠ w.connMade := fun same => absent (same ▸ member)
          refine ⟨List.mem_append_left _ member, ?_⟩
          dsimp only
          rw [Function.update_of_ne differs]
          exact held
        · refine ⟨List.mem_append_right _ (List.mem_singleton_self _), ?_⟩
          dsimp only
          rw [Function.update_self]
          rfl
    · intro c slot s held
      have differs : c ≠ w.connMade := fun same => absent (same ▸ held.1)
      dsimp only
      rw [Function.update_of_ne differs]
    · intro c slot s held
      have differs : c ≠ w.connMade := fun same => absent (same ▸ held.1)
      dsimp only
      rw [Function.update_of_ne differs]
    · rw [Store.fd, Store.update_object_self]
      exact fresh.1
    · simp
  · cases done

/-- A check of the pool destroys no socket that a connection holds. -/
theorem Owned.check {w : Worker} (owned : Owned w) {before after : UInt64}
    {active : SocketId → Bool}
    {store : Store} {pool : ConnectionPool}
    (done : w.pool.checkConnectActive w.store before after active = (store, pool)) :
    Owned { w with store := store, pool := pool } ∧
      (AllUsedLive w → AllUsedLive { w with store := store, pool := pool }) := by
  obtain ⟨sound, core, used, object, made, freed, count, kept, entries⟩ :=
    check_spec owned.sound owned.core done
  have fd : ∀ s, store.fd s = w.store.fd s := fun s => by rw [Store.fd, Store.fd, object]
  have subIds : ∀ hash s, s ∈ pool.idleIds hash → s ∈ w.pool.idleIds hash :=
    fun hash s inside => ((kept hash).map SockInfo.socket).subset inside
  -- The check frees idle sockets only, and a socket that is held is not idle.
  have stays : ∀ s, w.store.Live s → (∀ hash, s ∉ w.pool.idleIds hash) → store.Live s := by
    rintro s ⟨below, present⟩ notIdle
    refine ⟨made ▸ below, fun gone => ?_⟩
    rcases freed s gone with old | ⟨hash, idle⟩
    · exact present old
    · exact notIdle hash idle
  have was : ∀ s, store.Live s → w.store.Live s := by
    rintro s ⟨below, present⟩
    refine ⟨made ▸ below, fun gone => present ?_⟩
    rcases count s with same | ⟨hash, idle⟩
    · exact List.count_pos_iff.mp (same ▸ List.count_pos_iff.mpr gone)
    · exact absurd gone (owned.core.idleLive hash s idle).2
  refine ⟨⟨sound, core, ?_, ?_, owned.listed, ?_, ?_, owned.heldApart, ?_, ?_, ?_, owned.attached⟩,
    used⟩
  · exact fun hash si member => owned.idleFree hash si ((kept hash).subset member)
  · intro at_ si found
    rw [entries] at found
    exact made ▸ owned.usedMade at_ si found
  · exact fun c slot s held => stays s (owned.heldLive c slot s held) (owned.heldBusy c slot s held)
  · intro c slot s held
    rw [fd]
    exact owned.heldOpen c slot s held
  · exact fun c slot s held hash inside => owned.heldBusy c slot s held hash (subIds hash s inside)
  · intro c slot s held pooled
    rw [entries, fd]
    exact owned.heldUsed c slot s held pooled
  · intro at_ si found alive
    rw [entries] at found
    exact owned.usedHeld at_ si found (was _ alive)

/-- The connection for which no backend could be had, before anything is done about it. -/
def failing (w : Worker) : Option ConnId :=
  match w.frames with
  | .getServerFailed c :: _ => some c
  | _ => none

/--
A retry is not about to destroy backends that the pool knows.

It destroys all backends of the connection, and the pool knows them if the connection uses it.
-/
def RetrySparesPool (times : Nat) (w : Worker) (_ : WorkerLabel) : Prop :=
  ∀ c ∈ w.failing, w.retries times c = true → (w.conn c).usesPool = true →
    (w.conn c).sock.masters = none ∧ (w.conn c).sock.slavers = none

instance (times : Nat) (w : Worker) (label : WorkerLabel) :
    Decidable (RetrySparesPool times w label) :=
  inferInstanceAs (Decidable (∀ c ∈ w.failing, w.retries times c = true →
    (w.conn c).usesPool = true → (w.conn c).sock.masters = none ∧ (w.conn c).sock.slavers = none))

/-- The next step of a handler leaves each socket with one owner. -/
theorem Owned.frameStep {times : Nat} {w after : Worker} (owned : Owned w) {frame : Frame}
    {rest : List Frame} {label : WorkerLabel} (frames : w.frames = frame :: rest)
    (member : frame.conn ∈ w.connectList) (done : w.frameStep times rest frame label = some after) :
    Owned after ∧ (AllUsedLive w ∧ RetrySparesPool times w label → AllUsedLive after) := by
  have same : Owned w ∧ (AllUsedLive w ∧ RetrySparesPool times w label → AllUsedLive w) :=
    ⟨owned, And.left⟩
  have plain : ∀ {next : Worker}, Owned next ∧ (AllUsedLive w → AllUsedLive next) →
      Owned next ∧ (AllUsedLive w ∧ RetrySparesPool times w label → AllUsedLive next) :=
    fun step => ⟨step.1, fun both => step.2 both.1⟩
  unfold Worker.frameStep at done
  split at done
  · -- Reading from the client: every way it ends only changes what is left to do.
    split at done
    · cases done
      exact Owned.and_eq same rfl rfl rfl rfl rfl
    · split at done <;> cases done <;> exact Owned.and_eq same rfl rfl rfl rfl rfl
  · split at done <;> cases done
    exact Owned.and_eq same rfl rfl rfl rfl rfl
  · split at done <;> cases done
    next detached => exact plain (owned.attach detached _ _)
  · exact plain (owned.act done)
  · split at done
    · cases done
      exact Owned.and_eq same rfl rfl rfl rfl rfl
    · cases done
      exact Owned.and_eq same rfl rfl rfl rfl rfl
    · split at done <;> cases done <;> exact Owned.and_eq same rfl rfl rfl rfl rfl
  · exact plain (owned.allocServer member done)
  · next c =>
    obtain ⟨ownedAfter, used⟩ := owned.getServerFailed member done
    refine ⟨ownedAfter, fun both => used ⟨both.1, fun retries pooled slot => ?_⟩⟩
    have spares := both.2 c (by rw [failing, frames]; rfl) retries pooled
    cases slot with
    | masters => exact spares.1
    | slavers => exact spares.2
  · simp only [Option.bind_eq_bind, Option.bind_eq_some_iff] at done
    obtain ⟨_, -, popped⟩ := done
    cases popped
    exact Owned.and_eq same rfl rfl rfl rfl rfl
  · cases done
    exact Owned.and_eq same rfl rfl rfl rfl rfl
  · split at done <;> cases done <;> exact Owned.and_eq same rfl rfl rfl rfl rfl
  · exact plain (owned.writeData done)
  · split at done
    · cases done
      exact Owned.and_eq same rfl rfl rfl rfl rfl
    · split at done
      · cases done
        exact Owned.and_eq same rfl rfl rfl rfl rfl
      · cases done
        exact Owned.and_eq same rfl rfl rfl rfl rfl
      · cases done
        exact Owned.and_eq same rfl rfl rfl rfl rfl
      · split at done <;> cases done
        exact Owned.and_eq same rfl rfl rfl rfl rfl
  · exact plain (owned.act done)
  · split at done <;> cases done <;> exact Owned.and_eq same rfl rfl rfl rfl rfl
  · next c type =>
    have popped := owned.of_eq { w with frames := rest } rfl rfl rfl rfl rfl
    have finished := popped.1.finishedConnection member done
    exact ⟨finished.owned, fun both => finished.used (popped.2 both.1)⟩
  · cases done

/--
One step leaves each socket with one owner, and the pool with live sockets where it spares them.
-/
theorem owned_step {times : Nat} {w after : Worker} {label : WorkerLabel} (owned : Owned w)
    (done : w.step times label = some after) :
    Owned after ∧ (AllUsedLive w ∧ RetrySparesPool times w label → AllUsedLive after) := by
  have plain : ∀ {next : Worker}, Owned next ∧ (AllUsedLive w → AllUsedLive next) →
      Owned next ∧ (AllUsedLive w ∧ RetrySparesPool times w label → AllUsedLive next) :=
    fun step => ⟨step.1, fun both => step.2 both.1⟩
  unfold Worker.step at done
  split at done
  · cases done
    exact plain (owned.check rfl)
  · split at done
    · next idle =>
      unfold Worker.eventStep at done
      split at done
      · exact plain (owned.addTask done)
      · simp only [Option.bind_eq_bind, Option.bind_eq_some_iff] at done
        obtain ⟨_, -, handled⟩ := done
        cases handled
        exact plain (owned.of_eq _ rfl rfl rfl rfl rfl)
      · split at done <;> cases done
        exact plain (owned.of_eq _ rfl rfl rfl rfl rfl)
      · split at done <;> cases done
        exact plain (owned.of_eq _ rfl rfl rfl rfl rfl)
      · cases done
    · next frame rest running =>
      split at done
      · next member => exact owned.frameStep running member done
      · cases done

/-- In every run of a thread each socket has one owner. -/
theorem owned_of_reachable {times : Nat} {w : Worker} (reached : Reachable (workerSystem times) w) :
    Owned w := by
  have start : ∀ u, (workerSystem times).init u → Owned u := by
    rintro u ⟨dataBase, now, rfl⟩
    exact owned_initial dataBase now
  refine reached.invariant start ?_
  intro u l v before last
  exact (owned_step before last).1

end Worker

end OneProxy
