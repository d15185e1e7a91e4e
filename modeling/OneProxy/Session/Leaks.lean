import OneProxy.Session.Retry
import OneProxy.Session.StepCases

/-! What becomes of the backends of a connection when it is deleted. -/

namespace OneProxy

open ConnectionPool Runs

/-- The attempt to connect came through, the login included. -/
def ConnectResult.isInitialized : ConnectResult → Bool
  | .refused => false
  | .connected _ initialized => initialized

namespace Worker

/-- The login arguments that a backend for a connection is asked for with. -/
def connArgs (w : Worker) (c : ConnId) : Bytes :=
  match (w.conn c).sock.curclins with
  | some cns => (w.store.object cns).connArgsMap2String
  | none => []

/-- The pool has an idle socket for a database and the login of a connection. -/
def HasIdle (w : Worker) (c : ConnId) (db : DataBase) : Prop :=
  (w.conn c).usesPool = true ∧
    w.pool.idleAt (ConnPoolKey.mk db.addr db.port (w.connArgs c)).keyHashCode ≠ []

instance (w : Worker) (c : ConnId) (db : DataBase) : Decidable (w.HasIdle c db) :=
  inferInstanceAs (Decidable ((w.conn c).usesPool = true ∧
    w.pool.idleAt (ConnPoolKey.mk db.addr db.port (w.connArgs c)).keyHashCode ≠ []))

/-- There is a backend for the chosen database, or an idle one, or one can be made. -/
def BackendReady (w : Worker) (c : ConnId) (result : ConnectResult) : Prop :=
  (protocolChooseDatabase (w.conn c)).sock.curservs ≠ none ∨
    ∀ db ∈ (protocolChooseDatabase (w.conn c)).database.currentDataBase,
      w.HasIdle c (w.store.dataBase db) ∨
        (w.store.dataBase db).connectNum < (w.store.dataBase db).connectNumLimit ∧
          result.isInitialized = true

instance (w : Worker) (c : ConnId) (result : ConnectResult) : Decidable (w.BackendReady c result) :=
  inferInstanceAs (Decidable ((protocolChooseDatabase (w.conn c)).sock.curservs ≠ none ∨
    ∀ db ∈ (protocolChooseDatabase (w.conn c)).database.currentDataBase,
      w.HasIdle c (w.store.dataBase db) ∨
        (w.store.dataBase db).connectNum < (w.store.dataBase db).connectNumLimit ∧
          result.isInitialized = true))

/-- The result that a step is told of an attempt to connect. -/
def connectResult : WorkerLabel → Option ConnectResult
  | .connect result => some result
  | _ => none

/-- Whenever a connection is about to ask for a backend, one can be had. -/
def CreationSucceeds (c : ConnId) (w : Worker) (label : WorkerLabel) : Prop :=
  ∀ result ∈ connectResult label, w.frames.head? = some (.allocServer c) →
    (w.conn c).sock.curservs = none → w.BackendReady c result

instance (c : ConnId) (w : Worker) (label : WorkerLabel) : Decidable (CreationSucceeds c w label) :=
  inferInstanceAs (Decidable (∀ result ∈ connectResult label,
    w.frames.head? = some (.allocServer c) → (w.conn c).sock.curservs = none →
      w.BackendReady c result))

end Worker

/-- A socket that connects below the limit of its database is made without failure. -/
theorem createSocket_ret {sk after : Sockets} {conn conn' : Connection} {curdb : DataBaseId}
    {result : ConnectResult} {ret : Int}
    (below : (sk.store.dataBase curdb).connectNum < (sk.store.dataBase curdb).connectNumLimit)
    (initialized : result.isInitialized = true)
    (done : createSocket sk conn curdb result = some (ret, after, conn')) : ret = 0 := by
  unfold createSocket at done
  dsimp only at done
  rw [if_neg (by simpa using below)] at done
  cases result with
  | refused => cases initialized
  | connected fd login =>
    cases initialized
    dsimp only at done
    split at done
    · cases done
    · cases done
      rfl

namespace Worker

/-- Where a backend can be had, `protocol_getBackendConnect` does not fail. -/
theorem getBackend_of_ready {w : Worker} {c : ConnId} {result : ConnectResult} {ret : Int}
    {sk : Sockets} {conn : Connection} (ready : w.BackendReady c result)
    (done : protocolGetBackendConnect ⟨w.store, w.pool⟩ (w.conn c) result = some (ret, sk, conn)) :
    ret = 0 := by
  simp only [protocolGetBackendConnect, protocolCreateBackendConnect, Option.bind_eq_bind,
    Option.bind_eq_some_iff] at done
  obtain ⟨curdb, current, done⟩ := done
  -- Either the connection has its backend, or the pool or a new socket serves it.
  rcases ready with has | ready
  · obtain ⟨ns, has⟩ := Option.ne_none_iff_exists'.mp has
    rw [has] at done
    cases done
    rfl
  · cases has : (protocolChooseDatabase (w.conn c)).sock.curservs with
    | some ns =>
      rw [has] at done
      cases done
      rfl
    | none =>
      rw [has] at done
      dsimp only at done
      have uses : (protocolChooseDatabase (w.conn c)).usesPool = (w.conn c).usesPool := rfl
      have client : (protocolChooseDatabase (w.conn c)).sock.curclins =
        (w.conn c).sock.curclins := rfl
      have idle := ready curdb current
      rw [HasIdle, connArgs] at idle
      rw [client, uses] at done
      split at done
      · next pooled =>
        generalize given : w.pool.getBackendConnect w.store _ _ _ = answer at done
        obtain ⟨ns, pool⟩ := answer
        cases ns with
        | some ns =>
          cases done
          rfl
        | none =>
          rcases idle with ⟨-, some_⟩ | ⟨below, initialized⟩
          · rcases ConnectionPool.getBackendConnect_cases w.pool w.store _ _ _ with ⟨-, empty⟩ |
              ⟨front, si, after, got, -⟩
            · exact absurd empty some_
            · cases (Prod.mk.inj (given.symm.trans got)).1
          · exact createSocket_ret below initialized done
      · next unpooled =>
        rcases idle with ⟨pooled, -⟩ | ⟨below, initialized⟩
        · exact absurd pooled unpooled
        · exact createSocket_ret below initialized done

/-- While a connection is there, each backend that it was given is in one of its slots. -/
structure KeepsBackends (c : ConnId) (w : Worker) : Prop where
  listed : ∀ c ∈ w.connectList, c < w.connMade
  given : ∀ s, (c, s) ∈ w.obtained → c < w.connMade
  kept : c ∈ w.connectList → ∀ s, (c, s) ∈ w.obtained →
    ∃ slot, (w.conn c).sock.backend slot = some s
  steady : ∀ frame ∈ w.frames, frame ≠ .getServerFailed c

/-- A plain step makes nobody fail. -/
theorem NextFrames.steady {frames after : List Frame} (next : NextFrames frames after) {c : ConnId}
    (steady : ∀ frame ∈ frames, frame ≠ .getServerFailed c) :
    ∀ frame ∈ after, frame ≠ .getServerFailed c := by
  cases next with
  | start starts =>
    intro frame member
    rw [List.mem_singleton.mp member]
    exact starts c
  | stay plain => exact steady
  | done plain => exact fun frame member => steady frame (List.mem_cons_of_mem _ member)
  | next plain conn follows =>
    intro frame member
    rcases List.mem_cons.mp member with rfl | later
    · exact follows c
    · exact steady frame (List.mem_cons_of_mem _ later)

/-- Where no backend fails to be had, a connection keeps all of its backends to its end. -/
theorem KeepsBackends.step {times : Nat} {c : ConnId} {w after : Worker} {label : WorkerLabel}
    (owned : Owned w) (keeps : KeepsBackends c w) (succeeds : CreationSucceeds c w label)
    (done : w.step times label = some after) : KeepsBackends c after := by
  have listed := (owned_step owned done).1.listed
  have unchanged : after.connectList = w.connectList → after.obtained = w.obtained →
      (∀ slot, (after.conn c).sock.backend slot = (w.conn c).sock.backend slot) →
      c ∈ after.connectList → ∀ s, (c, s) ∈ after.obtained →
        ∃ slot, (after.conn c).sock.backend slot = some s := by
    intro list obtained backend member s given
    obtain ⟨slot, held⟩ := keeps.kept (list ▸ member) s (obtained ▸ given)
    exact ⟨slot, (backend slot).trans held⟩
  have rest : ∀ {frame : Frame} {rest : List Frame}, w.frames = frame :: rest →
      ∀ frame ∈ rest, frame ≠ .getServerFailed c :=
    fun running frame member => keeps.steady frame (running ▸ List.mem_cons_of_mem _ member)
  have goesOn : ∀ {frame f : Frame} {rest : List Frame}, w.frames = frame :: rest →
      (∀ c, f ≠ .getServerFailed c) → ∀ frame ∈ f :: rest, frame ≠ .getServerFailed c := by
    intro frame f rest' running follows frame' member
    rcases List.mem_cons.mp member with rfl | later
    · exact follows c
    · exact rest running frame' later
  have fails : ∀ {other : ConnId} {rest : List Frame}, w.frames = .getServerFailed other :: rest →
      c ≠ other := by
    rintro other rest running rfl
    exact keeps.steady _ (running ▸ List.mem_cons_self) rfl
  cases step_cases owned done with
  | quiet frames timers list connMade obtained backend =>
    exact ⟨listed, connMade ▸ obtained ▸ keeps.given, unchanged list obtained (backend c),
      frames.steady keeps.steady⟩
  | checked list same events =>
    refine ⟨listed, (same c).connMade ▸ (same c).obtained ▸ keeps.given,
      unchanged list (same c).obtained fun slot => ?_, (same c).frames ▸ keeps.steady⟩
    rw [(same (c + 1)).elsewhere c (Nat.ne_of_lt (Nat.lt_succ_self c))]
  | added idle frames timers list connMade obtained elsewhere =>
    have before : ∀ s, (c, s) ∈ after.obtained → c < w.connMade := obtained ▸ keeps.given
    refine ⟨listed, fun s given => ?_, fun member s given => ?_, ?_⟩
    · rw [connMade]
      exact Nat.lt_succ_of_lt (before s given)
    · have differs : c ≠ w.connMade := Nat.ne_of_lt (before s given)
      rw [list] at member
      have old := (List.mem_append.mp member).resolve_right fun new =>
        differs (List.mem_singleton.mp new)
      rw [elsewhere c differs]
      exact keeps.kept old s (obtained ▸ given)
    · rw [frames]
      exact fun frame member => absurd member List.not_mem_nil
  | expired other pending idle same =>
    subst same
    refine ⟨listed, keeps.given, keeps.kept, fun frame member => ?_⟩
    rw [List.mem_singleton.mp member]
    exact Frame.noConfusion
  | allocated other slot ns running isListed frames timers list connMade obtained elsewhere vacant
      filled others =>
    refine ⟨listed, fun s given => ?_, fun member s given => ?_, ?_⟩
    · rw [connMade]
      rcases List.mem_append.mp (obtained ▸ given) with old | new
      · exact keeps.given s old
      · cases List.mem_singleton.mp new
        exact keeps.listed c isListed
    · rcases List.mem_append.mp (obtained ▸ given) with old | new
      · obtain ⟨there, held⟩ := keeps.kept (list ▸ member) s old
        by_cases same : c = other
        · subst same
          -- The slot that is filled was vacant, so what was held is in the other one.
          have differs : there ≠ slot := by
            rintro rfl
            cases vacant.symm.trans held
          exact ⟨there, (others there differs).trans held⟩
        · exact ⟨there, by rw [elsewhere c same]; exact held⟩
      · cases List.mem_singleton.mp new
        exact ⟨slot, filled⟩
    · rw [frames]
      exact goesOn running fun _ => Frame.noConfusion
  | refused other running member frames timers list connMade obtained elsewhere current failed =>
    have differs : c ≠ other := by
      rintro rfl
      obtain ⟨sk, conn, failed⟩ := failed
      have ready := succeeds _ rfl (by rw [running]; rfl) current
      exact absurd (getBackend_of_ready ready failed) (by decide)
    have before : ∀ s, (c, s) ∈ after.obtained → (c, s) ∈ w.obtained := by
      intro s given
      rcases List.mem_append.mp (obtained ▸ given) with old | new
      · exact old
      · exact absurd (Prod.mk.inj (List.mem_singleton.mp new)).1 differs
    refine ⟨listed, fun s given => connMade ▸ keeps.given s (before s given),
      fun member s given => ?_,
      fun frame member => ?_⟩
    · rw [elsewhere c differs]
      exact keeps.kept (list ▸ member) s (before s given)
    · rw [frames] at member
      rcases List.mem_cons.mp member with rfl | member
      · exact fun same => differs (Frame.getServerFailed.inj same).symm
      · exact goesOn running (fun _ => Frame.noConfusion) frame member
  | retried other running member again frames timers list connMade obtained elsewhere =>
    have differs := fails running
    refine ⟨listed, connMade ▸ obtained ▸ keeps.given,
      unchanged list obtained fun slot => by rw [elsewhere c differs], ?_⟩
    rw [frames]
    exact rest running
  | gaveUp other running member atEnd frames timers list connMade obtained conn events =>
    refine ⟨listed, connMade ▸ obtained ▸ keeps.given,
      unchanged list obtained fun slot => by rw [conn], ?_⟩
    rw [frames]
    exact goesOn running fun _ => Frame.noConfusion
  | finished other type running isListed done aside list kept placed =>
    refine ⟨listed, aside.connMade ▸ aside.obtained ▸ keeps.given, fun member s given => ?_,
      aside.frames ▸ rest running⟩
    have given : (c, s) ∈ w.obtained := aside.obtained ▸ given
    by_cases same : c = other
    · subst same
      cases busy : w.servIsInEvent c with
      | true =>
        obtain ⟨slot, held⟩ := keeps.kept isListed s given
        exact ⟨slot, (kept busy slot).trans held⟩
      | false =>
        rw [busy] at list
        rw [list] at member
        simp at member
    · have before : c ∈ w.connectList := by
        rw [list] at member
        split at member
        · exact member
        · exact (List.mem_filter.mp member).1
      rw [aside.elsewhere c same]
      exact keeps.kept before s given

/-- While nothing has been made, there is nothing to keep. -/
theorem keepsBackends_initial (c : ConnId) (dataBase : DataBaseId → DataBase) (now : UInt64) :
    KeepsBackends c (initial dataBase now) := by
  refine ⟨?_, ?_, ?_, ?_⟩
  · exact fun c member => absurd member List.not_mem_nil
  · exact fun s given => absurd given List.not_mem_nil
  · exact fun member => absurd member List.not_mem_nil
  · exact fun frame member => absurd member List.not_mem_nil

/--
Where a backend can be had whenever a connection asks for one, none of its backends is leaked.

When the connection is deleted, each socket that was made or taken from the pool for it is idle in
the pool once, or has been destroyed once, and not both.
-/
theorem settled_of_creationSucceeds {times : Nat} {c : ConnId} {w after : Worker}
    {label : WorkerLabel}
    (reached : Reachable ((workerSystem times).restrict (CreationSucceeds c)) w)
    (done : w.step times label = some after) (listed : c ∈ w.connectList)
    (deleted : c ∉ after.connectList) (s : SocketId) (given : (c, s) ∈ after.obtained) :
    after.pool.idleSockets.count s + after.store.freed.count s = 1 := by
  have start : ∀ u, (workerSystem times).init u → KeepsBackends c u := by
    rintro u ⟨dataBase, now, rfl⟩
    exact keepsBackends_initial c dataBase now
  have keeps : KeepsBackends c w := by
    refine reached.restrict_invariant (fun u => owned_of_reachable) start ?_
    intro u l v owned keeps succeeds last
    exact keeps.step owned succeeds last
  have owned := owned_of_reachable reached.of_restrict
  have settled := (owned_step owned done).1
  have stays : after.connectList ≠ w.connectList := fun list => deleted (list ▸ listed)
  cases step_cases owned done with
  | quiet frames timers list => exact absurd list stays
  | checked list => exact absurd list stays
  | added idle frames timers list =>
    rw [list] at deleted
    exact absurd (List.mem_append_left _ listed) deleted
  | expired other pending idle same =>
    subst same
    exact absurd listed deleted
  | allocated other slot ns running isListed frames timers list => exact absurd list stays
  | refused other running isListed frames timers list => exact absurd list stays
  | retried other running isListed again frames timers list => exact absurd list stays
  | gaveUp other running isListed atEnd frames timers list => exact absurd list stays
  | finished other type running isListed ended aside list kept placed =>
    -- Only the connection that ends is taken off the list, and not while it is in an event.
    have same : c = other := by
      by_contra differs
      rw [list] at deleted
      split at deleted
      · exact deleted listed
      · exact deleted (List.mem_filter.mpr ⟨listed, by simpa using differs⟩)
    subst same
    have notBusy : w.servIsInEvent c = false := by
      cases busy : w.servIsInEvent c with
      | true =>
        rw [busy] at list
        exact absurd list stays
      | false => rfl
    obtain ⟨slot, held⟩ := keeps.kept listed s (aside.obtained ▸ given)
    rcases placed notBusy slot s held with ⟨hash, idle⟩ | once
    · rw [settled.core.count_idleSockets idle,
        List.count_eq_zero_of_not_mem (settled.core.idleLive hash s idle).2]
    · have notIdle : s ∉ after.pool.idleSockets := by
        intro inside
        obtain ⟨hash, idle⟩ := mem_idleSockets.mp inside
        refine (settled.core.idleLive hash s idle).2 (List.count_pos_iff.mp ?_)
        rw [once]
        exact Nat.one_pos
      rw [List.count_eq_zero_of_not_mem notIdle, once]

/-- The backend of a client that leaves is settled when the connection is deleted. -/
theorem settled_of_creationSucceeds_returned : ∃ after : Worker, (0, 1) ∈ after.obtained ∧
    after.pool.idleSockets.count 1 + after.store.freed.count 1 = 1 := by
  have run : (exec (guarded (CreationSucceeds 0) (Worker.step 3)) (.initial masterAndSlave 0)
      (firstRequest splitGroup ++ clientLeaves.dropLast)).map (fun w => (w.connectList,
        (w.step 3 .go).map fun after => (after.connectList, after.obtained))) =
      some ([0], some ([], [(0, 1)])) := by
    decide +kernel
  obtain ⟨w, reached, seen⟩ :=
    exists_reachable_guarded (fun w => ∃ dataBase now, w = Worker.initial dataBase now)
      ⟨_, _, rfl⟩ run
  simp only [Prod.mk.injEq] at seen
  obtain ⟨after, done, seen'⟩ := Option.map_eq_some_iff.mp seen.2
  simp only [Prod.mk.injEq] at seen'
  obtain ⟨deleted, obtained⟩ := seen'
  have given : (0, 1) ∈ after.obtained := obtained ▸ List.mem_singleton_self _
  exact ⟨after, given, settled_of_creationSucceeds reached done (seen.1 ▸ List.mem_singleton_self 0)
    (deleted ▸ List.not_mem_nil) 1 given⟩

/-- The client leaves while its request is to be tried again. -/
def leavesBeforeRetry : List WorkerLabel :=
  firstRequestRefused ++ [.go, .go, .ready 5, .read .closed]

/-- The socket that could not be connected is in no slot, and nothing destroys it. -/
theorem refused_backend_leaked :
    ¬ ∀ w, Reachable (workerSystem 3) w → ∀ label after c s, w.step 3 label = some after →
      c ∈ w.connectList → c ∉ after.connectList → (c, s) ∈ after.obtained →
      after.pool.idleSockets.count s + after.store.freed.count s = 1 := by
  -- After the refused connect the socket is neither idle nor freed.
  intro always
  have run : (exec (Worker.step 3) (.initial masterAndSlave 0) leavesBeforeRetry).map
      (fun w => (w.connectList, (w.step 3 .go).map fun after => (after.connectList,
        decide ((0, 1) ∈ after.obtained),
        after.pool.idleSockets.count 1 + after.store.freed.count 1))) =
      some ([0], some ([], true, 0)) := by
    decide +kernel
  obtain ⟨w, reached, seen⟩ :=
    exists_reachable (fun w => ∃ dataBase now, w = Worker.initial dataBase now) ⟨_, _, rfl⟩ run
  simp only [Prod.mk.injEq] at seen
  obtain ⟨after, done, seen'⟩ := Option.map_eq_some_iff.mp seen.2
  simp only [Prod.mk.injEq, decide_eq_true_eq] at seen'
  obtain ⟨deleted, given, nowhere⟩ := seen'
  have once := always w reached .go after 0 1 done (seen.1 ▸ List.mem_singleton_self 0)
    (deleted ▸ List.not_mem_nil) given
  rw [nowhere] at once
  exact absurd once (by decide)

end Worker

end OneProxy
