import OneProxy.Session.OwnedSteps

/-! The pool's representation over whole runs of a thread, and the step that spoils it. -/

namespace OneProxy.Worker

open ConnectionPool Runs

/-- Where retries spare the pool's sockets, the pool's representation is in order in every run. -/
theorem poolOk_of_retrySparesPool {times : Nat} {w : Worker}
    (reached : Reachable ((workerSystem times).restrict (RetrySparesPool times)) w) :
    PoolOk w.store w.pool := by
  have live : AllUsedLive w := by
    have start : ∀ u, (workerSystem times).init u → AllUsedLive u := by
      rintro u ⟨dataBase, now, rfl⟩
      exact usedLive_new _ now
    refine reached.restrict_invariant (fun u => owned_of_reachable) start ?_
    intro u l v owned before spares last
    exact (owned_step owned last).2 ⟨before, spares⟩
  exact (owned_of_reachable reached.of_restrict).core.ok live

/-- A master on port 3306 and a slave on port 3307. -/
def masterAndSlave (db : DataBaseId) : DataBase :=
  ⟨[100, 98], if db = 0 then 3306 else 3307, 0, 1000, 0, true⟩

/-- A group that uses the pool, and reads from its slave. -/
def splitGroup : DataBaseGroup := ⟨true, true, [0], [1], false, false⟩

/-- A client connects, and its first request is sent to the new backend of its master. -/
def firstRequest (group : DataBaseGroup) : List WorkerLabel :=
  [.addTask [99] 5000 5, .ready 5, .read .data, .attach (some (group, true)), .parsed .ok true,
    .connect (.connected 6 true), .remain true, .write false .finished, .remain false,
      .remain false,
    .go]

/-- The client leaves, and its backend is returned to the pool. -/
def clientLeaves : List WorkerLabel :=
  [.ready 5, .read .data, .go, .parsed .normalClose false, .go]

/-- A connection that ends well leaves its backend in the pool, and the pool in order. -/
theorem poolOk_of_returned :
    ∃ w : Worker, w.pool.idleSockets = [1] ∧ PoolOk w.store w.pool := by
  have run : (exec (guarded (RetrySparesPool 3) (Worker.step 3)) (.initial masterAndSlave 0)
      (firstRequest splitGroup ++ clientLeaves)).map (fun w => w.pool.idleSockets) = some [1] := by
    decide +kernel
  obtain ⟨w, reached, seen⟩ :=
    exists_reachable_guarded (fun w => ∃ dataBase now, w = Worker.initial dataBase now)
      ⟨_, _, rfl⟩ run
  exact ⟨w, seen, poolOk_of_retrySparesPool reached⟩

/-- The client's next request only reads, so that it needs the slave, which cannot be reached. -/
def readWithoutSlave : List WorkerLabel :=
  [.ready 5, .read .data, .go, .act (.setType .simpleQuerySelect), .act .chooseDatabase,
    .parsed .ok true, .connect .refused, .go]

/-- The retry destroys the backend of the master, which the pool goes on to list as used. -/
theorem retried_backend_still_used :
    ¬ ∀ w, Reachable (workerSystem 3) w → PoolOk w.store w.pool := by
  intro always
  have run : (exec (Worker.step 3) (.initial masterAndSlave 0)
      (firstRequest splitGroup ++ readWithoutSlave)).map
        (fun w => (w.store.freed, (w.pool.usedAt 6).map SockInfo.socket)) = some ([1], some 1) := by
    decide +kernel
  obtain ⟨w, reached, seen⟩ :=
    exists_reachable (fun w => ∃ dataBase now, w = Worker.initial dataBase now) ⟨_, _, rfl⟩ run
  simp only [Prod.mk.injEq] at seen
  obtain ⟨si, found, socket⟩ := Option.map_eq_some_iff.mp seen.2
  -- The entry is about a socket that has been destroyed.
  have alive := (always w reached).usedLive 6 si found
  refine alive.2 ?_
  rw [socket, seen.1]
  exact List.mem_singleton_self 1

end OneProxy.Worker
