import OneProxy.Session.PoolIntegrity

/-! What a connection has left when it is to be tried again later. -/

namespace OneProxy.Worker

open Runs

/-- A connection has no backend of any kind. -/
def StartsClean (w : Worker) (c : ConnId) : Prop :=
  (w.conn c).sock.masters = none ∧ (w.conn c).sock.slavers = none ∧ (w.conn c).sock.curservs = none

/-- Closing a backend leaves the current one, and all connections their sockets otherwise. -/
theorem closeBackend_curservs (w : Worker) (c : ConnId) (slot : BackendSlot) :
    ((w.closeBackend c slot).conn c).sock.curservs = (w.conn c).sock.curservs := by
  unfold closeBackend
  split
  · rw [updateConn_self]
    cases slot <;> rfl
  · rfl

/-- A retry leaves the current backend. -/
theorem retryLater_curservs (w : Worker) (c : ConnId) :
    ((w.retryLater c).conn c).sock.curservs = (w.conn c).sock.curservs := by
  let closed := (w.closeBackend c .masters).closeBackend c .slavers
  have detached : (w.retryLater c).conn c = { closed.conn c with protocolBase := false } :=
    updateConn_self closed c fun conn => { conn with protocolBase := false }
  rw [detached]
  exact (closeBackend_curservs _ c .slavers).trans (closeBackend_curservs w c .masters)

/-- A connection that has a current backend is not given another. -/
theorem allocServer_of_curservs {w after : Worker} {c : ConnId} {ns : SocketId}
    (current : (w.conn c).sock.curservs = some ns) {result : ConnectResult} {rest : List Frame}
    (done : w.allocServer c result rest = some after) :
    after = { w with frames := .sendData c (sendChecks false) :: rest } := by
  rw [allocServer, current] at done
  exact (Option.some.inj done).symm

/-- When no backend can be had, the socket that failed is the current one. -/
theorem allocServer_failing {w failed : Worker} (owned : Owned w) {c : ConnId}
    {result : ConnectResult}
    {rest : List Frame} (done : w.allocServer c result rest = some failed)
    (fails : failed.failing = some c) :
    (failed.conn c).sock.curservs = some w.store.made := by
  unfold allocServer at done
  split at done
  · cases done
    cases fails
  · split at done
    · cases done
    · simp only [Option.bind_eq_bind, Option.bind_eq_some_iff, Prod.exists] at done
      obtain ⟨ret, sk, conn, got, ns, current, done⟩ := done
      have here : failed.conn c = conn := by
        split at done <;> split at done <;> cases done <;> exact Function.update_self _ _ _
      rw [here]
      cases getBackendConnect_cases owned.sound got with
      | failed vacant more pool => rfl
      | current has | pooled vacant uses got | created vacant more opened pool =>
        -- Where a backend was had, the handler goes on to send.
        simp only [ne_eq, not_true_eq_false, if_false] at done
        cases done
        cases fails

/--
A retry never starts clean: the socket that failed stays the current backend.

As long as it does, asking for a backend makes no attempt, and the request is sent to that socket.
-/
theorem retry_not_clean {times : Nat} {w failed retried : Worker} {c : ConnId} {rest : List Frame}
    {result : ConnectResult} (reached : Reachable (workerSystem times) w)
    (frames : w.frames = .allocServer c :: rest)
    (asked : w.step times (.connect result) = some failed)
    (fails : failed.failing = some c) (again : failed.retries times c = true)
    (done : failed.step times .go = some retried) :
    ¬ StartsClean retried c ∧
      ∀ (later after : Worker) result rest, (later.conn c).sock = (retried.conn c).sock →
        later.allocServer c result rest = some after →
        after = { later with frames := .sendData c (sendChecks false) :: rest } := by
  -- The failing request has set the socket that it could not connect.
  have current : (failed.conn c).sock.curservs = some w.store.made := by
    simp only [step, frames] at asked
    split at asked
    · exact allocServer_failing (owned_of_reachable reached) asked fails
    · cases asked
  -- The retry closes the slots of master and slave, but not the current one.
  have kept : (retried.conn c).sock.curservs = some w.store.made := by
    have running : ∃ rest', failed.frames = .getServerFailed c :: rest' := by
      unfold failing at fails
      split at fails
      · next c' rest' here =>
        cases fails
        exact ⟨rest', here⟩
      · cases fails
    obtain ⟨rest', running⟩ := running
    simp only [step, running] at done
    split at done
    · simp only [frameStep, getServerFailed, Option.bind_eq_bind, Option.bind_eq_some_iff] at done
      obtain ⟨cns, client, done⟩ := done
      rw [retries, client] at again
      rw [if_neg (Nat.not_le_of_lt (of_decide_eq_true again))] at done
      cases done
      exact (retryLater_curservs _ c).trans current
    · cases done
  refine ⟨fun clean => ?_, fun later after result rest same given => ?_⟩
  · rw [clean.2.2] at kept
    cases kept
  · exact allocServer_of_curservs (same ▸ kept) given

/-- A client's first request finds no backend. -/
def firstRequestRefused : List WorkerLabel :=
  [.addTask [99] 5000 5, .ready 5, .read .data, .attach (some (splitGroup, true)), .parsed .ok true,
    .connect .refused]

/-- The retry branch is taken, and leaves behind a current backend. -/
theorem retry_not_clean_refused : ∃ w failed retried : Worker,
    w.step 3 (.connect .refused) = some failed ∧ failed.step 3 .go = some retried ∧
      ¬ StartsClean retried 0 := by
  -- The first request of a client, whose connect is refused.
  have run : (exec (Worker.step 3) (.initial masterAndSlave 0) (firstRequestRefused.dropLast)).map
      (fun w => (w.frames, (w.step 3 (.connect .refused)).map fun failed =>
        (failed.failing, failed.retries 3 0, (failed.step 3 .go).isSome))) =
      some ([.allocServer 0], some (some 0, true, true)) := by
    decide +kernel
  obtain ⟨w, reached, seen⟩ :=
    exists_reachable (fun w => ∃ dataBase now, w = Worker.initial dataBase now) ⟨_, _, rfl⟩ run
  simp only [Prod.mk.injEq] at seen
  obtain ⟨frames, seen⟩ := seen
  obtain ⟨failed, asked, seen⟩ := Option.map_eq_some_iff.mp seen
  simp only [Prod.mk.injEq] at seen
  obtain ⟨fails, again, some_⟩ := seen
  obtain ⟨retried, done⟩ := Option.isSome_iff_exists.mp some_
  exact ⟨w, failed, retried, asked, done, (retry_not_clean reached frames asked fails again done).1⟩

/--
After the retry's ten seconds the request is written to a socket that was never connected.

The backend answers by then, but nothing asks it: socket 1 is the only one made, and has no
descriptor.
-/
theorem retried_request_unsent :
    ¬ ∀ w, Reachable (workerSystem 3) w → ∀ c, w.timers = [c] → StartsClean w c := by
  intro always
  have run : (exec (Worker.step 3) (.initial masterAndSlave 0)
    (firstRequestRefused ++ [.go, .go])).map
      (fun w => (w.timers, (w.conn 0).sock.curservs)) = some ([0], some 1) := by
    decide +kernel
  obtain ⟨w, reached, seen⟩ :=
    exists_reachable (fun w => ∃ dataBase now, w = Worker.initial dataBase now) ⟨_, _, rfl⟩ run
  simp only [Prod.mk.injEq] at seen
  have clean := always w reached 0 seen.1
  rw [clean.2.2] at seen
  exact absurd seen.2 (by decide)

end OneProxy.Worker
