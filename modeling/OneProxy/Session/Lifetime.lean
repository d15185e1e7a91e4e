import OneProxy.Session.Retry
import OneProxy.Session.StepCases

/-!
Who still knows of a connection after it has been deleted: timers, and the handler that ended it.
-/

namespace OneProxy.Worker

open Runs

/-- The connection that is about to be ended. -/
def ending (w : Worker) : Option ConnId :=
  match w.frames with
  | .finishedConnection c _ :: _ => some c
  | _ => none

/--
A connection that is about to be deleted has no pending timer, and neither has one about to get a
timer.

Giving up on a connection leads to its end with a message about it still to come, so it has to be
kept.
-/
def EndsCleanly (times : Nat) (w : Worker) (_ : WorkerLabel) : Prop :=
  (∀ c ∈ w.ending, w.servIsInEvent c = false → c ∉ w.timers) ∧
    ∀ c ∈ w.failing, if w.retries times c then c ∉ w.timers else w.servIsInEvent c = true

instance (times : Nat) (w : Worker) (label : WorkerLabel) : Decidable (EndsCleanly times w label) :=
  inferInstanceAs (Decidable ((∀ c ∈ w.ending, w.servIsInEvent c = false → c ∉ w.timers) ∧
    ∀ c ∈ w.failing, if w.retries times c then c ∉ w.timers else w.servIsInEvent c = true))

/--
What a handler can still have to do.

There is more than one step only behind a failed `alloc_server`, and where that ends the connection,
the connection is kept.
-/
inductive Stacked (w : Worker) : List Frame → Prop
  | idle : Stacked w []
  | one (f : Frame) : Stacked w [f]
  | failed (c : ConnId) : Stacked w [.getServerFailed c, .allocFailed c]
  | ended (c : ConnId) (type : ConnFinishType) (kept : w.servIsInEvent c = true) :
      Stacked w [.finishedConnection c type, .allocFailed c]

/-- Timers are about connections that are there, each about another one. -/
structure Tidy (w : Worker) : Prop where
  pending : ∀ c ∈ w.timers, c ∈ w.connectList
  once : w.timers.Nodup
  stacked : Stacked w w.frames

/-- What is left to do after a step that is not the last is all there is. -/
theorem Stacked.rest {w : Worker} {frame : Frame} {rest : List Frame}
    (stacked : Stacked w (frame :: rest)) (plain : frame.Plain) : rest = [] := by
  cases stacked with
  | one => rfl
  | failed | ended => exact plain.elim

/-- A plain step leaves one step at most. -/
theorem Stacked.next {w after : Worker} {frames : List Frame} (stacked : Stacked w w.frames)
    (next : NextFrames w.frames frames) : Stacked after frames := by
  generalize w.frames = before at stacked next
  cases next with
  | start => exact .one _
  | stay plain =>
    rw [stacked.rest plain]
    exact .one _
  | done plain =>
    rw [stacked.rest plain]
    exact .idle
  | next plain =>
    rw [stacked.rest plain]
    exact .one _

/-- Where ends are clean, timers only know of connections that are there. -/
theorem Tidy.step {times : Nat} {w after : Worker} {label : WorkerLabel} (owned : Owned w)
    (tidy : Tidy w) (clean : EndsCleanly times w label) (done : w.step times label = some after) :
    Tidy after := by
  -- One case for each kind of step; only a retry starts a timer, and only an end leaves the list.
  have pending : after.timers = w.timers → (∀ c ∈ w.connectList, c ∈ after.connectList) →
      ∀ c ∈ after.timers, c ∈ after.connectList :=
    fun timers stay c member => stay c (tidy.pending c (timers ▸ member))
  cases step_cases owned done with
  | quiet frames timers list =>
    exact ⟨pending timers fun _ member => list ▸ member, timers ▸ tidy.once,
      tidy.stacked.next frames⟩
  | checked list same events =>
    refine ⟨pending (same 0).timers fun _ member => list ▸ member, (same 0).timers ▸ tidy.once, ?_⟩
    rw [(same 0).frames]
    have stacked := tidy.stacked
    generalize w.frames = frames at stacked
    cases stacked with
    | idle => exact .idle
    | one => exact .one _
    | failed => exact .failed _
    | ended c type kept => exact .ended c type ((events c).trans kept)
  | added idle frames timers list =>
    refine ⟨pending timers fun c member => ?_, timers ▸ tidy.once, frames ▸ .idle⟩
    rw [list]
    exact List.mem_append_left _ member
  | expired c inTimers idle same =>
    subst same
    exact ⟨fun other member => tidy.pending other (List.mem_of_mem_erase member),
      tidy.once.erase c, .one _⟩
  | allocated c slot ns running isListed frames timers list =>
    have stacked : Stacked w (.allocServer c :: _) := running ▸ tidy.stacked
    refine ⟨pending timers fun _ member => list ▸ member, timers ▸ tidy.once, ?_⟩
    rw [frames, stacked.rest trivial]
    exact .one _
  | refused c running isListed frames timers list =>
    have stacked : Stacked w (.allocServer c :: _) := running ▸ tidy.stacked
    refine ⟨pending timers fun _ member => list ▸ member, timers ▸ tidy.once, ?_⟩
    rw [frames, stacked.rest trivial]
    exact .failed c
  | retried c running isListed again frames timers list =>
    -- A clean failure is one of a connection that waits for no timer yet.
    have absent := clean.2 c (by rw [failing, running]; rfl)
    rw [if_pos again] at absent
    refine ⟨fun other member => ?_, ?_, ?_⟩
    · rw [list]
      rcases List.mem_append.mp (timers ▸ member) with old | new
      · exact tidy.pending other old
      · exact List.mem_singleton.mp new ▸ isListed
    · rw [timers]
      refine List.nodup_append.mpr ⟨tidy.once, List.nodup_singleton c, fun a inside b isNew => ?_⟩
      rintro rfl
      exact absent (List.mem_singleton.mp isNew ▸ inside)
    · rw [frames]
      have stacked := running ▸ tidy.stacked
      cases stacked with
      | one => exact .idle
      | failed => exact .one _
  | gaveUp c running isListed atEnd frames timers list connMade obtained conn events =>
    have kept := clean.2 c (by rw [failing, running]; rfl)
    rw [if_neg (by simp [atEnd])] at kept
    refine ⟨pending timers fun _ member => list ▸ member, timers ▸ tidy.once, ?_⟩
    rw [frames]
    have stacked := running ▸ tidy.stacked
    cases stacked with
    | one => exact .one _
    | failed => exact .ended c .err (events.trans kept)
  | finished c type running isListed ended aside list kept placed =>
    refine ⟨fun other member => ?_, aside.timers ▸ tidy.once, ?_⟩
    · have before : other ∈ w.timers := aside.timers ▸ member
      have listed := tidy.pending other before
      rw [list]
      cases busy : w.servIsInEvent c with
      | true => exact listed
      | false =>
        -- A connection that is deleted waits for no timer, as its end is clean.
        have differs : other ≠ c := by
          rintro rfl
          exact clean.1 other (by rw [ending, running]; rfl) busy before
        exact List.mem_filter.mpr ⟨listed, by simpa using differs⟩
    · rw [aside.frames]
      have stacked := running ▸ tidy.stacked
      cases stacked with
      | one => exact .idle
      | ended => exact .one _

/-- The steps of one handler, from where it is until it returns. -/
def handlerSystem (times : Nat) : System Worker WorkerLabel :=
  (workerSystem times).restrict fun w _ => w.frames ≠ []

/-- In every run whose ends are clean, timers are tidy. -/
theorem tidy_of_endsCleanly {times : Nat} {w : Worker}
    (reached : Reachable ((workerSystem times).restrict (EndsCleanly times)) w) : Tidy w := by
  have start : ∀ u, (workerSystem times).init u → Tidy u := by
    rintro u ⟨dataBase, now, rfl⟩
    exact ⟨fun c member => absurd member List.not_mem_nil, List.nodup_nil, .idle⟩
  refine reached.restrict_invariant (fun u => owned_of_reachable) start ?_
  intro u l v owned tidy clean last
  exact tidy.step owned clean last

/-- A handler that deletes a connection is over then. -/
theorem frames_of_deleted {times : Nat} {w after : Worker} {c : ConnId} {label : WorkerLabel}
    (owned : Owned w) (tidy : Tidy w) (done : w.step times label = some after)
    (listed : c ∈ w.connectList) (deleted : c ∉ after.connectList) : after.frames = [] := by
  have stays : after.connectList ≠ w.connectList := fun list => deleted (list ▸ listed)
  cases step_cases owned done with
  | quiet frames timers list => exact absurd list stays
  | checked list => exact absurd list stays
  | added idle frames => exact frames
  | expired other pending idle same =>
    subst same
    exact absurd listed deleted
  | allocated other slot ns running isListed frames timers list => exact absurd list stays
  | refused other running isListed frames timers list => exact absurd list stays
  | retried other running isListed again frames timers list => exact absurd list stays
  | gaveUp other running isListed atEnd frames timers list => exact absurd list stays
  | finished other type running isListed ended aside list =>
    have stacked := tidy.stacked
    rw [running] at stacked
    rw [aside.frames]
    cases stacked with
    | one => rfl
    | ended c type kept =>
      -- A connection that a message is still to come about was kept.
      rw [kept] at list
      exact absurd list stays

/--
Where ends are clean, nothing knows of a connection that has been deleted.

Pending timers are about connections that are there, one timer each; and after a step that deletes a
connection, nothing that its handler still does is about that connection.
-/
theorem forgotten_of_endsCleanly {times : Nat} {w : Worker}
    (reached : Reachable ((workerSystem times).restrict (EndsCleanly times)) w) :
    (∀ c ∈ w.timers, c ∈ w.connectList) ∧ w.timers.Nodup ∧
      ∀ c label after, EndsCleanly times w label → w.step times label = some after →
        c ∈ w.connectList → c ∉ after.connectList →
        ∀ labels later, Run (handlerSystem times) after labels later →
          ∀ frame ∈ later.frames, frame.conn ≠ c := by
  have tidy := tidy_of_endsCleanly reached
  refine ⟨tidy.pending, tidy.once, ?_⟩
  intro c label after clean done listed deleted labels later run
  have returned :=
    frames_of_deleted (owned_of_reachable reached.of_restrict) tidy done listed deleted
  -- A handler that has returned makes no step.
  have keep : ∀ u l v, Worker.frames u = [] → (handlerSystem times).step u l v → v.frames = [] := by
    intro u l v before last
    exact absurd before last.1
  have stays := run.preserves keep returned
  rw [stays]
  exact fun frame member => absurd member List.not_mem_nil

/-- A connection with a pending timer, and then without one, is deleted. -/
theorem forgotten_of_endsCleanly_refused : ∃ w : Worker, w.timers = [0] ∧
    (∀ c ∈ w.timers, c ∈ w.connectList) ∧ w.timers.Nodup := by
  have run : (exec (guarded (EndsCleanly 3) (Worker.step 3)) (.initial masterAndSlave 0)
      (firstRequestRefused ++ [.go, .go])).map (fun w => w.timers) = some [0] := by
    decide +kernel
  obtain ⟨w, reached, seen⟩ :=
    exists_reachable_guarded (fun w => ∃ dataBase now, w = Worker.initial dataBase now)
      ⟨_, _, rfl⟩ run
  have forgotten := forgotten_of_endsCleanly reached
  exact ⟨w, seen, forgotten.1, forgotten.2.1⟩

/-- The timer of a client that left while its request was to be tried again is still pending. -/
theorem timer_of_deleted :
    ¬ ∀ w, Reachable (workerSystem 3) w → ∀ c ∈ w.timers, c ∈ w.connectList := by
  intro always
  have run : (exec (Worker.step 3) (.initial masterAndSlave 0)
      (firstRequestRefused ++ [.go, .go, .ready 5, .read .closed, .go])).map
        (fun w => (w.timers, w.connectList)) = some ([0], []) := by
    decide +kernel
  obtain ⟨w, reached, seen⟩ :=
    exists_reachable (fun w => ∃ dataBase now, w = Worker.initial dataBase now) ⟨_, _, rfl⟩ run
  simp only [Prod.mk.injEq] at seen
  have there := always w reached 0 (seen.1 ▸ List.mem_singleton_self 0)
  rw [seen.2] at there
  exact absurd there List.not_mem_nil

end OneProxy.Worker
