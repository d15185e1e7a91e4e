import OneProxy.Iomultiplex.IoSelect
import OneProxy.Lib.OrderedMap

/-! One round of the event loop that waits with `select`. -/

namespace OneProxy

/-- The address of a `SelectTimerS`, by which the timers are ordered. -/
abbrev TimerAddr := Fin 0x10000000000000000

/-- A `SelectTimerS` and the `EventInfo` that is kept under its address. -/
structure SelectTimer (φ α : Type) where
  timerTime : UInt64
  isRepeat : Bool
  /-- `(int)(ei.repeat * ONE_SECOND)`, in milliseconds. -/
  period : UInt64
  fp : φ
  funcParam : α

/-- What the callbacks of a round work on: the registrations, and the timers. -/
structure EventLoop (fdSetSize : UInt32) (φ α : Type) where
  select : IoSelect φ α
  timerMap : OrderedMap TimerAddr (SelectTimer φ α)
  /-- `add_ioEvent` takes no larger descriptor. -/
  small : ∀ fd, (select.event fd).isSome → fd < fdSetSize

namespace EventLoop

/-- What a callback does to the event loop. -/
inductive Act (φ α : Type)
  | io (call : IoSelect.Call φ α)
  /-- `add_timerEvent`, with the address that the new timer has. -/
  | addTimer (addr : TimerAddr) (timer : SelectTimer φ α)

/-- What happens in a round: a callback is called, or the event of a descriptor ends. -/
inductive Note (φ α : Type)
  | invoked (fd : UInt32) (event : SelectEventType) (func : φ) (args : α)
  | fired (addr : TimerAddr) (func : φ) (args : α)
  | deleted (fd : UInt32)
  | replaced (fd : UInt32)
  deriving DecidableEq

/-- How a round goes wrong: through a null pointer, or an iterator of an entry that is gone. -/
inductive Fault
  | nullEvent
  | erasedEntry
  deriving DecidableEq

/-- The descriptor of a call. -/
def callFd {φ α : Type} : IoSelect.Call φ α → UInt32
  | .addRead fd _ _ => fd
  | .addWrite fd _ _ => fd
  | .addAccept fd _ _ => fd
  | .del fd => fd

variable {fdSetSize : UInt32} {φ α : Type}

/--
The event that a call ends, if any: the one that is deleted, or the one in whose place another is
put.
-/
def ended (l : EventLoop fdSetSize φ α) : IoSelect.Call φ α → List (Note φ α)
  | .del fd => [.deleted fd]
  | call =>
    if callFd call < fdSetSize ∧
      (l.select.event (callFd call)).isSome then [.replaced (callFd call)]
    else []

/-- A registration changes the event of its own descriptor, and only if it is small enough. -/
theorem event_addIoEvent (s : IoSelect φ α) (fd : UInt32) (event : SelectEventType) (func : φ)
    (args : α) (other : UInt32) : (s.addIoEvent fdSetSize fd event func args).2.event other =
      if other = fd ∧ fd < fdSetSize then some event else s.event other := by
  rw [IoSelect.addIoEvent]
  by_cases big : fd ≥ fdSetSize
  · rw [if_pos big, if_neg fun both => UInt32.not_lt.mpr big both.2]
  · have small : fd < fdSetSize := UInt32.not_le.mp big
    rw [if_neg big, IoSelect.event_update rfl other]
    by_cases same : other = fd
    · rw [if_pos same, if_pos ⟨same, small⟩]
      rfl
    · rw [if_neg same, if_neg fun both => same both.1]

/-- A call changes no event but that of its descriptor, which only a small one gets. -/
theorem event_call {s t : IoSelect φ α} {call : IoSelect.Call φ α}
    (done : s.call fdSetSize call = some t) (fd : UInt32) :
    t.event fd = s.event fd ∨ fd = callFd call ∧ ((t.event fd).isSome → fd < fdSetSize) := by
  have added : ∀ (other : UInt32) (event : SelectEventType) (func : φ) (args : α),
      (s.addIoEvent fdSetSize other event func args).2 = t →
        t.event fd = s.event fd ∨ fd = other ∧ ((t.event fd).isSome → fd < fdSetSize) := by
    rintro other event func args rfl
    rw [event_addIoEvent]
    split_ifs with both
    · exact Or.inr ⟨both.1, fun _ => both.1 ▸ both.2⟩
    · exact Or.inl rfl
  cases call with
  | addRead other func args => exact added other .read func args (Option.some.inj done)
  | addWrite other func args => exact added other .write func args (Option.some.inj done)
  | addAccept other func args => exact added other .accept func args (Option.some.inj done)
  | del other =>
    obtain ⟨event, _, rfl⟩ := Option.map_eq_some_iff.mp done
    rw [IoSelect.event_update (rfl : (s.deleted other event).eventMap = _)]
    split_ifs with same
    · exact Or.inr ⟨same, fun there => absurd there (by simp)⟩
    · exact Or.inl rfl

/-- A call leaves all registered descriptors small. -/
theorem small_call {s t : IoSelect φ α} {call : IoSelect.Call φ α}
    (done : s.call fdSetSize call = some t) (small : ∀ fd, (s.event fd).isSome → fd < fdSetSize)
    (fd : UInt32) (there : (t.event fd).isSome) : fd < fdSetSize := by
  rcases event_call done fd with same | ⟨_, bound⟩
  · exact small fd (same ▸ there)
  · exact bound there

/--
What an act of a callback does, with the event that it ends; no timer is given an address in use.
-/
def act (l : EventLoop fdSetSize φ α) :
    Act φ α → Except Fault (EventLoop fdSetSize φ α × List (Note φ α))
  | .io call =>
    match done : l.select.call fdSetSize call with
    | none => .error .nullEvent
    | some select => .ok (⟨select, l.timerMap, small_call done l.small⟩, l.ended call)
  | .addTimer addr timer => .ok ({ l with timerMap := l.timerMap.insertNew addr timer }, [])

/-- A round so far. -/
structure Round (fdSetSize : UInt32) (φ α : Type) where
  loop : EventLoop fdSetSize φ α
  notes : List (Note φ α)

/-- What the callbacks do: the acts of a call, after all that has happened in the round up to it. -/
abbrev Behaviour (φ α : Type) := List (Note φ α) → List (Act φ α)

namespace Round

/-- The acts of one callback. -/
def run (r : Round fdSetSize φ α) : List (Act φ α) → Except Fault (Round fdSetSize φ α)
  | [] => .ok r
  | a :: acts =>
    match r.loop.act a with
    | .error fault => .error fault
    | .ok (loop, ended) => run ⟨loop, r.notes ++ ended⟩ acts

/-- A round in which one more thing has happened. -/
def noting (r : Round fdSetSize φ α) (note : Note φ α) : Round fdSetSize φ α :=
  { r with notes := r.notes ++ [note] }

/-- The call of a callback. -/
def invoke (behaviour : Behaviour φ α) (r : Round fdSetSize φ α) (note : Note φ α) :
    Except Fault (Round fdSetSize φ α) :=
  (r.noting note).run (behaviour (r.noting note).notes)

end Round

/-- The entries of the event map, by ascending descriptors. -/
def entries (l : EventLoop fdSetSize φ α) : List (UInt32 × SelectEventType × φ × α) :=
  (List.range fdSetSize.toNat).filterMap fun fd =>
    (l.select.eventMap (UInt32.ofNat fd)).map (UInt32.ofNat fd, ·)

/-- Whether `select` has left the bit of a descriptor in the set for its event. -/
def isReady (readSet writeSet : Finset UInt32) (entry : UInt32 × SelectEventType × φ × α) : Bool :=
  (entry.1 ∈ readSet ∧ (entry.2.1 = .read ∨ entry.2.1 = .accept)) ∨
    (entry.1 ∈ writeSet ∧ entry.2.1 = .write)

/-- The callbacks of the ready descriptors, from a copy of the event map. -/
def ioPass (behaviour : Behaviour φ α) :
    List (UInt32 × SelectEventType × φ × α) → Round fdSetSize φ α →
      Except Fault (Round fdSetSize φ α)
  | [], r => .ok r
  | (fd, event, func, args) :: rest, r =>
    match r.invoke behaviour (.invoked fd event func args) with
    | .error fault => .error fault
    | .ok r => ioPass behaviour rest r

/-- What `select` answers. -/
inductive Waited
  | failed
  | timedOut
  | ready (readSet writeSet : Finset UInt32)

/-- The descriptors' part of `run_loopWithTimeout`, and whether the round goes on to the timers. -/
def descriptorsPart (behaviour : Behaviour φ α) (l : EventLoop fdSetSize φ α) (waited : Waited) :
    Except Fault (Bool × Round fdSetSize φ α) :=
  if l.entries = [] then .ok (true, ⟨l, []⟩)
  else
    match waited with
    | .failed => .ok (false, ⟨l, []⟩)
    | .timedOut => .ok (true, ⟨l, []⟩)
    | .ready readSet writeSet =>
      match ioPass behaviour (l.entries.filter (isReady readSet writeSet)) ⟨l, []⟩ with
      | .error fault => .error fault
      | .ok r => .ok (true, r)

/--
The timers from behind a place on, with a bound on how many are left.

A timer that does not repeat is erased, and then the loop goes on from the entry that is gone.
-/
def timerPass (behaviour : Behaviour φ α) (currentTime : UInt64) :
    Nat → Option TimerAddr → Round fdSetSize φ α → Except Fault (Round fdSetSize φ α)
  | 0, _, r => .ok r
  | left + 1, place, r =>
    match r.loop.timerMap.after place with
    | none => .ok r
    | some (addr, timer) =>
      if currentTime ≥ timer.timerTime then
        match r.invoke behaviour (.fired addr timer.fp timer.funcParam) with
        | .error fault => .error fault
        | .ok r =>
          if timer.isRepeat = false then .error .erasedEntry
          else
            timerPass behaviour currentTime left (some addr)
              { r with loop := { r.loop with
                timerMap := r.loop.timerMap.modify addr fun sts =>
                  { sts with timerTime := currentTime + timer.period } } }
      else timerPass behaviour currentTime left (some addr) r

/-- `run_loopWithTimeout`, after `select` has answered. -/
def runLoopWithTimeout (behaviour : Behaviour φ α) (l : EventLoop fdSetSize φ α) (waited : Waited)
    (currentTime : UInt64) : Except Fault (Round fdSetSize φ α) :=
  match descriptorsPart behaviour l waited with
  | .error fault => .error fault
  | .ok (false, r) => .ok r
  | .ok (true, r) => timerPass behaviour currentTime 0x10000000000000000 none r

/-! ## What is expected of a round -/

/-- What happens earlier does not end the event whose callback is called later. -/
def Note.Spares (earlier later : Note φ α) : Prop :=
  ∀ fd event func args, later = .invoked fd event func args →
    earlier ≠ .deleted fd ∧ earlier ≠ .replaced fd

/-- The callback of the timer at an address is called. -/
def Note.fires (addr : TimerAddr) : Note φ α → Bool
  | .fired addr' _ _ => addr' = addr
  | _ => false

/--
No stale callback, every due timer that is there when the timers' turn comes fires once, and nothing
goes wrong.
-/
def Sound (behaviour : Behaviour φ α) (l : EventLoop fdSetSize φ α) (waited : Waited)
    (currentTime : UInt64) : Prop :=
  ∃ goesOn before after, descriptorsPart behaviour l waited = .ok (goesOn, before) ∧
    runLoopWithTimeout behaviour l waited currentTime = .ok after ∧
    after.notes.Pairwise Note.Spares ∧
    (goesOn = true → ∀ e ∈ before.loop.timerMap.entries, currentTime ≥ e.2.timerTime →
      after.notes.countP (Note.fires e.1) = 1)

/-- An act registers or deletes a descriptor. -/
def Touches (fd : UInt32) : Act φ α → Prop
  | .io call => callFd call = fd
  | .addTimer _ _ => False

/-- Every descriptor that the acts delete is registered when they do. -/
def Mild : EventLoop fdSetSize φ α → List (Act φ α) → Prop
  | _, [] => True
  | l, a :: acts => (∀ fd, a = .io (.del fd) → (l.select.event fd).isSome) ∧
      ∀ l' ended, l.act a = .ok (l', ended) → Mild l' acts

/-- No callback touches a ready descriptor whose turn has not come, and all are mild. -/
def CarefulIo (behaviour : Behaviour φ α) :
    List (UInt32 × SelectEventType × φ × α) → Round fdSetSize φ α → Prop
  | [], _ => True
  | (fd, event, func, args) :: rest, r =>
    let called := r.noting (.invoked fd event func args)
    (∀ a ∈ behaviour called.notes, ∀ later ∈ rest, ¬ Touches later.1 a) ∧
      Mild r.loop (behaviour called.notes) ∧
      ∀ r', called.run (behaviour called.notes) = .ok r' → CarefulIo behaviour rest r'

/-- Every due timer that its turn comes to repeats, and all callbacks are mild. -/
def CarefulTimers (behaviour : Behaviour φ α) (currentTime : UInt64) :
    Nat → Option TimerAddr → Round fdSetSize φ α → Prop
  | 0, _, _ => True
  | left + 1, place, r =>
    match r.loop.timerMap.after place with
    | none => True
    | some (addr, timer) =>
      if currentTime ≥ timer.timerTime then
        let called := r.noting (.fired addr timer.fp timer.funcParam)
        timer.isRepeat = true ∧ Mild r.loop (behaviour called.notes) ∧
          ∀ r', called.run (behaviour called.notes) = .ok r' →
            CarefulTimers behaviour currentTime left (some addr)
              { r' with loop := { r'.loop with
                timerMap := r'.loop.timerMap.modify addr fun sts =>
                  { sts with timerTime := currentTime + timer.period } } }
      else CarefulTimers behaviour currentTime left (some addr) r

/-- Both halves of a round are careful. -/
structure Careful (behaviour : Behaviour φ α) (l : EventLoop fdSetSize φ α) (waited : Waited)
    (currentTime : UInt64) : Prop where
  io : l.entries ≠ [] → ∀ readSet writeSet, waited = .ready readSet writeSet →
    CarefulIo behaviour (l.entries.filter (isReady readSet writeSet)) ⟨l, []⟩
  timers : ∀ r, descriptorsPart behaviour l waited = .ok (true, r) →
    CarefulTimers behaviour currentTime 0x10000000000000000 none r

/-! ## The acts of a callback -/

variable {l l' : EventLoop fdSetSize φ α} {a : Act φ α} {ended : List (Note φ α)}

/-- A call on the event loop is the call on its registrations. -/
theorem act_io (call : IoSelect.Call φ α) :
    l.select.call fdSetSize call = none ∧ l.act (.io call) = .error .nullEvent ∨
      ∃ select, ∃ done : l.select.call fdSetSize call = some select, l.act (.io call) =
        .ok (⟨select, l.timerMap, small_call done l.small⟩, l.ended call) := by
  simp only [act]
  split
  · rename_i missing
    exact Or.inl ⟨missing, rfl⟩
  · rename_i select done
    exact Or.inr ⟨select, done, rfl⟩

/-- A call ends the event that it deletes, or the one that is there where it registers. -/
theorem ended_cases (call : IoSelect.Call φ α) :
    l.ended call = [.deleted (callFd call)] ∨
      l.ended call = if callFd call < fdSetSize ∧ (l.select.event (callFd call)).isSome then
        [.replaced (callFd call)] else [] := by
  cases call with
  | del fd => exact Or.inl rfl
  | _ => exact Or.inr rfl

/-- A call is refused where it deletes a descriptor that is not registered. -/
theorem call_eq_none_iff {s : IoSelect φ α} {call : IoSelect.Call φ α} :
    s.call fdSetSize call = none ↔ ∃ fd, call = .del fd ∧ s.event fd = none := by
  cases call with
  | del fd =>
    rw [IoSelect.call, IoSelect.delIoEvent, Option.map_eq_none_iff]
    constructor
    · exact fun missing => ⟨fd, rfl, missing⟩
    · rintro ⟨fd', same, missing⟩
      cases same
      exact missing
  | _ =>
    constructor
    · intro done
      cases done
    · rintro ⟨fd, same, _⟩
      cases same

/-- An act goes wrong exactly where it deletes a descriptor that is not registered. -/
theorem act_ok_iff : (∃ r, l.act a = .ok r) ↔
    ∀ fd, a = .io (.del fd) → (l.select.event fd).isSome := by
  cases a with
  | io call =>
    rcases @act_io _ _ _ l call with ⟨missing, wrong⟩ | ⟨select, done, right⟩
    · obtain ⟨fd, rfl, gone⟩ := call_eq_none_iff.mp missing
      refine iff_of_false ?_ fun registered => ?_
      · rintro ⟨r, done⟩
        rw [wrong] at done
        cases done
      · have there := registered fd rfl
        rw [gone] at there
        cases there
    · refine iff_of_true ⟨_, right⟩ fun fd same => ?_
      cases same
      by_contra gone
      rw [call_eq_none_iff.mpr ⟨fd, rfl, Option.not_isSome_iff_eq_none.mp gone⟩] at done
      cases done
  | addTimer addr timer => exact iff_of_true ⟨_, rfl⟩ fun fd same => by cases same

/-- What an act does to the events and the timers, and which events it ends. -/
structure ActDoes (l l' : EventLoop fdSetSize φ α) (a : Act φ α) (ended : List (Note φ α)) :
    Prop where
  others : ∀ fd, ¬ Touches fd a → l'.select.event fd = l.select.event fd
  ended_touched : ∀ note ∈ ended, ∃ fd, Touches fd a ∧ (note = .deleted fd ∨ note = .replaced fd)
  touched_ended : ∀ fd, Touches fd a → (l.select.event fd).isSome →
    .deleted fd ∈ ended ∨ .replaced fd ∈ ended
  timers : ∀ e ∈ l.timerMap.entries, e ∈ l'.timerMap.entries

theorem act_does (done : l.act a = .ok (l', ended)) : ActDoes l l' a ended := by
  cases a with
  | io call =>
    rcases @act_io _ _ _ l call with ⟨_, wrong⟩ | ⟨select, made, right⟩
    · rw [wrong] at done
      cases done
    · rw [right] at done
      cases done
      refine ⟨fun fd untouched => ?_, fun note member => ⟨callFd call, rfl, ?_⟩, ?_,
        fun e member => member⟩
      · rcases event_call made fd with same | ⟨rfl, _⟩
        · exact same
        · exact absurd rfl untouched
      · rcases ended_cases call with deleted | replaced
        · rw [deleted] at member
          exact Or.inl (List.mem_singleton.mp member)
        · rw [replaced] at member
          split_ifs at member
          · exact Or.inr (List.mem_singleton.mp member)
          · cases member
      · rintro fd rfl there
        rcases ended_cases call with deleted | replaced
        · rw [deleted]
          exact Or.inl (List.mem_singleton_self _)
        · rw [replaced, if_pos ⟨l.small _ there, there⟩]
          exact Or.inr (List.mem_singleton_self _)
  | addTimer addr timer =>
    cases done
    exact ⟨fun fd _ => rfl, fun note member => absurd member List.not_mem_nil,
      fun fd touches => touches.elim, fun e member => OrderedMap.mem_insertNew member⟩

namespace Round

variable {r r' : Round fdSetSize φ α} {acts : List (Act φ α)}

/-- The acts of a callback go through exactly if they are mild. -/
theorem run_ok_iff : ∀ {r : Round fdSetSize φ α}, (∃ r', r.run acts = .ok r') ↔
      Mild r.loop acts := by
  induction acts with
  | nil => exact fun {r} => iff_of_true ⟨r, rfl⟩ trivial
  | cons a acts ih =>
    intro r
    rw [run, Mild, ← act_ok_iff]
    cases done : r.loop.act a with
    | error fault =>
      refine iff_of_false ?_ ?_
      · rintro ⟨r', wrong⟩
        cases wrong
      · rintro ⟨⟨next, wrong⟩, _⟩
        cases wrong
    | ok next =>
      obtain ⟨loop, ended⟩ := next
      constructor
      · intro through
        refine ⟨⟨_, rfl⟩, fun l' ended' same => ?_⟩
        cases same
        exact ih.mp through
      · rintro ⟨_, rest⟩
        exact ih.mpr (rest loop ended rfl)

/-- What the acts of a callback do to the events and the timers, and which events they end. -/
structure RunDoes (r r' : Round fdSetSize φ α) (acts : List (Act φ α)) (more : List (Note φ α)) :
    Prop where
  notes : r'.notes = r.notes ++ more
  others : ∀ fd, (∀ a ∈ acts, ¬ Touches fd a) → r'.loop.select.event fd = r.loop.select.event fd
  ended_touched : ∀ note ∈ more, ∃ a ∈ acts, ∃ fd, Touches fd a ∧
    (note = .deleted fd ∨ note = .replaced fd)
  timers : ∀ e ∈ r.loop.timerMap.entries, e ∈ r'.loop.timerMap.entries

theorem run_does : ∀ {r : Round fdSetSize φ α}, r.run acts = .ok r' →
    ∃ more, RunDoes r r' acts more := by
  induction acts with
  | nil =>
    intro r done
    cases done
    exact ⟨[], ⟨(List.append_nil _).symm, fun fd _ => rfl,
      fun note member => absurd member List.not_mem_nil, fun e member => member⟩⟩
  | cons a acts ih =>
    intro r done
    rw [run] at done
    cases first : r.loop.act a with
    | error fault =>
      rw [first] at done
      cases done
    | ok next =>
      obtain ⟨loop, ended⟩ := next
      rw [first] at done
      have does := act_does first
      obtain ⟨more, rest⟩ := ih done
      refine ⟨ended ++ more,
        ⟨?_, fun fd untouched => ?_, fun note member => ?_, fun e member => ?_⟩⟩
      · rw [rest.notes, List.append_assoc]
      · rw [rest.others fd fun b later => untouched b (List.mem_cons_of_mem _ later)]
        exact does.others fd (untouched a List.mem_cons_self)
      · rcases List.mem_append.mp member with now | later
        · exact ⟨a, List.mem_cons_self, does.ended_touched note now⟩
        · obtain ⟨b, member, touched⟩ := rest.ended_touched note later
          exact ⟨b, List.mem_cons_of_mem _ member, touched⟩
      · exact rest.timers e (does.timers e member)

/-- Of registered descriptors, the event of the first one that acts touch is ended by them. -/
theorem run_ends {fds : List UInt32} : ∀ {r : Round fdSetSize φ α}, r.run acts = .ok r' →
    (∀ fd ∈ fds, (r.loop.select.event fd).isSome) → (∃ a ∈ acts, ∃ fd ∈ fds, Touches fd a) →
      ∃ fd ∈ fds, .deleted fd ∈ r'.notes ∨ .replaced fd ∈ r'.notes := by
  induction acts with
  | nil =>
    rintro r done _ ⟨a, member, _⟩
    cases member
  | cons a acts ih =>
    rintro r done registered ⟨b, member, fd, among, touches⟩
    rw [run] at done
    cases first : r.loop.act a with
    | error fault =>
      rw [first] at done
      cases done
    | ok next =>
      obtain ⟨loop, ended⟩ := next
      rw [first] at done
      have does := act_does first
      by_cases now : ∃ fd ∈ fds, Touches fd a
      · obtain ⟨fd, among, touches⟩ := now
        obtain ⟨more, rest⟩ := run_does done
        have kept : ∀ note ∈ ended, note ∈ r'.notes := by
          intro note member
          rw [rest.notes]
          exact List.mem_append_left _ (List.mem_append_right _ member)
        exact ⟨fd, among, (does.touched_ended fd touches (registered fd among)).imp
          (kept _) (kept _)⟩
      · -- None of them is touched yet, so all are still registered.
        have untouched : ∀ fd ∈ fds, ¬ Touches fd a :=
          fun fd among touches => now ⟨fd, among, touches⟩
        refine ih done (fun fd among => ?_) ⟨b, ?_, fd, among, touches⟩
        · rw [does.others fd (untouched fd among)]
          exact registered fd among
        · rcases List.mem_cons.mp member with rfl | later
          · exact absurd touches (untouched fd among)
          · exact later

end Round

/-! ## The descriptors -/

/-- Something other than the callback of a descriptor's event. -/
def Note.Other (note : Note φ α) : Prop := ∀ fd event func args, note ≠ .invoked fd event func args

/-- No callback becomes stale by what else happens behind it. -/
theorem pairwise_append_other {notes more : List (Note φ α)} (spares : notes.Pairwise Note.Spares)
    (other : ∀ note ∈ more, note.Other) : (notes ++ more).Pairwise Note.Spares := by
  have last : ∀ earlier : Note φ α, ∀ note ∈ more, earlier.Spares note :=
    fun _ note member fd event func args same => absurd same (other note member fd event func args)
  exact List.pairwise_append.mpr
      ⟨spares, List.pairwise_of_forall_mem_list fun earlier _ note member =>
    last earlier note member, fun earlier _ => last earlier⟩

variable {behaviour : Behaviour φ α}

/-- The acts of a callback only end events. -/
theorem Round.RunDoes.other {r r' : Round fdSetSize φ α} {acts : List (Act φ α)}
    {more : List (Note φ α)} (does : Round.RunDoes r r' acts more) : ∀ note ∈ more, note.Other := by
  rintro note member fd event func args rfl
  obtain ⟨_, _, _, _, same | same⟩ := does.ended_touched _ member
  · cases same
  · cases same

/-- No timer is fired by the acts of a callback. -/
theorem Round.RunDoes.not_fires {r r' : Round fdSetSize φ α} {acts : List (Act φ α)}
    {more : List (Note φ α)} (does : Round.RunDoes r r' acts more) (addr : TimerAddr) :
    more.countP (Note.fires addr) = 0 := by
  refine List.countP_eq_zero.mpr fun note member => ?_
  obtain ⟨_, _, _, _, rfl | rfl⟩ := does.ended_touched note member
  · exact Bool.false_ne_true
  · exact Bool.false_ne_true

/-- Every ready descriptor has its callback called, and no timer has. -/
theorem ioPass_notes (rest : List (UInt32 × SelectEventType × φ × α)) :
    ∀ {r r' : Round fdSetSize φ α}, ioPass behaviour rest r = .ok r' → ∃ more,
      r'.notes = r.notes ++ more ∧
      (∀ e ∈ rest, .invoked e.1 e.2.1 e.2.2.1 e.2.2.2 ∈ more) ∧
      ∀ addr, more.countP (Note.fires addr) = 0 := by
  induction rest with
  | nil =>
    intro r r' done
    cases done
    exact ⟨[], (List.append_nil _).symm, fun e member => absurd member List.not_mem_nil,
      fun _ => rfl⟩
  | cons e rest ih =>
    obtain ⟨fd, event, func, args⟩ := e
    intro r r' done
    rw [ioPass] at done
    cases first : r.invoke behaviour (.invoked fd event func args) with
    | error fault =>
      rw [first] at done
      cases done
    | ok r₁ =>
      rw [first] at done
      obtain ⟨acted, does⟩ := Round.run_does first
      obtain ⟨more, notes, called, fired⟩ := ih done
      refine ⟨.invoked fd event func args :: (acted ++ more), ?_, fun e member => ?_,
        fun addr => ?_⟩
      · rw [notes, does.notes, Round.noting, List.append_assoc, List.append_assoc]
        rfl
      · rcases List.mem_cons.mp member with rfl | later
        · exact List.mem_cons_self
        · exact List.mem_cons_of_mem _ (List.mem_append_right _ (called e later))
      · rw [List.countP_cons_of_neg (by simp [Note.fires]), List.countP_append,
          does.not_fires, fired]

/-- Descriptors are registered, none of their events has ended, and no callback was stale. -/
structure Alive (rest : List (UInt32 × SelectEventType × φ × α)) (r : Round fdSetSize φ α) :
    Prop where
  registered : ∀ e ∈ rest, (r.loop.select.event e.1).isSome
  spares : r.notes.Pairwise Note.Spares
  kept : ∀ e ∈ rest, .deleted e.1 ∉ r.notes ∧ .replaced e.1 ∉ r.notes

/-- The first of them has its callback called in time. -/
theorem Alive.noting {rest : List (UInt32 × SelectEventType × φ × α)} {r : Round fdSetSize φ α}
    {fd : UInt32} {event : SelectEventType} {func : φ} {args : α}
    (alive : Alive ((fd, event, func, args) :: rest) r) :
    Alive rest (r.noting (.invoked fd event func args)) where
  registered e member := alive.registered e (List.mem_cons_of_mem _ member)
  spares := by
    refine List.pairwise_append.mpr ⟨alive.spares, List.pairwise_singleton _ _, ?_⟩
    rintro earlier member note singleton fd' event' func' args' same
    rw [List.mem_singleton.mp singleton] at same
    cases same
    obtain ⟨notDeleted, notReplaced⟩ := alive.kept _ List.mem_cons_self
    exact ⟨fun ends => notDeleted (ends ▸ member), fun ends => notReplaced (ends ▸ member)⟩
  kept e member := by
    obtain ⟨notDeleted, notReplaced⟩ := alive.kept e (List.mem_cons_of_mem _ member)
    simp only [Round.noting, List.mem_append, List.mem_singleton, reduceCtorEq, or_false]
    exact ⟨notDeleted, notReplaced⟩

/-- Descriptors that a callback does not touch are left as they are. -/
theorem Alive.run {rest : List (UInt32 × SelectEventType × φ × α)} {r r' : Round fdSetSize φ α}
    {acts : List (Act φ α)} (alive : Alive rest r) (done : r.run acts = .ok r')
    (untouched : ∀ a ∈ acts, ∀ later ∈ rest, ¬ Touches later.1 a) : Alive rest r' := by
  obtain ⟨more, does⟩ := Round.run_does done
  have apart : ∀ e ∈ rest, .deleted e.1 ∉ more ∧ .replaced e.1 ∉ more := by
    intro e among
    constructor
    · intro member
      obtain ⟨a, acted, fd, touches, same | same⟩ := does.ended_touched _ member
      · cases same
        exact untouched a acted e among touches
      · cases same
    · intro member
      obtain ⟨a, acted, fd, touches, same | same⟩ := does.ended_touched _ member
      · cases same
      · cases same
        exact untouched a acted e among touches
  refine ⟨fun e among => ?_, ?_, fun e among => ?_⟩
  · rw [does.others e.1 fun a acted => untouched a acted e among]
    exact alive.registered e among
  · rw [does.notes]
    exact pairwise_append_other alive.spares does.other
  · rw [does.notes, List.mem_append, List.mem_append, not_or, not_or]
    obtain ⟨notDeleted, notReplaced⟩ := alive.kept e among
    exact ⟨⟨notDeleted, (apart e among).1⟩, notReplaced, (apart e among).2⟩

/--
The callbacks of the ready descriptors all go through and none is stale exactly if they are careful.
-/
theorem ioPass_iff (rest : List (UInt32 × SelectEventType × φ × α)) :
    ∀ r : Round fdSetSize φ α, Alive rest r →
      ((∃ r', ioPass behaviour rest r = .ok r' ∧ r'.notes.Pairwise Note.Spares) ↔
        CarefulIo behaviour rest r) := by
  induction rest with
  | nil => exact fun r alive => iff_of_true ⟨r, rfl, alive.spares⟩ trivial
  | cons e rest ih =>
    obtain ⟨fd, event, func, args⟩ := e
    intro r alive
    have calledAlive := alive.noting
    rw [ioPass, CarefulIo, Round.invoke, ← show (r.noting (.invoked fd event func args)).loop =
      r.loop
      from rfl, ← Round.run_ok_iff]
    generalize r.noting (.invoked fd event func args) = called at calledAlive
    constructor
    · rintro ⟨r', done, spares⟩
      cases first : called.run (behaviour called.notes) with
      | error fault =>
        rw [first] at done
        cases done
      | ok r₁ =>
        rw [first] at done
        have untouched : ∀ a ∈ behaviour called.notes, ∀ later ∈ rest, ¬ Touches later.1 a := by
          intro a acted later among touches
          -- The event of some descriptor ends here, and its callback is called later.
          obtain ⟨fd', member, ends⟩ := @Round.run_ends _ _ _ _ _ (rest.map (·.1)) _ first
            (fun fd' member => by
              obtain ⟨e, among, rfl⟩ := List.mem_map.mp member
              exact calledAlive.registered e among)
            ⟨a, acted, later.1, List.mem_map_of_mem among, touches⟩
          obtain ⟨e, among, rfl⟩ := List.mem_map.mp member
          obtain ⟨more, notes, invoked, _⟩ := ioPass_notes rest done
          rw [notes] at spares
          have apart := (List.pairwise_append.mp spares).2.2
          rcases ends with deleted | replaced
          · exact (apart _ deleted _ (invoked e among) _ _ _ _ rfl).1 rfl
          · exact (apart _ replaced _ (invoked e among) _ _ _ _ rfl).2 rfl
        refine ⟨untouched, ⟨r₁, rfl⟩, fun r₂ same => ?_⟩
        cases same
        exact (ih r₁ (calledAlive.run first untouched)).mp ⟨r', done, spares⟩
    · rintro ⟨untouched, ⟨r₁, first⟩, careful⟩
      rw [first]
      exact (ih r₁ (calledAlive.run first untouched)).mpr (careful r₁ first)

/-! ## The timers -/

/-- How many addresses are not behind a place, the place included. -/
def passed : Option TimerAddr → Nat
  | none => 0
  | some addr => addr.val + 1

/-- The last address is passed when no turn is left. -/
theorem behind_passed {place : Option TimerAddr} {addr : TimerAddr}
    (behind : OrderedMap.Behind place addr) : passed place ≤ addr.val := by
  cases place with
  | none => exact Nat.zero_le _
  | some k => exact behind k rfl

/-- The pass goes through exactly if the timers are careful. -/
theorem timerPass_ok_iff (currentTime : UInt64) (left : Nat) :
    ∀ (place : Option TimerAddr) (r : Round fdSetSize φ α),
      (∃ r', timerPass behaviour currentTime left place r = .ok r') ↔
        CarefulTimers behaviour currentTime left place r := by
  induction left with
  | zero => exact fun place r => iff_of_true ⟨r, rfl⟩ trivial
  | succ left ih =>
    intro place r
    rw [timerPass, CarefulTimers]
    cases next : r.loop.timerMap.after place with
    | none => exact iff_of_true ⟨r, rfl⟩ trivial
    | some entry =>
      obtain ⟨addr, timer⟩ := entry
      dsimp only
      by_cases due : currentTime ≥ timer.timerTime
      · rw [if_pos due, if_pos due, Round.invoke,
          ← show (r.noting (.fired addr timer.fp timer.funcParam)).loop = r.loop from rfl,
          ← Round.run_ok_iff]
        generalize r.noting (.fired addr timer.fp timer.funcParam) = called
        cases first : called.run (behaviour called.notes) with
        | error fault =>
          refine iff_of_false ?_ ?_
          · rintro ⟨r', wrong⟩
            cases wrong
          · rintro ⟨_, ⟨r', wrong⟩, _⟩
            cases wrong
        | ok r₁ =>
          dsimp only
          by_cases repeats : timer.isRepeat = false
          · -- The timer is erased under the iterator.
            refine iff_of_false ?_ ?_
            · rintro ⟨r', wrong⟩
              rw [if_pos repeats] at wrong
              cases wrong
            · rintro ⟨again, _⟩
              rw [repeats] at again
              cases again
          · rw [if_neg repeats, ih]
            constructor
            · exact fun careful => ⟨by simpa using repeats, ⟨r₁, rfl⟩,
                fun r₂ same => by cases same; exact careful⟩
            · exact fun careful => careful.2.2 r₁ rfl
      · rw [if_neg due, if_neg due]
        exact ih _ _

/-- Every due timer behind a place is fired once, no other timer up to the place is. -/
theorem timerPass_notes (currentTime : UInt64) (left : Nat) :
    ∀ {place : Option TimerAddr} {r r' : Round fdSetSize φ α},
      0x10000000000000000 ≤ left + passed place →
      timerPass behaviour currentTime left place r = .ok r' → ∃ more,
        r'.notes = r.notes ++ more ∧ (∀ note ∈ more, note.Other) ∧
        (∀ addr, ¬ OrderedMap.Behind place addr → more.countP (Note.fires addr) = 0) ∧
        ∀ e ∈ r.loop.timerMap.entries, OrderedMap.Behind place e.1 → currentTime ≥ e.2.timerTime →
          more.countP (Note.fires e.1) = 1 := by
  induction left with
  | zero =>
    intro place r r' enough done
    cases done
    refine ⟨[], (List.append_nil _).symm, fun note member => absurd member List.not_mem_nil,
      fun _ _ => rfl, fun e _ behind => ?_⟩
    have bound := e.1.isLt
    have least := behind_passed behind
    omega
  | succ left ih =>
    intro place r r' enough done
    rw [timerPass] at done
    cases next : r.loop.timerMap.after place with
    | none =>
      rw [next] at done
      cases done
      exact ⟨[], (List.append_nil _).symm, fun note member => absurd member List.not_mem_nil,
        fun _ _ => rfl, fun e member behind =>
          absurd behind (OrderedMap.after_eq_none_iff.mp next e member)⟩
    | some entry =>
      obtain ⟨addr, timer⟩ := entry
      obtain ⟨_, behind, first⟩ := OrderedMap.after_spec next
      have more : passed place ≤ addr.val := behind_passed behind
      have enough' : 0x10000000000000000 ≤ left + passed (some addr) := by
        rw [passed]
        omega
      have further : ∀ a, ¬ OrderedMap.Behind place a →
          ¬ OrderedMap.Behind (some addr) a ∧ a ≠ addr := by
        intro a early
        refine ⟨fun less => early fun k same => lt_trans (behind k same) (less addr rfl), ?_⟩
        rintro rfl
        exact early behind
      rw [next] at done
      dsimp only at done
      by_cases due : currentTime ≥ timer.timerTime
      · rw [if_pos due] at done
        cases called : r.invoke behaviour (.fired addr timer.fp timer.funcParam) with
        | error fault =>
          rw [called] at done
          cases done
        | ok r₁ =>
          rw [called] at done
          dsimp only at done
          split_ifs at done with repeats
          obtain ⟨acted, does⟩ := Round.run_does called
          obtain ⟨later, notes, other, before, after⟩ := ih enough' done
          have count : ∀ a, (Note.fired addr timer.fp timer.funcParam :: (acted ++ later)).countP
              (Note.fires a) = later.countP (Note.fires a) + if addr = a then 1 else 0 := by
            intro a
            rw [List.countP_cons, List.countP_append, does.not_fires, Nat.zero_add]
            simp only [Note.fires, decide_eq_true_eq]
          refine ⟨.fired addr timer.fp timer.funcParam :: (acted ++ later), ?_, ?_,
            fun a early => ?_,
            fun e member behind' due' => ?_⟩
          · rw [notes, does.notes, Round.noting, List.append_assoc, List.append_assoc]
            rfl
          · rintro note member
            rcases List.mem_cons.mp member with rfl | member
            · rintro fd event func args same
              cases same
            · rcases List.mem_append.mp member with now | then_
              · exact does.other note now
              · exact other note then_
          · obtain ⟨early', different⟩ := further a early
            rw [count, before a early', if_neg different.symm]
          · rw [count]
            rcases first e member behind' with rfl | less
            · rw [if_pos rfl, before _ fun less => lt_irrefl _ (less _ rfl)]
            · rw [if_neg (ne_of_lt less), after e ?_ ?_ due']
              · exact OrderedMap.mem_modify (does.timers e member) (ne_of_gt less)
              · rintro k same
                cases same
                exact less
      · rw [if_neg due] at done
        obtain ⟨later, notes, other, before, after⟩ := ih enough' done
        refine ⟨later, notes, other, fun a passed => before a (further a passed).1,
          fun e member behind' due' => ?_⟩
        rcases first e member behind' with rfl | less
        · exact absurd due' due
        · refine after e member (fun k same => ?_) due'
          cases same
          exact less

/-! ## The round -/

/-- The entries of the event map are of different descriptors, which are registered. -/
theorem alive_entries (l : EventLoop fdSetSize φ α) (readSet writeSet : Finset UInt32) :
    Alive (l.entries.filter (isReady readSet writeSet)) ⟨l, []⟩ where
  registered e member := by
    obtain ⟨fd, _, found⟩ := List.mem_filterMap.mp (List.mem_of_mem_filter member)
    obtain ⟨entry, there, rfl⟩ := Option.map_eq_some_iff.mp found
    change (Option.map _ (l.select.eventMap (UInt32.ofNat fd))).isSome
    rw [there]
    rfl
  spares := List.Pairwise.nil
  kept e _ := ⟨List.not_mem_nil, List.not_mem_nil⟩

/-- The descriptors' part goes through without a stale callback exactly if it is careful. -/
theorem descriptorsPart_iff (l : EventLoop fdSetSize φ α) (waited : Waited) :
    (∃ goesOn r, descriptorsPart behaviour l waited = .ok (goesOn, r) ∧
      r.notes.Pairwise Note.Spares) ↔
      (l.entries ≠ [] → ∀ readSet writeSet, waited = .ready readSet writeSet →
        CarefulIo behaviour (l.entries.filter (isReady readSet writeSet)) ⟨l, []⟩) := by
  unfold descriptorsPart
  by_cases none_ : l.entries = []
  · rw [if_pos none_]
    exact iff_of_true ⟨true, ⟨l, []⟩, rfl, List.Pairwise.nil⟩ fun some_ => absurd none_ some_
  · rw [if_neg none_]
    cases waited with
    | failed =>
      exact iff_of_true ⟨false, ⟨l, []⟩, rfl, List.Pairwise.nil⟩ fun _ _ _ same => by cases same
    | timedOut =>
      exact iff_of_true ⟨true, ⟨l, []⟩, rfl, List.Pairwise.nil⟩ fun _ _ _ same => by cases same
    | ready readSet writeSet =>
      have pass := @ioPass_iff _ _ _ behaviour _ _ (alive_entries l readSet writeSet)
      constructor
      · rintro ⟨goesOn, r, done, spares⟩ _ readSet' writeSet' same
        cases same
        refine pass.mp ?_
        cases through : ioPass behaviour (l.entries.filter (isReady readSet writeSet)) ⟨l, []⟩ with
        | error fault =>
          simp only [through] at done
          cases done
        | ok r' =>
          simp only [through] at done
          cases done
          exact ⟨r, rfl, spares⟩
      · intro careful
        obtain ⟨r, through, spares⟩ := pass.mpr (careful none_ readSet writeSet rfl)
        exact ⟨true, r, by simp only [through], spares⟩

/-- No timer is fired before the timers' turn comes. -/
theorem descriptorsPart_not_fires {l : EventLoop fdSetSize φ α} {waited : Waited} {goesOn : Bool}
    {r : Round fdSetSize φ α} (done : descriptorsPart behaviour l waited = .ok (goesOn, r))
    (addr : TimerAddr) : r.notes.countP (Note.fires addr) = 0 := by
  unfold descriptorsPart at done
  by_cases none_ : l.entries = []
  · rw [if_pos none_] at done
    cases done
    rfl
  · rw [if_neg none_] at done
    cases waited with
    | failed =>
      cases done
      rfl
    | timedOut =>
      cases done
      rfl
    | ready readSet writeSet =>
      cases through : ioPass behaviour (l.entries.filter (isReady readSet writeSet)) ⟨l, []⟩ with
      | error fault =>
        simp only [through] at done
        cases done
      | ok r' =>
        simp only [through] at done
        cases done
        obtain ⟨more, notes, _, fired⟩ := ioPass_notes _ through
        rw [notes, List.nil_append, fired]

/--
In a round no callback is stale, every due timer fires once and nothing goes wrong exactly if the
callbacks leave the ready descriptors that are still to come alone, delete only what is registered,
and all timers that are due repeat.
-/
theorem runLoopWithTimeout_sound_iff (behaviour : Behaviour φ α) (l : EventLoop fdSetSize φ α)
    (waited : Waited) (currentTime : UInt64) :
    Sound behaviour l waited currentTime ↔ Careful behaviour l waited currentTime := by
  constructor
  · rintro ⟨goesOn, before, after, first, whole, spares, _⟩
    have through : ∀ r, descriptorsPart behaviour l waited = .ok (true, r) →
        CarefulTimers behaviour currentTime 0x10000000000000000 none r := by
      intro r done
      simp only [runLoopWithTimeout, done] at whole
      exact (timerPass_ok_iff _ _ _ _).mp ⟨after, whole⟩
    refine ⟨(descriptorsPart_iff l waited).mp ⟨goesOn, before, first, ?_⟩, through⟩
    cases goesOn with
    | false =>
      simp only [runLoopWithTimeout, first, Except.ok.injEq] at whole
      rwa [whole]
    | true =>
      simp only [runLoopWithTimeout, first] at whole
      obtain ⟨more, notes, _⟩ := timerPass_notes currentTime _ (by decide) whole
      rw [notes] at spares
      exact (List.pairwise_append.mp spares).1
  · rintro ⟨io, timers⟩
    obtain ⟨goesOn, before, first, spares⟩ := (descriptorsPart_iff l waited).mpr io
    cases goesOn with
    | false =>
      refine ⟨false, before, before, first, by simp only [runLoopWithTimeout, first], spares, ?_⟩
      intro wrong
      cases wrong
    | true =>
      obtain ⟨after, whole⟩ := (timerPass_ok_iff _ _ _ _).mpr (timers before first)
      obtain ⟨more, notes, other, _, fired⟩ := timerPass_notes currentTime _ (by decide) whole
      refine ⟨true, before, after, first, by simp only [runLoopWithTimeout, first, whole], ?_, ?_⟩
      · rw [notes]
        exact pairwise_append_other spares other
      · intro _ e member due
        rw [notes, List.countP_append, descriptorsPart_not_fires first, Nat.zero_add]
        exact fired e member (fun k same => by cases same) due

/-- Two connections that are watched for input, and a timer that is set for once. -/
def twoConnections : EventLoop 8 Unit Unit where
  select := ((IoSelect.new.addIoEventRead 8 3 () ()).2.addIoEventRead 8 4 () ()).2
  timerMap := ⟨[(0, ⟨1000, false, 0, (), ()⟩)], List.pairwise_singleton _ _⟩
  small := by
    have first := @small_call 8 Unit Unit IoSelect.new _ (.addRead 3 () ()) rfl
      fun fd there => by cases there
    exact @small_call 8 Unit Unit _ _ (.addRead 4 () ()) rfl first

/-- The callback of the first connection closes the second. -/
def closesOther : Behaviour Unit Unit := fun notes =>
  if notes.getLast? = some (.invoked 3 .read () ()) then [.io (.del 4)] else []

/--
If both connections are ready, the callback of the second is called after it has been closed; and
when the timer is due, the round goes on from its erased entry.
-/
theorem not_sound_twoConnections : ¬ Sound closesOther twoConnections (.ready {3, 4} ∅) 0 ∧
    ¬ Sound (fun _ => []) twoConnections .timedOut 1000 := by
  constructor
  · rintro ⟨goesOn, before, after, _, done, spares, _⟩
    have notes : (runLoopWithTimeout closesOther twoConnections (.ready {3, 4} ∅) 0).map (·.notes) =
        .ok [.invoked 3 .read () (), .deleted 4, .invoked 4 .read () ()] := by rfl
    rw [done] at notes
    have spares : List.Pairwise Note.Spares [.invoked 3 .read () (), .deleted 4,
        .invoked 4 .read () ()] :=
      Except.ok.inj notes ▸ spares
    have stale := (List.pairwise_cons.mp (List.pairwise_cons.mp spares).2).1
      (.invoked 4 .read () ())
      (List.mem_singleton_self _)
    exact (stale 4 .read () () rfl).1 rfl
  · rintro ⟨goesOn, before, after, _, done, _⟩
    have fault : runLoopWithTimeout (fun _ => []) twoConnections .timedOut 1000 =
        .error .erasedEntry := by rfl
    rw [fault] at done
    cases done

end EventLoop

end OneProxy
