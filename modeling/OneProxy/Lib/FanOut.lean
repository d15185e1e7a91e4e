import Mathlib
import OneProxy.Lib.Runs

/-!
A sequence of items dealt to first-in first-out workers, whose results are entered into logs.

Every item carries its place in the sequence, so that a log shows in which order it was filled.
-/

namespace FanOut

open Runs

/-- How items are dealt, which of them are taken in at all, and what a worker makes of one. -/
structure Plan (ι κ α β : Type*) where
  /-- The worker that the item at a place goes to; without one the sequence ends there. -/
  deal : Nat → Option ι
  admits : α → Bool
  /-- A result for one of the logs, or none; a worker that comes to no end stays with its item. -/
  result : α → Option (Option (κ × β))

/-- The items received so far, those waiting for each worker and in its hand, and the logs. -/
structure State (ι κ α β : Type*) where
  received : List α
  queue : ι → List (Nat × α)
  hand : ι → Option (Nat × α)
  log : κ → List (Nat × β)

/-- What can happen next. -/
inductive Label (ι α : Type*)
  | receive (item : α)
  | take (worker : ι)
  | finish (worker : ι)

variable {ι κ α β : Type*}

namespace State

/-- Nothing has been received. -/
def empty : State ι κ α β := ⟨[], fun _ => [], fun _ => none, fun _ => []⟩

/-- Everything a worker still has to do, in order. -/
def pending (s : State ι κ α β) (worker : ι) : List (Nat × α) :=
  (s.hand worker).toList ++ s.queue worker

variable [DecidableEq ι] [DecidableEq κ]

/-- Appends an item to the queue of a worker. -/
def enqueue (s : State ι κ α β) (worker : ι) (item : Nat × α) : State ι κ α β :=
  { s with queue := Function.update s.queue worker (s.queue worker ++ [item]) }

/-- Appends a result, if there is one, to its log. -/
def enter (s : State ι κ α β) (place : Nat) (result : Option (κ × β)) : State ι κ α β :=
  match result with
  | none => s
  | some (log, value) =>
    { s with log := Function.update s.log log (s.log log ++ [(place, value)]) }

end State

variable [DecidableEq ι] [DecidableEq κ]

/-- The next state, if the label is possible. -/
def next (plan : Plan ι κ α β) (s : State ι κ α β) : Label ι α → Option (State ι κ α β)
  | .receive item =>
    (plan.deal s.received.length).map fun worker =>
      let t := { s with received := s.received ++ [item] }
      if plan.admits item then t.enqueue worker (s.received.length, item) else t
  | .take worker =>
    match s.hand worker, s.queue worker with
    | none, item :: rest =>
      some { s with
        hand := Function.update s.hand worker (some item)
        queue := Function.update s.queue worker rest }
    | _, _ => none
  | .finish worker =>
    match s.hand worker with
    | none => none
    | some (place, item) =>
      (plan.result item).map fun result =>
        State.enter { s with hand := Function.update s.hand worker none } place result

theorem next_receive {plan : Plan ι κ α β} {s : State ι κ α β} (item : α) {worker : ι}
    (dealt : plan.deal s.received.length = some worker) :
    next plan s (.receive item) = some
      (if plan.admits item then
        State.enqueue { s with received := s.received ++ [item] } worker (s.received.length, item)
      else { s with received := s.received ++ [item] }) := by
  simp [next, dealt]

theorem next_take {plan : Plan ι κ α β} {s : State ι κ α β} {worker : ι} {item : Nat × α}
    {rest : List (Nat × α)} (idle : s.hand worker = none) (queue : s.queue worker = item :: rest) :
    next plan s (.take worker) = some { s with
      hand := Function.update s.hand worker (some item)
      queue := Function.update s.queue worker rest } := by
  simp [next, idle, queue]

theorem next_finish {plan : Plan ι κ α β} {s : State ι κ α β} {worker : ι} {place : Nat} {item : α}
    {result : Option (κ × β)} (held : s.hand worker = some (place, item))
    (computed : plan.result item = some result) :
    next plan s (.finish worker) = some
      (State.enter { s with hand := Function.update s.hand worker none } place result) := by
  simp [next, held, computed]

/-- The runs from the empty state. -/
def runs (plan : Plan ι κ α β) : System (State ι κ α β) (Label ι α) :=
  .ofStep (· = State.empty) (next plan)

/-- One more step of a run. -/
theorem reachable_next {plan : Plan ι κ α β} {s t : State ι κ α β} (l : Label ι α)
    (reached : Reachable (runs plan) s) (step : next plan s l = some t) : Reachable (runs plan) t :=
  reached.next step

/-- What one worker adds to a log when it does some items in order. -/
def entries (plan : Plan ι κ α β) (log : κ) (items : List (Nat × α)) : List (Nat × β) :=
  items.filterMap fun item =>
    match plan.result item.2 with
    | some (some (other, value)) => if other = log then some (item.1, value) else none
    | _ => none

/-- What a step does to the received items, to the pending ones and to the logs. -/
inductive Move (plan : Plan ι κ α β) (s t : State ι κ α β) : Prop
  | received (item : α) (worker : ι) (dealt : plan.deal s.received.length = some worker)
      (received : t.received = s.received ++ [item])
      (own : t.pending worker =
        if plan.admits item then s.pending worker ++ [(s.received.length, item)]
        else s.pending worker)
      (others : ∀ other, other ≠ worker → t.pending other = s.pending other)
      (log : t.log = s.log)
  | taken (received : t.received = s.received) (pending : t.pending = s.pending)
      (log : t.log = s.log)
  | finished (place : Nat) (item : α) (worker : ι) (result : Option (κ × β))
      (done : plan.result item = some result) (received : t.received = s.received)
      (own : s.pending worker = (place, item) :: t.pending worker)
      (others : ∀ other, other ≠ worker → t.pending other = s.pending other)
      (log : ∀ log, t.log log = s.log log ++ entries plan log [(place, item)])

/-- Every step is one of the three moves. -/
theorem next_cases {plan : Plan ι κ α β} {s t : State ι κ α β} {l : Label ι α}
    (done : next plan s l = some t) : Move plan s t := by
  cases l with
  | receive item =>
    obtain ⟨worker, dealt, same⟩ := Option.map_eq_some_iff.mp done
    by_cases admitted : plan.admits item = true
    · rw [if_pos admitted] at same
      subst same
      refine .received item worker dealt rfl ?_ ?_ rfl
      · simp [State.pending, State.enqueue, admitted]
      · intro other different
        simp [State.pending, State.enqueue, different]
    · rw [if_neg admitted] at same
      subst same
      refine .received item worker dealt rfl ?_ ?_ rfl
      · rw [if_neg admitted]
        rfl
      · intro _ _
        rfl
  | take worker =>
    simp only [next] at done
    split at done
    · rename_i item rest idle waiting
      simp only [Option.some.injEq] at done
      subst done
      refine .taken rfl ?_ rfl
      funext other
      by_cases same : other = worker
      · subst same
        simp [State.pending, idle, waiting]
      · simp [State.pending, same]
    · simp at done
  | finish worker =>
    simp only [next] at done
    split at done
    · simp at done
    · rename_i place item held
      obtain ⟨result, computed, same⟩ := Option.map_eq_some_iff.mp done
      subst same
      refine .finished place item worker result computed ?_ ?_ ?_ ?_
      · cases result <;> rfl
      · cases result <;> simp [State.pending, State.enter, held]
      · intro other different
        cases result <;> simp [State.pending, State.enter, different]
      · intro log
        cases result with
        | none => simp [State.enter, entries, computed]
        | some entry =>
          obtain ⟨own, value⟩ := entry
          by_cases same : log = own
          · subst same
            simp [State.enter, entries, computed]
          · simp [State.enter, entries, computed, same, Ne.symm same]

/-- The items keep their places on every way through the system, and workers keep them in order. -/
structure Inv (plan : Plan ι κ α β) (s : State ι κ α β) : Prop where
  dealt : ∀ place < s.received.length, (plan.deal place).isSome
  waiting : ∀ worker, ∀ item ∈ s.pending worker, s.received[item.1]? = some item.2 ∧
    plan.deal item.1 = some worker ∧ plan.admits item.2
  sorted : ∀ worker, (s.pending worker).Pairwise fun first second => first.1 < second.1
  /-- An item that is no longer pending has come to an end. -/
  ended : ∀ place item worker, s.received[place]? = some item → plan.deal place = some worker →
    plan.admits item → (place, item) ∈ s.pending worker ∨ (plan.result item).isSome
  logged : ∀ log, ∀ entry ∈ s.log log, ∃ item, s.received[entry.1]? = some item ∧
    plan.admits item ∧ plan.result item = some (some (log, entry.2))
  /-- Entries of a worker come before what it still has to do. -/
  ahead : ∀ log, ∀ entry ∈ s.log log, ∀ worker, plan.deal entry.1 = some worker →
    ∀ item ∈ s.pending worker, entry.1 < item.1
  lanes : ∀ log, (s.log log).Pairwise fun first second =>
    plan.deal first.1 = plan.deal second.1 → first.1 < second.1

omit [DecidableEq ι] [DecidableEq κ] in
/-- The empty state has nothing out of place. -/
theorem inv_empty (plan : Plan ι κ α β) : Inv plan State.empty := by
  constructor <;> simp [State.empty, State.pending]

omit [DecidableEq ι] in
/-- The entry of an item, if it has one. -/
theorem mem_entries_singleton {plan : Plan ι κ α β} {log : κ} {place : Nat} {item : α}
    {entry : Nat × β} :
    entry ∈ entries plan log [(place, item)] ↔
      entry.1 = place ∧ plan.result item = some (some (log, entry.2)) := by
  obtain ⟨number, value⟩ := entry
  cases result : plan.result item with
  | none => simp [entries, result]
  | some outcome =>
    cases outcome with
    | none => simp [entries, result]
    | some pair =>
      obtain ⟨other, found⟩ := pair
      simp only [entries, List.filterMap_cons, result, List.filterMap_nil, Option.some.injEq,
        Prod.mk.injEq]
      by_cases same : other = log
      · simp [same, eq_comm]
      · simp [same]

omit [DecidableEq κ] in
/-- Receiving an item keeps every place. -/
theorem Inv.receive {plan : Plan ι κ α β} {s t : State ι κ α β} (inv : Inv plan s) {item : α}
    {worker : ι} (dealt : plan.deal s.received.length = some worker)
    (received : t.received = s.received ++ [item])
    (own : t.pending worker =
      if plan.admits item then s.pending worker ++ [(s.received.length, item)]
      else s.pending worker)
    (others : ∀ other, other ≠ worker → t.pending other = s.pending other)
    (log : t.log = s.log) : Inv plan t := by
  have kept : ∀ (place : Nat) (old : α), s.received[place]? = some old →
      t.received[place]? = some old := by
    intro place old found
    obtain ⟨inside, _⟩ := List.getElem?_eq_some_iff.mp found
    rw [received, List.getElem?_append_left inside, found]
  -- What is pending was pending before, or is the new item at the end of its worker's queue.
  have pendingCases : ∀ other x, x ∈ t.pending other →
      x ∈ s.pending other ∨
          (other = worker ∧ x = (s.received.length, item) ∧ plan.admits item) := by
    intro other x member
    by_cases same : other = worker
    · subst same
      rw [own] at member
      split at member
      · rename_i admitted
        rcases List.mem_append.mp member with old | new
        · exact Or.inl old
        · exact Or.inr ⟨rfl, List.mem_singleton.mp new, admitted⟩
      · exact Or.inl member
    · exact Or.inl (others other same ▸ member)
  have pendingKept : ∀ other x, x ∈ s.pending other → x ∈ t.pending other := by
    intro other x member
    by_cases same : other = worker
    · subst same
      rw [own]
      split
      · exact List.mem_append_left _ member
      · exact member
    · exact (others other same).symm ▸ member
  have earlier : ∀ other x, x ∈ s.pending other → x.1 < s.received.length := by
    intro other x member
    obtain ⟨inside, _⟩ := List.getElem?_eq_some_iff.mp (inv.waiting other x member).1
    exact inside
  constructor
  · intro place inside
    rw [received, List.length_append, List.length_singleton] at inside
    by_cases last : place = s.received.length
    · simp [last, dealt]
    · exact inv.dealt place (by omega)
  · intro other x member
    rcases pendingCases other x member with old | ⟨same, new, admitted⟩
    · obtain ⟨found, rest⟩ := inv.waiting other x old
      exact ⟨kept _ _ found, rest⟩
    · subst same new
      exact ⟨by simp [received], dealt, admitted⟩
  · intro other
    by_cases same : other = worker
    · subst same
      rw [own]
      split
      · rw [List.pairwise_append]
        refine ⟨inv.sorted _, List.pairwise_singleton _ _, ?_⟩
        intro x member y new
        rw [List.mem_singleton.mp new]
        exact earlier _ x member
      · exact inv.sorted _
    · rw [others other same]
      exact inv.sorted other
  · intro place old other found same admitted
    by_cases last : place = s.received.length
    · subst last
      have new : old = item := by simpa [received] using found.symm
      have own' : other = worker := Option.some.inj (same.symm.trans dealt)
      subst new own'
      refine Or.inl ?_
      rw [own, if_pos admitted]
      simp
    · have inside : place < s.received.length := by
        obtain ⟨inside, _⟩ := List.getElem?_eq_some_iff.mp found
        rw [received, List.length_append, List.length_singleton] at inside
        omega
      have before : s.received[place]? = some old := by
        rwa [received, List.getElem?_append_left inside] at found
      exact (inv.ended place old other before same admitted).imp (pendingKept other _) id
  · intro log' entry member
    rw [log] at member
    obtain ⟨old, found, rest⟩ := inv.logged log' entry member
    exact ⟨old, kept _ _ found, rest⟩
  · intro log' entry member other same x pending
    rw [log] at member
    rcases pendingCases other x pending with old | ⟨_, new, _⟩
    · exact inv.ahead log' entry member other same x old
    · obtain ⟨old, found, _⟩ := inv.logged log' entry member
      obtain ⟨inside, _⟩ := List.getElem?_eq_some_iff.mp found
      rw [new]
      exact inside
  · intro log'
    rw [log]
    exact inv.lanes log'

/-- Finishing the item in a worker's hand keeps every place. -/
theorem Inv.finish {plan : Plan ι κ α β} {s t : State ι κ α β} (inv : Inv plan s) {place : Nat}
    {item : α} {worker : ι} {result : Option (κ × β)} (done : plan.result item = some result)
    (received : t.received = s.received)
    (own : s.pending worker = (place, item) :: t.pending worker)
    (others : ∀ other, other ≠ worker → t.pending other = s.pending other)
    (log : ∀ log, t.log log = s.log log ++ entries plan log [(place, item)]) : Inv plan t := by
  have first : (place, item) ∈ s.pending worker := own ▸ List.mem_cons_self ..
  obtain ⟨found, dealt, admitted⟩ := inv.waiting worker _ first
  have pendingBefore : ∀ other x, x ∈ t.pending other → x ∈ s.pending other := by
    intro other x member
    by_cases same : other = worker
    · subst same
      rw [own]
      exact List.mem_cons_of_mem _ member
    · exact others other same ▸ member
  -- The finished item was the first of its worker, so it comes before all that is left.
  have later : ∀ x ∈ t.pending worker, place < x.1 := by
    have sorted := inv.sorted worker
    rw [own, List.pairwise_cons] at sorted
    exact sorted.1
  constructor
  · rw [received]
    exact inv.dealt
  · intro other x member
    rw [received]
    exact inv.waiting other x (pendingBefore other x member)
  · intro other
    by_cases same : other = worker
    · subst same
      have sorted := inv.sorted other
      rw [own, List.pairwise_cons] at sorted
      exact sorted.2
    · rw [others other same]
      exact inv.sorted other
  · intro place' old other found' same admitted'
    rw [received] at found'
    rcases inv.ended place' old other found' same admitted' with pending | ended
    · by_cases sameWorker : other = worker
      · subst sameWorker
        rw [own] at pending
        rcases List.mem_cons.mp pending with here | there
        · have equal : old = item := (Prod.mk.injEq .. ▸ here).2
          exact Or.inr (by simp [equal, done])
        · exact Or.inl there
      · exact Or.inl ((others other sameWorker).symm ▸ pending)
    · exact Or.inr ended
  · intro log' entry member
    rw [received]
    rw [log] at member
    rcases List.mem_append.mp member with old | new
    · exact inv.logged log' entry old
    · obtain ⟨number, outcome⟩ := mem_entries_singleton.mp new
      exact ⟨item, number ▸ found, admitted, outcome⟩
  · intro log' entry member other same x pending
    rw [log] at member
    rcases List.mem_append.mp member with old | new
    · exact inv.ahead log' entry old other same x (pendingBefore other x pending)
    · obtain ⟨number, _⟩ := mem_entries_singleton.mp new
      rw [number] at same ⊢
      have sameWorker : other = worker := Option.some.inj (same.symm.trans dealt)
      subst sameWorker
      exact later x pending
  · intro log'
    rw [log, List.pairwise_append]
    refine ⟨inv.lanes log', ?_, ?_⟩
    · -- One item makes at most one entry.
      apply List.Pairwise.filterMap _ _ (List.pairwise_singleton (fun _ _ => False) (place, item))
      intro _ _ impossible
      exact impossible.elim
    · intro entry member new isNew same
      obtain ⟨number, _⟩ := mem_entries_singleton.mp isNew
      rw [number] at same ⊢
      exact inv.ahead log' entry member worker (same.trans dealt) _ first

/-- Everything stays in its place in every run. -/
theorem inv_of_reachable {plan : Plan ι κ α β} {s : State ι κ α β}
    (reached : Reachable (runs plan) s) : Inv plan s := by
  apply reached.invariant
  · intro start begun
    exact begun ▸ inv_empty plan
  · intro before l after inv step
    cases next_cases step with
    | received item worker dealt received own others log =>
      exact inv.receive dealt received own others log
    | taken received pending log =>
      obtain ⟨dealt, waiting, sorted, ended, logged, ahead, lanes⟩ := inv
      constructor <;> simp only [received, pending, log] <;> assumption
    | finished place item worker result done received own others log =>
      exact inv.finish done received own others log

/-- Of any two entries that belong together, the one received first was entered first. -/
def InOrder (together : β → β → Prop) (s : State ι κ α β) : Prop :=
  ∀ log, (s.log log).Pairwise fun first second =>
    together first.2 second.2 → first.1 < second.1

/-- An item that can come to be entered: nothing before it stops the sequence or its worker. -/
structure Enters (plan : Plan ι κ α β) (items : List α) (place : Nat) (log : κ) (value : β) :
    Prop where
  result : ∃ item, items[place]? = some item ∧ plan.admits item ∧
    plan.result item = some (some (log, value))
  dealt : ∀ earlier ≤ place, (plan.deal earlier).isSome
  passed : ∀ earlier ≤ place, plan.deal earlier = plan.deal place →
    ∀ item, items[earlier]? = some item → plan.admits item → (plan.result item).isSome

/-- Items that belong together in a log are all dealt to one worker. -/
def OneLane (plan : Plan ι κ α β) (together : β → β → Prop) (items : List α) : Prop :=
  ∀ first second log value value', first < second → Enters plan items first log value →
    Enters plan items second log value' → together value value' →
    plan.deal first = plan.deal second

omit [DecidableEq ι] [DecidableEq κ] in
/-- What is in a log was able to come there. -/
theorem Inv.enters {plan : Plan ι κ α β} {s : State ι κ α β} (inv : Inv plan s) {items : List α}
    (received : s.received <+: items) {log : κ} {entry : Nat × β} (member : entry ∈ s.log log) :
    Enters plan items entry.1 log entry.2 := by
  obtain ⟨item, found, admitted, result⟩ := inv.logged log entry member
  obtain ⟨rest, whole⟩ := received
  obtain ⟨inside, _⟩ := List.getElem?_eq_some_iff.mp found
  have same : ∀ place, place < s.received.length → items[place]? = s.received[place]? := by
    intro place inside
    rw [← whole, List.getElem?_append_left inside]
  constructor
  · exact ⟨item, (same _ inside).trans found, admitted, result⟩
  · intro earlier before
    exact inv.dealt earlier (by omega)
  · intro earlier before lane old there admitted'
    obtain ⟨worker, dealt⟩ := Option.isSome_iff_exists.mp (inv.dealt earlier (by omega))
    rw [same earlier (by omega)] at there
    rcases inv.ended earlier old worker there dealt admitted' with pending | ended
    · -- A pending item of the same worker would come after the entry.
      have := inv.ahead log entry member worker (lane.symm.trans dealt) _ pending
      simp only at this
      omega
    · exact ended

omit [DecidableEq ι] [DecidableEq κ] in
/-- One worker for what belongs together keeps it in order, whatever the schedule was. -/
theorem Inv.inOrder {plan : Plan ι κ α β} {s : State ι κ α β} (inv : Inv plan s)
    {together : β → β → Prop} (symm : ∀ x y, together x y → together y x) {items : List α}
    (received : s.received <+: items) (lane : OneLane plan together items) :
    InOrder together s := by
  intro log
  apply (inv.lanes log).imp_of_mem
  intro first second memberFirst memberSecond inLane joined
  have entersFirst := inv.enters received memberFirst
  have entersSecond := inv.enters received memberSecond
  rcases Nat.lt_trichotomy first.1 second.1 with less | same | greater
  · exact less
  · exact inLane (congrArg plan.deal same)
  · have swapped := lane _ _ log _ _ greater entersSecond entersFirst (symm _ _ joined)
    exact inLane swapped.symm

/-- Any items that are all dealt can be received before anything else happens. -/
theorem exists_received (plan : Plan ι κ α β) (items : List α)
    (dealt : ∀ place < items.length, (plan.deal place).isSome) :
    ∃ s, Reachable (runs plan) s ∧ s.received = items ∧ (∀ worker, s.hand worker = none) ∧
      (∀ log, s.log log = []) ∧ ∀ place item worker, items[place]? = some item →
        plan.deal place = some worker → plan.admits item → (place, item) ∈ s.queue worker := by
  -- The items are received in turn, with the last one at the end of its worker's queue.
  induction items using List.reverseRecOn with
  | nil => exact ⟨State.empty, Reachable.start rfl, rfl, fun _ => rfl, fun _ => rfl, by simp⟩
  | append_singleton items item ih =>
    obtain ⟨s, reached, received, idle, noLog, waiting⟩ := ih fun place inside =>
      dealt place (by rw [List.length_append]; omega)
    obtain ⟨worker, here⟩ := Option.isSome_iff_exists.mp (dealt items.length (by simp))
    have here' : plan.deal s.received.length = some worker := received ▸ here
    refine ⟨_, reachable_next (.receive item) reached (next_receive item here'), ?_⟩
    by_cases admitted : plan.admits item = true
    · rw [if_pos admitted]
      refine ⟨by simp [State.enqueue, received], idle, noLog, ?_⟩
      intro place old other found same admits'
      by_cases last : place = items.length
      · subst last
        have new : item = old := by simpa using found
        have own : worker = other := Option.some.inj (here.symm.trans same)
        subst new own
        simp [State.enqueue, received]
      · have inside : place < items.length := by
          obtain ⟨inside, _⟩ := List.getElem?_eq_some_iff.mp found
          rw [List.length_append, List.length_singleton] at inside
          omega
        rw [List.getElem?_append_left inside] at found
        have old' := waiting place old other found same admits'
        by_cases own : other = worker
        · subst own
          simp [State.enqueue, old']
        · simpa [State.enqueue, own] using old'
    · rw [if_neg admitted]
      refine ⟨by simp [received], idle, noLog, ?_⟩
      intro place old other found same admits'
      by_cases last : place = items.length
      · subst last
        have new : item = old := by simpa using found
        exact absurd (new ▸ admits') admitted
      · have inside : place < items.length := by
          obtain ⟨inside, _⟩ := List.getElem?_eq_some_iff.mp found
          rw [List.length_append, List.length_singleton] at inside
          omega
        rw [List.getElem?_append_left inside] at found
        exact waiting place old other found same admits'

/-- An idle worker can do the first items of its queue, and nothing else need happen meanwhile. -/
theorem exists_drained {plan : Plan ι κ α β} (worker : ι) (first rest : List (Nat × α)) :
    ∀ {s : State ι κ α β}, Reachable (runs plan) s →
      s.hand worker = none → s.queue worker = first ++ rest →
      (∀ item ∈ first, (plan.result item.2).isSome) →
      ∃ t, Reachable (runs plan) t ∧ t.received = s.received ∧ t.hand = s.hand ∧
        (∀ other, other ≠ worker → t.queue other = s.queue other) ∧
        ∀ log, t.log log = s.log log ++ entries plan log first := by
  -- Each item is taken into the hand, and its result is entered.
  induction first with
  | nil =>
    intro s reached idle queue ends
    exact ⟨s, reached, rfl, rfl, fun _ _ => rfl, by simp [entries]⟩
  | cons item first ih =>
    intro s reached idle queue ends
    obtain ⟨result, computed⟩ := Option.isSome_iff_exists.mp (ends item (by simp))
    obtain ⟨place, value⟩ := item
    have taken := reachable_next (.take worker) reached (next_take idle queue)
    have finished := reachable_next (.finish worker) taken
      (next_finish (Function.update_self worker _ _) computed)
    -- The hand is empty again.
    have handBack : Function.update (Function.update s.hand worker (some (place, value)))
      worker none =
        s.hand := by
      rw [Function.update_idem, ← idle, Function.update_eq_self]
    obtain ⟨t, reached', received, hand, others, log⟩ := ih finished
      (by cases result <;> simp [State.enter]) (by cases result <;> simp [State.enter])
      (fun x member => ends x (by simp [member]))
    refine ⟨t, reached', ?_, ?_, ?_, ?_⟩
    · rw [received]
      cases result <;> rfl
    · rw [hand]
      cases result <;> simpa [State.enter] using handBack
    · intro other different
      rw [others other different]
      cases result <;> simp [State.enter, different]
    · intro log'
      rw [log]
      cases result with
      | none => simp [State.enter, entries, computed]
      | some entry =>
        obtain ⟨own, found⟩ := entry
        by_cases same : log' = own
        · subst same
          simp [State.enter, entries, computed]
        · simp [State.enter, entries, computed, same, Ne.symm same]

omit [DecidableEq ι] in
/-- What a list of items adds to a log contains the entry of each of them. -/
theorem mem_entries {plan : Plan ι κ α β} {log : κ} {items : List (Nat × α)}
    {place : Nat} {item : α}
    {value : β} (member : (place, item) ∈ items)
    (result : plan.result item = some (some (log, value))) :
    (place, value) ∈ entries plan log items := by
  apply List.mem_filterMap.mpr
  exact ⟨(place, item), member, by simp [result]⟩

/-- Two items of different workers that belong together can be entered in the wrong order. -/
theorem exists_disorder {plan : Plan ι κ α β} {together : β → β → Prop} {items : List α}
    {first second : Nat} {log : κ} {value value' : β} (less : first < second)
    (entersFirst : Enters plan items first log value)
    (entersSecond : Enters plan items second log value') (joined : together value' value)
    (apart : plan.deal first ≠ plan.deal second) :
    ∃ s, Reachable (runs plan) s ∧ s.received <+: items ∧ ¬ InOrder together s := by
  obtain ⟨item, found, admitted, result⟩ := entersFirst.result
  obtain ⟨item', found', admitted', result'⟩ := entersSecond.result
  obtain ⟨inside, _⟩ := List.getElem?_eq_some_iff.mp found'
  -- Everything up to the second item is received first.
  have size : (items.take (second + 1)).length = second + 1 := by
    rw [List.length_take]
    omega
  have part : ∀ place ≤ second, (items.take (second + 1))[place]? = items[place]? := by
    intro place bounded
    rw [List.getElem?_take, if_pos (by omega)]
  obtain ⟨s, reached, received, idle, noLog, waiting⟩ := exists_received plan
    (items.take (second + 1)) fun place bounded => entersSecond.dealt place (by omega)
  obtain ⟨worker, dealt⟩ := Option.isSome_iff_exists.mp (entersFirst.dealt first (Nat.le_refl _))
  obtain ⟨worker', dealt'⟩ :=
    Option.isSome_iff_exists.mp (entersSecond.dealt second (Nat.le_refl _))
  have different : worker ≠ worker' := by
    intro same
    exact apart (by rw [dealt, dealt', same])
  -- A worker can come to an entering item, since nothing before it in the queue stops the worker.
  have clear : ∀ place worker value, place ≤ second → Enters plan items place log value →
      plan.deal place = some worker → ∀ x, x ∈ s.queue worker → x.1 ≤ place →
      (plan.result x.2).isSome := by
    intro place worker value bounded enters dealt x member before
    have pending : x ∈ s.pending worker := List.mem_append_right _ member
    obtain ⟨there, lane, admits⟩ := (inv_of_reachable reached).waiting worker x pending
    rw [received, part _ (by omega)] at there
    exact enters.passed x.1 before (lane.trans dealt.symm) x.2 there admits
  have upTo : ∀ worker front x back, s.queue worker = front ++ x :: back →
      ∀ y ∈ front ++ [x], y.1 ≤ x.1 := by
    intro worker front x back queue y member
    have sorted := (inv_of_reachable reached).sorted worker
    rw [State.pending, idle, Option.toList_none, List.nil_append, queue,
      List.pairwise_append] at sorted
    rcases List.mem_append.mp member with earlier | here
    · exact Nat.le_of_lt (sorted.2.2 y earlier x (List.mem_cons_self ..))
    · rw [List.mem_singleton.mp here]
  obtain ⟨front', back', queue'⟩ := List.append_of_mem
    (waiting second item' worker' ((part _ (Nat.le_refl _)).trans found') dealt' admitted')
  obtain ⟨front, back, queue⟩ := List.append_of_mem
    (waiting first item worker ((part _ (by omega)).trans found) dealt admitted)
  -- The worker of the second item is done with it before the other one starts.
  obtain ⟨t, reached₁, received₁, hand₁, others₁, log₁⟩ := exists_drained worker'
    (front' ++ [(second, item')]) back' reached (idle worker') (by simp [queue']) (by
      intro x member
      apply clear second worker' value' (Nat.le_refl _) entersSecond dealt' x
      · rw [queue']
        rcases List.mem_append.mp member with earlier | here
        · exact List.mem_append_left _ earlier
        · rw [List.mem_singleton.mp here]
          simp
      · exact upTo worker' front' _ back' queue' x member)
  obtain ⟨u, reached₂, received₂, _, _, log₂⟩ := exists_drained worker
    (front ++ [(first, item)]) back reached₁ (by rw [hand₁, idle])
        (by rw [others₁ worker different, queue]; simp) (by
      intro x member
      apply clear first worker value (by omega) entersFirst dealt x
      · rw [queue]
        rcases List.mem_append.mp member with earlier | here
        · exact List.mem_append_left _ earlier
        · rw [List.mem_singleton.mp here]
          simp
      · exact upTo worker front _ back queue x member)
  refine ⟨u, reached₂, ?_, ?_⟩
  · rw [received₂, received₁, received]
    exact List.take_prefix _ _
  · intro order
    have early : (second, value') ∈ entries plan log (front' ++ [(second, item')]) :=
      mem_entries (by simp) result'
    have late : (first, value) ∈ entries plan log (front ++ [(first, item)]) :=
      mem_entries (by simp) result
    have sorted := order log
    rw [log₂, log₁, noLog, List.nil_append, List.pairwise_append] at sorted
    have wrong := sorted.2.2 _ early _ late joined
    simp only at wrong
    omega

/--
The logs are in order in every run over a sequence exactly when what belongs together has one
worker.

This holds for every number of workers and every schedule of their steps.
-/
theorem inOrder_iff_oneLane (plan : Plan ι κ α β) {together : β → β → Prop}
    (symm : ∀ x y, together x y → together y x) (items : List α) :
    (∀ s, Reachable (runs plan) s → s.received <+: items → InOrder together s) ↔
      OneLane plan together items := by
  constructor
  · intro ordered first second log value value' less entersFirst entersSecond joined
    by_contra apart
    obtain ⟨s, reached, received, disorder⟩ :=
      exists_disorder less entersFirst entersSecond (symm _ _ joined) apart
    exact disorder (ordered s reached received)
  · intro lane s reached received
    exact (inv_of_reachable reached).inOrder symm received lane

end FanOut
