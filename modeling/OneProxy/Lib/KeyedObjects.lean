import Mathlib.Data.List.Induction
import Mathlib.Tactic.ByContra
import OneProxy.Lib.Separator

/-! A table that gives each key an object, from the first use of the key until the key is closed. -/

namespace KeyedObjects

/-- What can be asked of the table; a last use closes its key afterwards. -/
inductive Event (κ : Type*)
  | skip
  | close (key : κ)
  | use (key : κ) (last : Bool)

/-- The object of each open key, and the number of objects made so far. -/
structure Table (κ : Type*) where
  entry : κ → Option Nat
  made : Nat

variable {κ : Type*}

namespace Event

/-- Whether an event closes a key. -/
def Closes (e : Event κ) (key : κ) : Prop :=
  match e with
  | skip => False
  | close other => other = key
  | use other last => other = key ∧ last = true

/-- Whether an event leaves a key open that it uses. -/
def Opens (e : Event κ) (key : κ) : Prop :=
  match e with
  | use other last => other = key ∧ last = false
  | _ => False

end Event

/-- A key is open after some events when one of them opened it and no later one closed it. -/
def OpenAfter (events : List (Event κ)) (key : κ) : Prop :=
  ∃ before e after, events = before ++ e :: after ∧ e.Opens key ∧
    ∀ later ∈ after, ¬ later.Closes key

namespace Table

variable [DecidableEq κ]

/-- Assigns or erases the object of a key. -/
def set (t : Table κ) (key : κ) (object : Option Nat) : Table κ :=
  { t with entry := fun other => if other = key then object else t.entry other }

/-- The object that a use of a key gets. -/
def object (t : Table κ) (key : κ) : Nat := (t.entry key).getD t.made

/-- The table after an event. -/
def step (t : Table κ) : Event κ → Table κ
  | .skip => t
  | .close key => t.set key none
  | .use key last =>
    let made := if t.entry key = none then t.made + 1 else t.made
    { t.set key (if last then none else some (t.object key)) with made := made }

/-- The table after a list of events. -/
def run (t : Table κ) (events : List (Event κ)) : Table κ := events.foldl step t

@[simp] theorem run_nil (t : Table κ) : t.run [] = t := rfl

@[simp] theorem run_cons (t : Table κ) (e : Event κ) (events : List (Event κ)) :
    t.run (e :: events) = (t.step e).run events := rfl

@[simp] theorem run_append (t : Table κ) (front back : List (Event κ)) :
    t.run (front ++ back) = (t.run front).run back := by simp [run]

/-- Objects are numbered in the order they are made, and no two keys have the same one. -/
structure WF (t : Table κ) : Prop where
  bound : ∀ key object, t.entry key = some object → object < t.made
  single : ∀ key other object, t.entry key = some object → t.entry other = some object → key = other

/-- An object made before that no other key than the given one has. -/
def Confined (t : Table κ) (object : Nat) (key : κ) : Prop :=
  object < t.made ∧ ∀ other, t.entry other = some object → other = key

/-- An object made before that no key has any longer. -/
def Gone (t : Table κ) (object : Nat) : Prop :=
  object < t.made ∧ ∀ key, t.entry key ≠ some object

/-- The number of objects made never goes down. -/
theorem made_le_step (t : Table κ) (e : Event κ) : t.made ≤ (t.step e).made := by
  cases e with
  | skip => exact Nat.le_refl _
  | close key => exact Nat.le_refl _
  | use key last =>
    simp only [step]
    split <;> omega

/-- After a use a key has the object the use got, unless the use was the last. -/
theorem entry_use (t : Table κ) (key : κ) (last : Bool) :
    (t.step (.use key last)).entry key = if last then none else some (t.object key) := by
  simp [step, set]

/-- What an object is after an event: what the key had, or the new number. -/
theorem entry_step {t : Table κ} {e : Event κ} {key : κ} {object : Nat}
    (found : (t.step e).entry key = some object) :
    t.entry key = some object ∨
      (object = t.made ∧ t.entry key = none ∧ (t.step e).made = t.made + 1) := by
  cases e with
  | skip => exact Or.inl found
  | close other =>
    by_cases same : key = other
    · simp [step, set, same] at found
    · simp only [step, set, if_neg same] at found
      exact Or.inl found
  | use other last =>
    by_cases same : key = other
    · subst same
      rw [entry_use] at found
      -- Only a use that is not the last leaves an object.
      cases last with
      | true => simp at found
      | false =>
        cases old : t.entry key with
        | none =>
          simp only [Bool.false_eq_true, if_false, Table.object, old, Option.getD_none,
            Option.some.injEq] at found
          exact Or.inr ⟨found.symm, rfl, by simp [step, old]⟩
        | some kept =>
          simp only [Bool.false_eq_true, if_false, Table.object, old, Option.getD_some] at found
          exact Or.inl found
    · simp only [step, set, if_neg same] at found
      exact Or.inl found

/-- An event keeps the numbering of the objects. -/
theorem WF.step {t : Table κ} (wf : t.WF) (e : Event κ) : (t.step e).WF := by
  -- An entry after the event is an old one, or the first of its number.
  have grows := t.made_le_step e
  constructor
  · intro key object found
    rcases entry_step found with old | ⟨new, _, more⟩
    · have := wf.bound key object old
      omega
    · omega
  · intro key other object found again
    rcases entry_step found with old | ⟨new, free, _⟩
    · rcases entry_step again with older | ⟨newer, _, _⟩
      · exact wf.single key other object old older
      · have := wf.bound key object old
        omega
    · rcases entry_step again with older | ⟨newer, free', more⟩
      · have := wf.bound other object older
        omega
      · -- Two keys without an object cannot both get one from the same event.
        cases e with
        | skip => simp only [Table.step] at more; omega
        | close third => simp only [Table.step, set] at more; omega
        | use third last =>
          have here : key = third := by
            by_contra different
            simp [Table.step, set, different, free] at found
          have there : other = third := by
            by_contra different
            simp [Table.step, set, different, free'] at again
          rw [here, there]

/-- Events keep the numbering of the objects. -/
theorem WF.run {t : Table κ} (wf : t.WF) (events : List (Event κ)) : (t.run events).WF := by
  induction events generalizing t with
  | nil => exact wf
  | cons e events ih => exact ih (wf.step e)

/-- Right after its use, an object belongs to the used key alone. -/
theorem WF.confined_use {t : Table κ} (wf : t.WF) (key : κ) (last : Bool) :
    (t.step (.use key last)).Confined (t.object key) key := by
  have after := wf.step (.use key last)
  constructor
  · cases old : t.entry key with
    | none => simp [Table.step, Table.object, old]
    | some kept =>
      have := wf.bound key kept old
      simpa [Table.step, Table.object, old] using this
  · intro other found
    by_contra different
    -- Another key had the object before, which is then neither the key's own nor a new one.
    have before : t.entry other = some (t.object key) := by
      simpa [Table.step, set, different] using found
    cases old : t.entry key with
    | none =>
      have := wf.bound other _ before
      simp [Table.object, old] at this
    | some kept =>
      rw [Table.object, old, Option.getD_some] at before
      exact different (wf.single other key kept before old)

/-- A last use leaves its object to no key. -/
theorem WF.gone_last {t : Table κ} (wf : t.WF) {key : κ} {last : Bool} (final : last = true) :
    (t.step (.use key last)).Gone (t.object key) := by
  have confined := wf.confined_use key last
  refine ⟨confined.1, ?_⟩
  intro other found
  have same := confined.2 other found
  subst same
  rw [entry_use, final] at found
  simp at found

/-- An object stays confined to its key. -/
theorem Confined.step {t : Table κ} {object : Nat} {key : κ} (confined : t.Confined object key)
    (e : Event κ) : (t.step e).Confined object key := by
  have grows := t.made_le_step e
  refine ⟨Nat.lt_of_lt_of_le confined.1 grows, ?_⟩
  intro other found
  rcases entry_step found with old | ⟨new, _⟩
  · exact confined.2 other old
  · have := confined.1
    omega

/-- An object that no key has is not given out again. -/
theorem Gone.step {t : Table κ} {object : Nat} (gone : t.Gone object) (e : Event κ) :
    (t.step e).Gone object := by
  have grows := t.made_le_step e
  refine ⟨Nat.lt_of_lt_of_le gone.1 grows, ?_⟩
  intro other found
  rcases entry_step found with old | ⟨new, _⟩
  · exact gone.2 other old
  · have := gone.1
    omega

/-- Closing the key an object is confined to leaves it to no key. -/
theorem Confined.closes {t : Table κ} {object : Nat} {key : κ} (confined : t.Confined object key)
    {e : Event κ} (closes : e.Closes key) : (t.step e).Gone object := by
  have after := confined.step e
  refine ⟨after.1, ?_⟩
  intro other found
  have same := after.2 other found
  subst same
  cases e with
  | skip => exact closes
  | close third =>
    simp only [Event.Closes] at closes
    simp [Table.step, set, closes] at found
  | use third last =>
    obtain ⟨here, final⟩ := closes
    subst here
    rw [entry_use, final] at found
    simp at found

/-- An event that does not close a key leaves the key its object. -/
theorem entry_kept {t : Table κ} {e : Event κ} {key : κ} {object : Nat}
    (found : t.entry key = some object) (stays : ¬ e.Closes key) :
    (t.step e).entry key = some object := by
  cases e with
  | skip => exact found
  | close other =>
    have different : key ≠ other := fun same => stays same.symm
    simpa [Table.step, set, different] using found
  | use other last =>
    by_cases same : key = other
    · subst same
      have goesOn : last = false := by
        simpa [Event.Closes] using stays
      rw [entry_use, goesOn]
      simp [Table.object, found]
    · simpa [Table.step, set, same] using found

/-- As long as nothing closes a key, it keeps its object. -/
theorem entry_run_kept {t : Table κ} {events : List (Event κ)} {key : κ} {object : Nat}
    (found : t.entry key = some object) (stays : ∀ e ∈ events, ¬ e.Closes key) :
    (t.run events).entry key = some object := by
  induction events generalizing t with
  | nil => exact found
  | cons e events ih =>
    have first := entry_kept found (stays e (by simp))
    exact ih first fun later member => stays later (by simp [member])

/-- An object that is gone stays so. -/
theorem Gone.run {t : Table κ} {object : Nat} (gone : t.Gone object) (events : List (Event κ)) :
    (t.run events).Gone object := by
  induction events generalizing t with
  | nil => exact gone
  | cons e events ih => exact ih (gone.step e)

/-- Once the key of a confined object is closed, the object is gone for good. -/
theorem Confined.gone_run {t : Table κ} {object : Nat} {key : κ}
    (confined : t.Confined object key) {events : List (Event κ)}
    (closed : ∃ e ∈ events, e.Closes key) : (t.run events).Gone object := by
  -- Up to the closing event the object is confined, and from there on it is gone.
  induction events generalizing t with
  | nil => simp at closed
  | cons e events ih =>
    by_cases now : e.Closes key
    · exact (confined.closes now).run events
    · obtain ⟨later, member, closes⟩ := closed
      rcases List.mem_cons.mp member with here | there
      · exact absurd (here ▸ closes) now
      · exact ih (confined.step e) ⟨later, there, closes⟩

/-- Objects stay confined over any events. -/
theorem Confined.run {t : Table κ} {object : Nat} {key : κ} (confined : t.Confined object key)
    (events : List (Event κ)) : (t.run events).Confined object key := by
  induction events generalizing t with
  | nil => exact confined
  | cons e events ih => exact ih (confined.step e)

omit [DecidableEq κ] in
/-- A use does not get an object that is gone. -/
theorem Gone.ne_object {t : Table κ} {object : Nat} (gone : t.Gone object) (key : κ) :
    t.object key ≠ object := by
  intro same
  cases found : t.entry key with
  | none =>
    have := gone.1
    simp only [Table.object, found, Option.getD_none] at same
    omega
  | some kept =>
    simp only [Table.object, found, Option.getD_some] at same
    exact gone.2 key (same ▸ found)

/--
Two uses get the same object exactly when they use one key and nothing closes it in between.

The first use itself may be the event that closes the key.
-/
theorem WF.same_object_iff {t : Table κ} (wf : t.WF) (key other : κ) (last : Bool)
    (between : List (Event κ)) :
    t.object key = ((t.step (.use key last)).run between).object other ↔
      key = other ∧ ∀ e ∈ Event.use key last :: between, ¬ e.Closes key := by
  have confined := wf.confined_use key last
  constructor
  · intro same
    have alone := confined.run between
    have sameKey : key = other := by
      cases found : ((t.step (.use key last)).run between).entry other with
      | none =>
        have := alone.1
        simp only [Table.object, found, Option.getD_none] at same this
        omega
      | some kept =>
        rw [Table.object, Table.object, found, Option.getD_some] at same
        exact (alone.2 other (by rw [found, Table.object, same])).symm
    refine ⟨sameKey, ?_⟩
    intro e member closes
    -- A closing event in between would leave the object to nobody.
    have gone : ((t.step (.use key last)).run between).Gone (t.object key) := by
      rcases List.mem_cons.mp member with here | there
      · exact (wf.gone_last (here ▸ closes).2).run between
      · exact confined.gone_run ⟨e, there, closes⟩
    exact gone.ne_object other same.symm
  · intro ⟨sameKey, stays⟩
    subst sameKey
    have goesOn : last = false := by
      simpa [Event.Closes] using stays _ (List.mem_cons_self ..)
    have held : (t.step (.use key last)).entry key = some (t.object key) := by
      rw [entry_use, goesOn]
      simp
    have kept := entry_run_kept held fun e member => stays e (List.mem_cons_of_mem _ member)
    simp only [Table.object] at kept ⊢
    rw [kept]
    simp

/--
After events that start with a key closed, the key is open exactly when one of them left it so.
-/
theorem isSome_run_iff {t : Table κ} {key : κ} (closed : t.entry key = none)
    (events : List (Event κ)) : ((t.run events).entry key).isSome ↔ OpenAfter events key := by
  -- The last event decides, or leaves the decision to the events before it.
  induction events using List.reverseRecOn with
  | nil => simp [closed, OpenAfter]
  | append_singleton events e ih =>
    have split : OpenAfter (events ++ [e]) key ↔
        e.Opens key ∨ (OpenAfter events key ∧ ¬ e.Closes key) := by
      constructor
      · intro ⟨before, opening, after, whole, opens, stays⟩
        cases after using List.reverseRecOn with
        | nil =>
          have ends := List.append_inj' whole (by simp)
          simp only [List.cons.injEq, and_true] at ends
          exact Or.inl (ends.2 ▸ opens)
        | append_singleton after final =>
          have ends : events = before ++ opening :: after ∧ [e] = [final] :=
            List.append_inj' (by simpa using whole) (by simp)
          simp only [List.cons.injEq, and_true] at ends
          refine Or.inr ⟨⟨before, opening, after, ends.1, opens, ?_⟩, ?_⟩
          · intro later member
            exact stays later (by simp [member])
          · rw [ends.2]
            exact stays final (by simp)
      · intro cases
        rcases cases with opens | ⟨⟨before, opening, after, whole, opens, stays⟩, open'⟩
        · exact ⟨events, e, [], by simp, opens, by simp⟩
        · refine ⟨before, opening, after ++ [e], by simp [whole], opens, ?_⟩
          intro later member
          rcases List.mem_append.mp member with earlier | final
          · exact stays later earlier
          · rw [List.mem_singleton.mp final]
            exact open'
    rw [split, ← ih, run_append]
    cases e with
    | skip => simp [Table.step, Event.Opens, Event.Closes]
    | close other =>
      by_cases same : other = key
      · simp [Table.step, set, Event.Opens, Event.Closes, same]
      · simp [Table.step, set, Event.Opens, Event.Closes, same, Ne.symm same]
    | use other last =>
      by_cases same : other = key
      · subst same
        simp only [run_cons, run_nil, entry_use, Event.Opens, Event.Closes]
        cases last <;> simp
      · simp [Table.step, set, Event.Opens, Event.Closes, same, Ne.symm same]

section Items

variable {α : Type*} {event : α → Event κ} {key : α → κ} {last : α → Bool} {counted : α → Prop}

/--
All counted items get one object exactly when any two of them use one key, still open in between.

The items are anything that stands for events, and the counted ones stand for uses.
-/
theorem WF.one_object_iff {t : Table κ} (wf : t.WF)
    (uses : ∀ a, counted a → event a = .use (key a) (last a)) (items : List α) :
    (∃ object, ∀ before a after, items = before ++ a :: after → counted a →
        (t.run (before.map event)).object (key a) = object) ↔
      ∀ before a between b after, items = before ++ a :: (between ++ b :: after) → counted a →
        counted b → key a = key b ∧ ∀ c ∈ a :: between, ¬ (event c).Closes (key a) := by
  -- Any two counted items are compared by what the table does between them.
  have pair : ∀ before a between b, counted a →
      ((t.run (before.map event)).object (key a) =
          (t.run ((before ++ a :: between).map event)).object (key b) ↔
        key a = key b ∧ ∀ c ∈ a :: between, ¬ (event c).Closes (key a)) := by
    intro before a between b use
    have compared := (wf.run (before.map event)).same_object_iff (key a) (key b) (last a)
      (between.map event)
    rw [List.map_append, List.map_cons, run_append, run_cons, uses a use, compared]
    simp [uses a use]
  constructor
  · intro ⟨object, all⟩ before a between b after whole useA useB
    have first := all before a (between ++ b :: after) whole useA
    have second := all (before ++ a :: between) b after (by simpa using whole) useB
    exact (pair before a between b useA).mp (first.trans second.symm)
  · intro together
    by_cases some' : ∃ before a after, items = before ++ a :: after ∧ counted a
    · obtain ⟨before, a, after, whole, use⟩ := some'
      refine ⟨(t.run (before.map event)).object (key a), ?_⟩
      intro before' b after' whole' use'
      obtain ⟨same, item, _⟩ | ⟨between, later, _⟩ | ⟨between, earlier, _⟩ :=
        Separator.append_cons_cases (whole.symm.trans whole')
      · rw [same, item]
      · subst later
        have found := together before a between b after' (by simpa using whole') use use'
        exact ((pair before a between b use).mpr found).symm
      · subst earlier
        have found := together before' b between a after (by simpa using whole) use' use
        exact (pair before' b between a use').mpr found
    · -- Without a counted item any object will do.
      refine ⟨0, ?_⟩
      intro before a after whole use
      exact absurd ⟨before, a, after, whole, use⟩ some'

end Items

end Table

end KeyedObjects
