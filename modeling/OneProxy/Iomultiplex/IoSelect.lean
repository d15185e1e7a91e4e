import Mathlib
import OneProxy.Lib.AllAlong
import OneProxy.Lib.StdMap

/-! The registrations of the event loop that waits with `select`, on systems with `fd_set`. -/

namespace OneProxy

/-- `SelectEventType`: what a descriptor is watched for. -/
inductive SelectEventType
  | read
  | write
  | accept
  deriving DecidableEq

/-- What `select` is told: one entry for each descriptor, and four summaries of the entries. -/
structure IoSelect (φ α : Type) where
  /-- The event, the callback and the callback's argument of each descriptor. -/
  eventMap : StdMap UInt32 (SelectEventType × φ × α)
  readFdSet : Finset UInt32
  writeFdSet : Finset UInt32
  /-- The registered descriptors, the largest one first. -/
  fdsetSet : Finset UInt32
  maxfd : UInt32

namespace IoSelect

variable {φ α : Type}

/-- The constructor. -/
def new : IoSelect φ α := ⟨fun _ => none, ∅, ∅, ∅, 0⟩

/-- `add_ioEvent`, which clears no bit of an event that the descriptor was registered for before. -/
def addIoEvent (fdSetSize : UInt32) (s : IoSelect φ α) (fd : UInt32) (event : SelectEventType)
    (func : φ) (args : α) : Int × IoSelect φ α :=
  if fd ≥ fdSetSize then (-1, s)
  else (0, {
    eventMap := Function.update s.eventMap fd (some (event, func, args))
    readFdSet := if event = .write then s.readFdSet else insert fd s.readFdSet
    writeFdSet := if event = .write then insert fd s.writeFdSet else s.writeFdSet
    fdsetSet := insert fd s.fdsetSet
    maxfd := if fd > s.maxfd then fd else s.maxfd })

/-- `add_ioEventRead`. -/
def addIoEventRead (fdSetSize : UInt32) (s : IoSelect φ α) (fd : UInt32) (func : φ) (args : α) :
    Int × IoSelect φ α :=
  s.addIoEvent fdSetSize fd .read func args

/-- `add_ioEventWrite`. -/
def addIoEventWrite (fdSetSize : UInt32) (s : IoSelect φ α) (fd : UInt32) (func : φ) (args : α) :
    Int × IoSelect φ α :=
  s.addIoEvent fdSetSize fd .write func args

/-- `add_ioEventAccept`. -/
def addIoEventAccept (fdSetSize : UInt32) (s : IoSelect φ α) (fd : UInt32) (func : φ) (args : α) :
    Int × IoSelect φ α :=
  s.addIoEvent fdSetSize fd .accept func args

/-- `*(fdsetSet.begin())`: the set is ordered by `std::greater`. -/
def begin (fds : Finset UInt32) : UInt32 := UInt32.ofNat (fds.sup UInt32.toNat)

/-- The current event of a descriptor. -/
def event (s : IoSelect φ α) (fd : UInt32) : Option SelectEventType := (s.eventMap fd).map (·.1)

/-- What `del_ioEvent` does with a descriptor that is registered for an event. -/
def deleted (s : IoSelect φ α) (fd : UInt32) (event : SelectEventType) : IoSelect φ α :=
  let fdsetSet := s.fdsetSet.erase fd
  { eventMap := Function.update s.eventMap fd none
    readFdSet := if event = .write then s.readFdSet else s.readFdSet.erase fd
    writeFdSet := if event = .write then s.writeFdSet.erase fd else s.writeFdSet
    fdsetSet := fdsetSet
    maxfd :=
      if fd ≥ s.maxfd then if fdsetSet.card = 0 then 0 else begin fdsetSet
      else s.maxfd }

/-- `del_ioEvent`, undefined where the pointer it reads the event through is null. -/
def delIoEvent (s : IoSelect φ α) (fd : UInt32) : Option (IoSelect φ α) :=
  (s.event fd).map (s.deleted fd)

/-! ## Sequences of calls -/

/-- A call of a registering or deleting function. -/
inductive Call (φ α : Type)
  | addRead (fd : UInt32) (func : φ) (args : α)
  | addWrite (fd : UInt32) (func : φ) (args : α)
  | addAccept (fd : UInt32) (func : φ) (args : α)
  | del (fd : UInt32)

/-- What a call does. -/
def call (fdSetSize : UInt32) (s : IoSelect φ α) : Call φ α → Option (IoSelect φ α)
  | .addRead fd func args => some (s.addIoEventRead fdSetSize fd func args).2
  | .addWrite fd func args => some (s.addIoEventWrite fdSetSize fd func args).2
  | .addAccept fd func args => some (s.addIoEventAccept fdSetSize fd func args).2
  | .del fd => s.delIoEvent fd

/-- A mask holds the descriptors that are registered for an event of some kind. -/
def Masks (s : IoSelect φ α) (kind : SelectEventType → Prop) (mask : Finset UInt32) : Prop :=
  ∀ fd, fd ∈ mask ↔ ∃ event, s.event fd = some event ∧ kind event

/-- A number is the largest one of a set of descriptors, and 0 if the set is empty. -/
def Tops (maxfd : UInt32) (fds : Finset UInt32) : Prop :=
  maxfd.toNat = fds.sup UInt32.toNat

/-- The summaries say what the entries say. -/
structure Consistent (s : IoSelect φ α) : Prop where
  readFdSet : s.Masks (fun event => event = .read ∨ event = .accept) s.readFdSet
  writeFdSet : s.Masks (fun event => event = .write) s.writeFdSet
  fdsetSet : ∀ fd, fd ∈ s.fdsetSet ↔ (s.event fd).isSome
  maxfd : Tops s.maxfd s.fdsetSet

/-- A registration keeps to the direction in which the descriptor is watched, if it is. -/
def SameDirection (fdSetSize : UInt32) (s : IoSelect φ α) (fd : UInt32) (event : SelectEventType) :
    Prop :=
  fd < fdSetSize → ∀ old, s.event fd = some old → (old = .write ↔ event = .write)

/--
A call neither turns a registered descriptor from one direction to the other nor deletes one that is
not registered.
-/
def Plain (fdSetSize : UInt32) (s : IoSelect φ α) : Call φ α → Prop
  | .addRead fd _ _ => SameDirection fdSetSize s fd .read
  | .addWrite fd _ _ => SameDirection fdSetSize s fd .write
  | .addAccept fd _ _ => SameDirection fdSetSize s fd .accept
  | .del fd => (s.event fd).isSome

variable {fdSetSize : UInt32} {s t : IoSelect φ α} {fd : UInt32}

theorem consistent_new : (new : IoSelect φ α).Consistent where
  readFdSet := by simp [Masks, new, event]
  writeFdSet := by simp [Masks, new, event]
  fdsetSet := by simp [new, event]
  maxfd := rfl

theorem isRead_iff {event : SelectEventType} :
    (event = .read ∨ event = .accept) ↔ event ≠ .write := by
  cases event <;> simp

/-! ## The masks -/

section Masks

variable {kind : SelectEventType → Prop} {mask mask' : Finset UInt32} {event : SelectEventType}

/-- A mask stays right where a descriptor is registered for an event of the kind it had, if any. -/
theorem Masks.register_iff (masks : s.Masks kind mask)
    (moved : ∀ other, t.event other = if other = fd then some event else s.event other)
    (set : kind event → mask' = insert fd mask) (unset : ¬ kind event → mask' = mask) :
    t.Masks kind mask' ↔ ∀ old, s.event fd = some old → kind old → kind event := by
  constructor
  · intro after old was right
    by_contra wrong
    -- The bit that was set for the old event is still set.
    have stale : fd ∈ mask' := by
      rw [unset wrong]
      exact (masks fd).mpr ⟨old, was, right⟩
    obtain ⟨now, found, right'⟩ := (after fd).mp stale
    rw [moved, if_pos rfl, Option.some.injEq] at found
    exact wrong (found ▸ right')
  · intro keeps other
    rw [moved]
    by_cases here : other = fd
    · subst here
      rw [if_pos rfl]
      by_cases right : kind event
      · rw [set right]
        exact iff_of_true (Finset.mem_insert_self _ _) ⟨event, rfl, right⟩
      · rw [unset right, masks other]
        refine iff_of_false ?_ ?_
        · rintro ⟨old, was, rightOld⟩
          exact right (keeps old was rightOld)
        · rintro ⟨now, found, rightNow⟩
          exact right (Option.some.inj found ▸ rightNow)
    · rw [if_neg here, ← masks other]
      by_cases right : kind event
      · rw [set right, Finset.mem_insert]
        exact or_iff_right here
      · rw [unset right]

/-- A mask stays right where a descriptor is deleted and its bit cleared if it was set. -/
theorem Masks.delete (masks : s.Masks kind mask)
    (was : s.event fd = some event)
    (moved : ∀ other, t.event other = if other = fd then none else s.event other)
    (clear : kind event → mask' = mask.erase fd) (keep : ¬ kind event → mask' = mask) :
    t.Masks kind mask' := by
  intro other
  rw [moved]
  by_cases here : other = fd
  · -- The descriptor itself has neither an entry nor a bit any more.
    subst here
    rw [if_pos rfl]
    refine iff_of_false ?_ (by simp)
    by_cases right : kind event
    · rw [clear right]
      exact Finset.notMem_erase other mask
    · rw [keep right, masks other]
      rintro ⟨old, found, rightOld⟩
      exact right (Option.some.inj (was.symm.trans found) ▸ rightOld)
  · rw [if_neg here, ← masks other]
    by_cases right : kind event
    · rw [clear right, Finset.mem_erase]
      exact and_iff_right here
    · rw [keep right]

end Masks

/-! ## The largest descriptor -/

/-- The first descriptor of a set is its largest one. -/
theorem tops_begin (fds : Finset UInt32) : Tops (begin fds) fds := by
  rw [Tops, begin, UInt32.toNat_ofNat', Nat.mod_eq_of_lt]
  exact (Finset.sup_lt_iff (by decide)).mpr fun fd _ => fd.toNat_lt

theorem tops_insert {maxfd : UInt32} {fds : Finset UInt32} (tops : Tops maxfd fds) (fd : UInt32) :
    Tops (if fd > maxfd then fd else maxfd) (insert fd fds) := by
  rw [Tops, Finset.sup_insert, ← tops]
  by_cases larger : fd > maxfd
  · have less := UInt32.lt_iff_toNat_lt.mp larger
    rw [if_pos larger]
    exact (Nat.max_eq_left (Nat.le_of_lt less)).symm
  · have most := UInt32.le_iff_toNat_le.mp (UInt32.not_lt.mp larger)
    rw [if_neg larger]
    exact (Nat.max_eq_right most).symm

/-- Without a descriptor that is smaller, a set has the same largest one. -/
theorem tops_erase {maxfd : UInt32} {fds : Finset UInt32} (tops : Tops maxfd fds) (fd : UInt32) :
    Tops (if fd ≥ maxfd then if (fds.erase fd).card = 0 then 0 else begin (fds.erase fd) else maxfd)
      (fds.erase fd) := by
  by_cases largest : fd ≥ maxfd
  · rw [if_pos largest]
    by_cases none_ : (fds.erase fd).card = 0
    · rw [if_pos none_, Finset.card_eq_zero.mp none_]
      rfl
    · rw [if_neg none_]
      exact tops_begin _
  · have less := UInt32.lt_iff_toNat_lt.mp (UInt32.not_le.mp largest)
    rw [if_neg largest]
    by_cases inside : fd ∈ fds
    · have whole := tops
      rw [Tops, ← Finset.insert_erase inside, Finset.sup_insert] at whole
      rw [Tops]
      omega
    · rwa [Finset.erase_eq_of_notMem inside]

/-! ## What the calls do -/

/-- The event of a descriptor, and of the others, behind an update of its entry. -/
theorem event_update {entry : Option (SelectEventType × φ × α)}
    (moved : t.eventMap = Function.update s.eventMap fd entry) (other : UInt32) :
    t.event other = if other = fd then entry.map (·.1) else s.event other := by
  rw [event, event, moved]
  by_cases here : other = fd
  · subst here
    simp
  · simp [here]

/-- Registering keeps the summaries right exactly if it keeps to the direction. -/
theorem consistent_addIoEvent_iff (consistent : s.Consistent) (fd : UInt32)
    (event : SelectEventType) (func : φ) (args : α) :
    (s.addIoEvent fdSetSize fd event func args).2.Consistent ↔
      SameDirection fdSetSize s fd event := by
  by_cases big : fd ≥ fdSetSize
  · -- A descriptor that is too large is refused.
    have refused : ¬ fd < fdSetSize := UInt32.not_lt.mpr big
    rw [addIoEvent, if_pos big]
    exact iff_of_true consistent fun small => absurd small refused
  · have small : fd < fdSetSize := UInt32.not_le.mp big
    have moved := @event_update _ _ s (s.addIoEvent fdSetSize fd event func args).2 fd
      (some (event, func, args)) (by rw [addIoEvent, if_neg big])
    rw [addIoEvent, if_neg big] at moved ⊢
    have read := @Masks.register_iff _ _ s _ fd _ _
      (if event = .write then s.readFdSet else insert fd s.readFdSet) event consistent.readFdSet
      moved (fun right => if_neg (isRead_iff.mp right))
      fun wrong => if_pos (not_not.mp (mt isRead_iff.mpr wrong))
    have write := @Masks.register_iff _ _ s _ fd _ _
      (if event = .write then insert fd s.writeFdSet else s.writeFdSet) event consistent.writeFdSet
      moved (fun right => if_pos right) fun wrong => if_neg wrong
    -- Each mask is right afterwards exactly if the old event was of its kind or the new one is not.
    constructor
    · intro after _ old was
      have keptRead := read.mp after.readFdSet old was
      rw [isRead_iff, isRead_iff] at keptRead
      exact ⟨write.mp after.writeFdSet old was, not_imp_not.mp keptRead⟩
    · intro same
      refine ⟨read.mpr fun old was right => ?_, write.mpr fun old was => (same small old was).mp,
        fun other => ?_, tops_insert consistent.maxfd fd⟩
      · rw [isRead_iff] at right ⊢
        exact mt (same small old was).mpr right
      · rw [moved, Finset.mem_insert, consistent.fdsetSet]
        by_cases here : other = fd
        · simp [here]
        · simp [here]

/-- Deleting keeps the summaries right. -/
theorem Consistent.deleted (consistent : s.Consistent) {event : SelectEventType}
    (was : s.event fd = some event) : (s.deleted fd event).Consistent := by
  have moved := @event_update _ _ s (s.deleted fd event) fd none rfl
  refine ⟨consistent.readFdSet.delete was moved (fun right => if_neg (isRead_iff.mp right))
      fun wrong => if_pos (not_not.mp (mt isRead_iff.mpr wrong)),
    consistent.writeFdSet.delete was moved (fun right => if_pos right) fun wrong => if_neg wrong,
    fun other => ?_, tops_erase consistent.maxfd fd⟩
  rw [moved, IoSelect.deleted, Finset.mem_erase, consistent.fdsetSet]
  by_cases here : other = fd
  · simp [here]
  · simp [here]

/-- Deleting is defined where there is an entry to delete. -/
theorem consistent_delIoEvent_iff (consistent : s.Consistent) (fd : UInt32) :
    (∃ t, s.delIoEvent fd = some t ∧ t.Consistent) ↔ (s.event fd).isSome := by
  cases was : s.event fd with
  | none => simp [delIoEvent, was]
  | some event =>
    exact iff_of_true ⟨_, by rw [delIoEvent, was]; rfl, consistent.deleted was⟩ rfl

/-- A call keeps the summaries right exactly if it is plain. -/
theorem consistent_call_iff (consistent : s.Consistent) (call : Call φ α) :
    (∃ t, s.call fdSetSize call = some t ∧ t.Consistent) ↔ Plain fdSetSize s call := by
  cases call with
  | addRead fd func args =>
    rw [Plain, ← consistent_addIoEvent_iff consistent fd .read func args]
    simp [IoSelect.call, addIoEventRead]
  | addWrite fd func args =>
    rw [Plain, ← consistent_addIoEvent_iff consistent fd .write func args]
    simp [IoSelect.call, addIoEventWrite]
  | addAccept fd func args =>
    rw [Plain, ← consistent_addIoEvent_iff consistent fd .accept func args]
    simp [IoSelect.call, addIoEventAccept]
  | del fd => exact consistent_delIoEvent_iff consistent fd

/--
The summaries are right after every call of a sequence exactly if each call is plain where it is
made.
-/
theorem registrations_iff (fdSetSize : UInt32) (calls : List (Call φ α)) :
    (∀ front, front <+: calls →
      ∃ s, Runs.exec (call fdSetSize) new front = some s ∧ s.Consistent) ↔
      ∀ front c, front ++ [c] <+: calls →
        ∀ s, Runs.exec (call fdSetSize) new front = some s → Plain fdSetSize s c :=
  @Runs.allAlong_iff _ _ (call fdSetSize) Consistent (fun _ => True) (Plain fdSetSize) new calls
    consistent_new trivial (fun _ c _ _ _ good _ => consistent_call_iff good c)
    fun _ _ _ _ _ _ _ _ _ _ => trivial

/-- A descriptor that is read from and then blocks in a send keeps its bit for reading. -/
theorem blockedSend_staleBit : ¬ ∀ (fdSetSize : UInt32) (calls : List (Call Unit Unit)),
    ∀ front, front <+: calls →
      ∃ s, Runs.exec (call fdSetSize) new front = some s ∧ s.Consistent := by
  intro always
  obtain ⟨s, reached, consistent⟩ :=
    always 1024 [.addRead 5 () (), .addWrite 5 () ()] _ (List.prefix_refl _)
  obtain rfl := Option.some.inj reached
  obtain ⟨now, found, right⟩ := (consistent.readFdSet 5).mp (by decide)
  have write : now = .write := (Option.some.inj found).symm
  rw [write] at right
  exact absurd right (by decide)

end IoSelect

end OneProxy
