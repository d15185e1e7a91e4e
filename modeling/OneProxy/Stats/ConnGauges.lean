import OneProxy.Lib.Census
import OneProxy.Lib.Runs
import OneProxy.Stats.Record

/-!
The numbers of client connections that wait, are handled and are open, as the accept threads and the
workers count them.
-/

namespace OneProxy.Record

/-- How far a client's socket has come. -/
inductive ClientStage
  /-- `accept_clientRequest` has it. -/
  | arrived
  /-- It is in the queue of the connection manager. -/
  | queued
  /-- It is on its way to a worker. -/
  | handed
  /-- A worker has called `add_task` with it. -/
  | started
  /-- It is destroyed. -/
  | closed
  deriving DecidableEq

/-- A client's socket, and whether its accept is recorded. -/
structure Client where
  stage : ClientStage
  recorded : Bool
  deriving DecidableEq

namespace Client

/-- It is accepted, and no worker has started with it. -/
def Waiting (c : Client) : Prop := c.recorded = true ∧ (c.stage = .queued ∨ c.stage = .handed)

/-- A worker has started with it, and not closed it. -/
def Started (c : Client) : Prop := c.stage = .started

/-- It is accepted, and not closed. -/
def Open (c : Client) : Prop := c.recorded = true ∧ c.stage ≠ .closed

instance : DecidablePred Waiting := fun c =>
  inferInstanceAs (Decidable (c.recorded = true ∧ (c.stage = .queued ∨ c.stage = .handed)))

instance : DecidablePred Started := fun c => inferInstanceAs (Decidable (c.stage = .started))

instance : DecidablePred Open := fun c =>
  inferInstanceAs (Decidable (c.recorded = true ∧ c.stage ≠ .closed))

end Client

/-- How `accept_clientRequest` hands a socket off. -/
inductive HandOff
  /-- To the queue, where others wait already or no worker can be had. -/
  | queue
  /-- To a worker, by `write_socketPair`. -/
  | pipe (succeeds : Bool)

/-- The sums of the statistics, and the sockets of all clients so far. -/
structure Clients where
  record : Record
  made : Nat
  clients : Nat → Client

namespace Clients

/-- What an accept thread or a worker does, or the clear. -/
inductive Label
  /-- `accept_clientRequest` begins with a new socket. -/
  | accept
  | handOff (id : Nat) (way : HandOff)
  /-- `record_acceptClientConn`, the end of `accept_clientRequest`. -/
  | recordAccept (id : Nat)
  /-- `alloc_task` takes a socket from the queue and writes to a worker. -/
  | allocTask (id : Nat) (succeeds : Bool)
  /-- `add_task` begins. -/
  | addTask (id : Nat)
  /-- `finished_connection`, or the end of an `add_task` that fails. -/
  | close (id : Nat)
  /-- `record_clear`. -/
  | clear

/-- A client comes to another stage. -/
def goto (s : Clients) (id : Nat) (client : Client) : Clients :=
  { s with clients := Function.update s.clients id client }

/-- Changes the sums. -/
def count (s : Clients) (f : Record → Record) : Clients := { s with record := f s.record }

/-- What a step leaves. -/
def next (s : Clients) : Label → Option Clients
  | .accept => some (({ s with made := s.made + 1 } : Clients).goto s.made ⟨.arrived, false⟩)
  | .handOff id way =>
    if id < s.made ∧ (s.clients id).stage = .arrived then
      match way with
      | .queue =>
        some ((s.count recordClientConn2GlobalQueue).goto id { s.clients id with stage := .queued })
      | .pipe true => some (s.goto id { s.clients id with stage := .handed })
      | .pipe false => some (s.goto id { s.clients id with stage := .closed })
    else none
  | .recordAccept id =>
    -- Nothing keeps a worker from starting with the socket, or even closing it, before this.
    if id < s.made ∧ (s.clients id).stage ≠ .arrived ∧ (s.clients id).recorded = false then
      some ((s.count recordAcceptClientConn).goto id { s.clients id with recorded := true })
    else none
  | .allocTask id succeeds =>
    if id < s.made ∧ (s.clients id).stage = .queued then
      some ((s.count recordOutGlobalQueue).goto id
        { s.clients id with stage := if succeeds then .handed else .closed })
    else none
  | .addTask id =>
    if id < s.made ∧ (s.clients id).stage = .handed then
      some ((s.count recordStartHandingConn).goto id { s.clients id with stage := .started })
    else none
  | .close id =>
    if id < s.made ∧ (s.clients id).stage = .started then
      some ((s.count recordCloseClientConn).goto id { s.clients id with stage := .closed })
    else none
  | .clear => some (s.count recordClear)

/-- No client has come yet. -/
def new : Clients := ⟨.new, 0, fun _ => ⟨.arrived, false⟩⟩

/-- The clients from the start on. -/
def system : Runs.System Clients Label := .ofStep (· = new) next

/-- The number of clients of a kind. -/
def number (s : Clients) (p : Client → Prop) [DecidablePred p] : Nat :=
  Census.census (Finset.range s.made) s.clients p

/-- Each sum is the number of clients that it stands for. -/
structure Gauged (s : Clients) : Prop where
  wait : s.record.sumWaitClientConn.toNat = s.number Client.Waiting
  handing : s.record.sumHandingClientConn.toNat = s.number Client.Started
  current : s.record.sumCurrentClientConn.toNat = s.number Client.Open

/-- The step takes one from a sum that is zero. -/
def Wraps (s : Clients) : Label → Prop
  | .addTask _ => s.record.sumWaitClientConn = 0
  | .close _ => s.record.sumHandingClientConn = 0 ∨ s.record.sumCurrentClientConn = 0
  | _ => False

/--
A worker starts only with clients whose accept is recorded; the accept is recorded, with room in the
sums, only of clients whose hand-off succeeded; none that is recorded fails to leave the queue; and
the sums are cleared only when no client is counted.
-/
def Timely (s : Clients) : Label → Prop
  | .recordAccept id => (s.clients id).stage ≠ .closed ∧ s.number Client.Open + 1 < 2 ^ 64
  | .allocTask id succeeds => succeeds = true ∨ (s.clients id).recorded = false
  | .addTask id => (s.clients id).recorded = true
  | .clear => s.number Client.Open = 0
  | _ => True

open Census

variable {s t : Clients} {label : Label}

/-- What every timely run keeps: the sums, and the order of a client's stages and its accept. -/
structure Inv (s : Clients) : Prop where
  gauged : s.Gauged
  arrived : ∀ id < s.made, (s.clients id).stage = .arrived → (s.clients id).recorded = false
  started : ∀ id < s.made, (s.clients id).stage = .started → (s.clients id).recorded = true

/-- The clients that wait and those that are handled are open, and different ones. -/
theorem Inv.waiting_started_le (inv : s.Inv) :
    s.number Client.Waiting + s.number Client.Started ≤ s.number Client.Open := by
  simp only [number, census]
  rw [← Finset.card_union_of_disjoint]
  · -- Both kinds are open clients.
    refine Finset.card_le_card fun id member => ?_
    rcases Finset.mem_union.mp member with waits | handled
    · obtain ⟨inside, recorded, stage⟩ := Finset.mem_filter.mp waits
      refine Finset.mem_filter.mpr ⟨inside, recorded, ?_⟩
      rcases stage with queued | handed
      · simp [queued]
      · simp [handed]
    · obtain ⟨inside, started⟩ := Finset.mem_filter.mp handled
      have stage : (s.clients id).stage = .started := started
      refine Finset.mem_filter.mpr ⟨inside, inv.started id (Finset.mem_range.mp inside) stage, ?_⟩
      simp [stage]
  · -- A client that has been started waits no more.
    refine Finset.disjoint_left.mpr fun id waits handled => ?_
    have stage : (s.clients id).stage = .started := (Finset.mem_filter.mp handled).2
    rcases (Finset.mem_filter.mp waits).2.2 with queued | handed
    · simp [stage] at queued
    · simp [stage] at handed

/-- A client that has just come is counted nowhere. -/
theorem number_accept {p : Client → Prop} [DecidablePred p] (uncounted : ¬ p ⟨.arrived, false⟩) :
    (({ s with made := s.made + 1 } : Clients).goto s.made ⟨.arrived, false⟩).number p =
      s.number p := by
  have new : s.made ∉ Finset.range s.made := Finset.notMem_range_self
  show census (Finset.range (s.made + 1)) (Function.update s.clients s.made ⟨.arrived, false⟩) p =
    census (Finset.range s.made) s.clients p
  rw [Finset.range_add_one, census_insert new, census_update_outside new, Function.update_self,
    if_neg uncounted, Nat.add_zero]

/-- What the step of one client leaves of a number. -/
theorem number_goto (f : Record → Record) (id : Nat) (client : Client) (p : Client → Prop)
    [DecidablePred p] : ((s.count f).goto id client).number p =
      census (Finset.range s.made) (Function.update s.clients id client) p := rfl

/-- A client that changes in nothing counted leaves the gauges as they are. -/
theorem gauged_quiet {f : Record → Record} {id : Nat} {client : Client} (made : id < s.made)
    (wait : (f s.record).sumWaitClientConn = s.record.sumWaitClientConn)
    (handing : (f s.record).sumHandingClientConn = s.record.sumHandingClientConn)
    (current : (f s.record).sumCurrentClientConn = s.record.sumCurrentClientConn)
    (waits : (s.clients id).Waiting ↔ client.Waiting)
    (handles : (s.clients id).Started ↔ client.Started)
    (opens : (s.clients id).Open ↔ client.Open) (gauged : s.Gauged) :
    ((s.count f).goto id client).Gauged := by
  have inside := Finset.mem_range.mpr made
  refine ⟨?_, ?_, ?_⟩
  · rw [number_goto, census_update_same inside waits]
    exact wait ▸ gauged.wait
  · rw [number_goto, census_update_same inside handles]
    exact handing ▸ gauged.handing
  · rw [number_goto, census_update_same inside opens]
    exact current ▸ gauged.current

/-- Handing a socket off moves nothing that is counted. -/
theorem Inv.gauged_handOff (inv : s.Inv) {id : Nat} {way : HandOff}
    (moved : s.next (.handOff id way) = some t) : t.Gauged := by
  simp only [next] at moved
  split at moved
  · rename_i guard
    obtain ⟨made, stage⟩ := guard
    have unrecorded := inv.arrived id made stage
    -- The accept is not recorded yet, so the client is counted nowhere before and after.
    have waits : ∀ later : ClientStage, (s.clients id).Waiting ↔
        ({ s.clients id with stage := later } : Client).Waiting := by
      simp [Client.Waiting, unrecorded]
    have opens : ∀ later : ClientStage, (s.clients id).Open ↔
        ({ s.clients id with stage := later } : Client).Open := by
      simp [Client.Open, unrecorded]
    have handles : ∀ later : ClientStage, later ≠ .started → ((s.clients id).Started ↔
        ({ s.clients id with stage := later } : Client).Started) := by
      intro later other
      simp [Client.Started, stage, other]
    split at moved
    · obtain rfl := Option.some.inj moved
      exact gauged_quiet made rfl rfl rfl (waits _) (handles _ (by decide)) (opens _) inv.gauged
    · obtain rfl := Option.some.inj moved
      exact @gauged_quiet s (fun record => record) id _ made rfl rfl rfl (waits _)
        (handles _ (by decide)) (opens _) inv.gauged
    · obtain rfl := Option.some.inj moved
      exact @gauged_quiet s (fun record => record) id _ made rfl rfl rfl (waits _)
        (handles _ (by decide)) (opens _) inv.gauged
  · simp at moved

/-- An accept that is recorded counts exactly if its client is still there and there is room. -/
theorem Inv.gauged_recordAccept (inv : s.Inv) {id : Nat}
    (moved : s.next (.recordAccept id) = some t) : t.Gauged ↔ s.Timely (.recordAccept id) := by
  obtain ⟨wait, handing, current⟩ := inv.gauged
  have parts := inv.waiting_started_le
  simp only [next] at moved
  split at moved
  · rename_i guard
    obtain ⟨made, arrived, unrecorded⟩ := guard
    obtain rfl := Option.some.inj moved
    have inside := Finset.mem_range.mpr made
    have sumWait := s.record.sumWaitClientConn.toNat_lt
    have sumCurrent := s.record.sumCurrentClientConn.toNat_lt
    have more : (recordAcceptClientConn s.record).sumWaitClientConn.toNat =
        (s.record.sumWaitClientConn.toNat + 1) % 2 ^ 64 := by
      simp [recordAcceptClientConn, UInt64.toNat_add]
    have more' : (recordAcceptClientConn s.record).sumCurrentClientConn.toNat =
        (s.record.sumCurrentClientConn.toNat + 1) % 2 ^ 64 := by
      simp [recordAcceptClientConn, UInt64.toNat_add]
    have handles : (s.clients id).Started ↔
        ({ s.clients id with recorded := true } : Client).Started := Iff.rfl
    by_cases gone : (s.clients id).stage = .closed
    · -- The sums go up for a client that is not there.
      refine iff_of_false ?_ fun timely => timely.1 gone
      intro gauged
      have counted : (recordAcceptClientConn s.record).sumWaitClientConn.toNat = _ := gauged.wait
      rw [number_goto, census_update_same inside (by simp [Client.Waiting, gone]), more] at counted
      change _ = s.number Client.Waiting at counted
      omega
    · have before : (s.clients id).stage ≠ .started := by
        intro started
        simp [inv.started id made started] at unrecorded
      have stage : (s.clients id).stage = .queued ∨ (s.clients id).stage = .handed := by
        cases here : (s.clients id).stage <;> simp_all
      have waits := @census_update_gain _ _ _ s.clients Client.Waiting _ _
        { s.clients id with recorded := true } _ inside (by simp [Client.Waiting, unrecorded])
        ⟨rfl, stage⟩
      have opens := @census_update_gain _ _ _ s.clients Client.Open _ _
        { s.clients id with recorded := true } _ inside (by simp [Client.Open, unrecorded])
        ⟨rfl, gone⟩
      change _ = s.number Client.Waiting + 1 at waits
      change _ = s.number Client.Open + 1 at opens
      constructor
      · intro gauged
        refine ⟨gone, ?_⟩
        have counted : (recordAcceptClientConn s.record).sumCurrentClientConn.toNat = _ :=
          gauged.current
        rw [number_goto, opens, more'] at counted
        omega
      · intro timely
        have room := timely.2
        refine ⟨?_, ?_, ?_⟩
        · rw [number_goto, waits]
          show (recordAcceptClientConn s.record).sumWaitClientConn.toNat = _
          omega
        · rw [number_goto, census_update_same inside handles]
          exact handing
        · rw [number_goto, opens]
          show (recordAcceptClientConn s.record).sumCurrentClientConn.toNat = _
          omega
  · simp at moved

/-- A socket that leaves the queue moves nothing that is counted, unless it is lost and recorded. -/
theorem Inv.gauged_allocTask (inv : s.Inv) {id : Nat} {succeeds : Bool}
    (moved : s.next (.allocTask id succeeds) = some t) :
    t.Gauged ↔ s.Timely (.allocTask id succeeds) := by
  simp only [next] at moved
  split at moved
  · rename_i guard
    obtain ⟨made, stage⟩ := guard
    obtain rfl := Option.some.inj moved
    cases succeeds with
    | true =>
      refine iff_of_true ?_ (Or.inl rfl)
      exact gauged_quiet made rfl rfl rfl (by simp [Client.Waiting, stage])
        (by simp [Client.Started, stage]) (by simp [Client.Open, stage]) inv.gauged
    | false =>
      cases recorded : (s.clients id).recorded with
      | false =>
        refine iff_of_true ?_ (Or.inr recorded)
        exact gauged_quiet made rfl rfl rfl (by simp [Client.Waiting, recorded])
          (by simp [Client.Started, stage]) (by simp [Client.Open, recorded]) inv.gauged
      | true =>
        refine iff_of_false ?_ (by simp [Timely, recorded])
        intro gauged
        -- One client less waits, and the sum still has it.
        have waits := @census_update_loss _ _ _ s.clients Client.Waiting _ _ ⟨.closed, true⟩ _
          (Finset.mem_range.mpr made) ⟨recorded, Or.inl stage⟩ (by decide)
        have counted : s.record.sumWaitClientConn.toNat = census (Finset.range s.made)
          (Function.update s.clients id ⟨.closed, true⟩) Client.Waiting := gauged.wait
        rw [inv.gauged.wait] at counted
        change _ = s.number Client.Waiting at waits
        omega
  · simp at moved

/-- A worker that starts counts right exactly if the client's accept is recorded. -/
theorem Inv.gauged_addTask (inv : s.Inv) {id : Nat} (moved : s.next (.addTask id) = some t) :
    t.Gauged ↔ s.Timely (.addTask id) := by
  obtain ⟨wait, handing, current⟩ := inv.gauged
  have parts := inv.waiting_started_le
  simp only [next] at moved
  split at moved
  · rename_i guard
    obtain ⟨made, stage⟩ := guard
    obtain rfl := Option.some.inj moved
    have inside := Finset.mem_range.mpr made
    have sumWait := s.record.sumWaitClientConn.toNat_lt
    have sumCurrent := s.record.sumCurrentClientConn.toNat_lt
    have fewer : (recordStartHandingConn s.record).sumWaitClientConn.toNat =
        (2 ^ 64 - 1 + s.record.sumWaitClientConn.toNat) % 2 ^ 64 := by
      simp [recordStartHandingConn, UInt64.toNat_sub]
    have more : (recordStartHandingConn s.record).sumHandingClientConn.toNat =
        (s.record.sumHandingClientConn.toNat + 1) % 2 ^ 64 := by
      simp [recordStartHandingConn, UInt64.toNat_add]
    cases recorded : (s.clients id).recorded with
    | false =>
      refine iff_of_false ?_ (by simp [Timely, recorded])
      intro gauged
      -- The worker takes one from the sum, to which the accept thread has not added it yet.
      have counted : (recordStartHandingConn s.record).sumWaitClientConn.toNat = _ := gauged.wait
      rw [number_goto, census_update_same inside (by simp [Client.Waiting, recorded]), fewer]
        at counted
      change _ = s.number Client.Waiting at counted
      omega
    | true =>
      refine iff_of_true ?_ recorded
      have waits := @census_update_loss _ _ _ s.clients Client.Waiting _ _ ⟨.started, true⟩ _ inside
        ⟨recorded, Or.inr stage⟩ (by decide)
      have handles := @census_update_gain _ _ _ s.clients Client.Started
        _ _ ⟨.started, true⟩ _ inside
        (by simp [Client.Started, stage]) rfl
      change _ = s.number Client.Waiting at waits
      change _ = s.number Client.Started + 1 at handles
      refine ⟨?_, ?_, ?_⟩
      · rw [number_goto]
        show (recordStartHandingConn s.record).sumWaitClientConn.toNat = _
        omega
      · rw [number_goto, handles]
        show (recordStartHandingConn s.record).sumHandingClientConn.toNat = _
        omega
      · rw [number_goto, census_update_same inside (by simp [Client.Open, stage, recorded])]
        exact current
  · simp at moved

/-- Closing a client that a worker has started with counts right. -/
theorem Inv.gauged_close (inv : s.Inv) {id : Nat} (moved : s.next (.close id) = some t) :
    t.Gauged ∧ ¬ s.Wraps (.close id) := by
  obtain ⟨wait, handing, current⟩ := inv.gauged
  simp only [next] at moved
  split at moved
  · rename_i guard
    obtain ⟨made, stage⟩ := guard
    obtain rfl := Option.some.inj moved
    have inside := Finset.mem_range.mpr made
    have recorded := inv.started id made stage
    have sumHanding := s.record.sumHandingClientConn.toNat_lt
    have sumCurrent := s.record.sumCurrentClientConn.toNat_lt
    -- One is subtracted from both sums with 64 bits, which is right as the client is counted in
    -- both.
    have fewer : (recordCloseClientConn s.record).sumHandingClientConn.toNat =
        (2 ^ 64 - 1 + s.record.sumHandingClientConn.toNat) % 2 ^ 64 := by
      simp [recordCloseClientConn, UInt64.toNat_sub]
    have fewer' : (recordCloseClientConn s.record).sumCurrentClientConn.toNat =
        (2 ^ 64 - 1 + s.record.sumCurrentClientConn.toNat) % 2 ^ 64 := by
      simp [recordCloseClientConn, UInt64.toNat_sub]
    have handles := @census_update_loss _ _ _ s.clients Client.Started _ _ ⟨.closed, true⟩ _ inside
      stage (by decide)
    have opens := @census_update_loss _ _ _ s.clients Client.Open _ _ ⟨.closed, true⟩ _ inside
      ⟨recorded, by simp [stage]⟩ (by decide)
    change _ = s.number Client.Started at handles
    change _ = s.number Client.Open at opens
    refine ⟨⟨?_, ?_, ?_⟩, ?_⟩
    · rw [number_goto, census_update_same inside (by simp [Client.Waiting, stage])]
      exact wait
    · rw [number_goto, recorded]
      show (recordCloseClientConn s.record).sumHandingClientConn.toNat = _
      omega
    · rw [number_goto, recorded]
      show (recordCloseClientConn s.record).sumCurrentClientConn.toNat = _
      omega
    · rintro (zero | zero)
      · rw [zero, UInt64.toNat_zero] at handing
        omega
      · rw [zero, UInt64.toNat_zero] at current
        omega
  · simp at moved

/-- A clear leaves the sums right exactly if nobody is counted. -/
theorem Inv.gauged_clear (inv : s.Inv) (moved : s.next .clear = some t) :
    t.Gauged ↔ s.Timely .clear := by
  have parts := inv.waiting_started_le
  obtain rfl := Option.some.inj moved
  constructor
  · intro gauged
    have zero : (0 : UInt64).toNat = s.number Client.Open := gauged.current
    exact zero.symm
  · intro timely
    have nobody : s.number Client.Open = 0 := timely
    refine ⟨?_, ?_, ?_⟩
    · show 0 = s.number Client.Waiting
      omega
    · show 0 = s.number Client.Started
      omega
    · show 0 = s.number Client.Open
      omega

/-- After a step the sums are the numbers exactly if the step was timely. -/
theorem Inv.gauged_iff (inv : s.Inv) (moved : s.next label = some t) :
    t.Gauged ↔ s.Timely label := by
  cases label with
  | accept =>
    obtain rfl := Option.some.inj moved
    refine iff_of_true ⟨?_, ?_, ?_⟩ trivial
    · rw [number_accept (by decide)]
      exact inv.gauged.wait
    · rw [number_accept (by decide)]
      exact inv.gauged.handing
    · rw [number_accept (by decide)]
      exact inv.gauged.current
  | handOff id way => exact iff_of_true (inv.gauged_handOff moved) trivial
  | recordAccept id => exact inv.gauged_recordAccept moved
  | allocTask id succeeds => exact inv.gauged_allocTask moved
  | addTask id => exact inv.gauged_addTask moved
  | close id => exact iff_of_true (inv.gauged_close moved).1 trivial
  | clear => exact inv.gauged_clear moved

/-- A timely step takes nothing from a sum that is zero. -/
theorem Inv.not_wraps (inv : s.Inv) (moved : s.next label = some t) (timely : s.Timely label) :
    ¬ s.Wraps label := by
  cases label with
  | addTask id =>
    intro zero
    have none_waits : s.number Client.Waiting = 0 := by
      rw [← inv.gauged.wait, show s.record.sumWaitClientConn = 0 from zero, UInt64.toNat_zero]
    simp only [next] at moved
    split at moved
    · rename_i guard
      exact census_eq_zero.mp none_waits id (Finset.mem_range.mpr guard.1)
        ⟨timely, Or.inr guard.2⟩
    · simp at moved
  | close id => exact (inv.gauged_close moved).2
  | _ => exact id

/-- A timely step keeps the order of each client's stages and its accept. -/
theorem Inv.next (inv : s.Inv) (timely : s.Timely label) (moved : s.next label = some t) :
    t.Inv := by
  have gauged := (inv.gauged_iff moved).mpr timely
  -- The client that the step is about is the only one to look at.
  have one : ∀ {u : Clients} {id : Nat} {client : Client}, u.made = s.made →
      u.clients = Function.update s.clients id client →
      (client.stage = .arrived → client.recorded = false) →
      (client.stage = .started → client.recorded = true) → u.Gauged → u.Inv := by
    intro u id client made clients arrived started gauged
    refine ⟨gauged, fun other below => ?_, fun other below => ?_⟩
    · rw [clients]
      by_cases self : other = id
      · subst self
        simpa using arrived
      · simpa [self] using inv.arrived other (made ▸ below)
    · rw [clients]
      by_cases self : other = id
      · subst self
        simpa using started
      · simpa [self] using inv.started other (made ▸ below)
  cases label with
  | accept =>
    obtain rfl := Option.some.inj moved
    refine ⟨gauged, fun other below => ?_, fun other below => ?_⟩
    · by_cases self : other = s.made
      · subst self
        simp [goto]
      · have old : other < s.made := Nat.lt_of_le_of_ne (Nat.lt_succ_iff.mp below) self
        simpa [goto, self] using inv.arrived other old
    · by_cases self : other = s.made
      · subst self
        simp [goto]
      · have old : other < s.made := Nat.lt_of_le_of_ne (Nat.lt_succ_iff.mp below) self
        simpa [goto, self] using inv.started other old
  | handOff id way =>
    simp only [Clients.next] at moved
    split at moved
    · split at moved <;> obtain rfl := Option.some.inj moved <;>
        exact one rfl rfl (by simp) (by simp) gauged
    · simp at moved
  | recordAccept id =>
    simp only [Clients.next] at moved
    split at moved
    · rename_i guard
      obtain rfl := Option.some.inj moved
      exact one rfl rfl (fun arrived => absurd arrived guard.2.1) (fun _ => rfl) gauged
    · simp at moved
  | allocTask id succeeds =>
    simp only [Clients.next] at moved
    split at moved
    · obtain rfl := Option.some.inj moved
      refine one rfl rfl ?_ ?_ gauged
      · cases succeeds <;> simp
      · cases succeeds <;> simp
    · simp at moved
  | addTask id =>
    simp only [Clients.next] at moved
    split at moved
    · obtain rfl := Option.some.inj moved
      exact one rfl rfl (by simp) (fun _ => timely) gauged
    · simp at moved
  | close id =>
    simp only [Clients.next] at moved
    split at moved
    · obtain rfl := Option.some.inj moved
      exact one rfl rfl (by simp) (by simp) gauged
    · simp at moved
  | clear =>
    obtain rfl := Option.some.inj moved
    exact ⟨gauged, inv.arrived, inv.started⟩

/-- The invariant holds in every timely run. -/
theorem inv_of_reachable (reached : Runs.Reachable (system.restrict Timely) s) : s.Inv := by
  -- No client is there in the beginning, and all sums are 0.
  refine reached.invariant ?_ ?_
  · intro start begun
    subst begun
    refine ⟨⟨?_, ?_, ?_⟩, ?_, ?_⟩
    · simp [new, Record.new, number]
    · simp [new, Record.new, number]
    · simp [new, Record.new, number]
    · intro id below
      exact absurd below (Nat.not_lt_zero id)
    · intro id below
      exact absurd below (Nat.not_lt_zero id)
  · intro a label b inv moved
    exact inv.next moved.1 moved.2

/-- A worker starts with the first client before the accept thread has recorded it. -/
def early : List Label := [.accept, .handOff 0 (.pipe true), .addTask 0]

end Clients

end OneProxy.Record
