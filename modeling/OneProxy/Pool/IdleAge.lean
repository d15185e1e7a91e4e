import OneProxy.Lib.AllAlong
import OneProxy.Pool.Isolation

/-! Whether the age of an idle connection is counted from when it became idle. -/

namespace OneProxy

open ConnectionPool Runs

namespace ConnectionPool

/-! ## Which entries a check destroys -/

variable {pool after : ConnectionPool} {store : Store}

/-- The entries that the walk over a deque comes to, those before the first one used recently. -/
def walked (pool : ConnectionPool) (sid : List SockInfo) : List SockInfo :=
  sid.takeWhile fun si => ¬ pool.currentTime - si.startUseTime ≤ pool.idleTimeoutCheck

/-- The walk destroys an entry it comes to for its age, or as its socket does not answer. -/
def Doomed (pool : ConnectionPool) (active : SocketId → Bool) (si : SockInfo) : Prop :=
  pool.currentTime - si.startUseTime > pool.idleTimeoutRelease ∨
    si.activeFunc = true ∧ pool.checkActive = true ∧ active si.socket = false

/-- The entries that the walk destroys are those it comes to that are doomed. -/
theorem mem_sweep_dropped (active : SocketId → Bool) (sid : List SockInfo) {si : SockInfo} :
    si ∈ (pool.sweep active sid).2 ↔ si ∈ pool.walked sid ∧ pool.Doomed active si := by
  induction sid with
  | nil => simp [sweep, walked]
  | cons first rest ih =>
    by_cases recent : pool.currentTime - first.startUseTime ≤ pool.idleTimeoutCheck
    · simp [sweep, walked, recent]
    · have more : pool.walked (first :: rest) = first :: pool.walked rest :=
        List.takeWhile_cons_of_pos (by simpa using recent)
      rw [more, List.mem_cons, or_and_right, ← ih]
      -- What is left to see is that the first entry is destroyed exactly if it is doomed.
      have single : (si = first ∧ pool.Doomed active si) ↔ si = first ∧ pool.Doomed active first :=
        and_congr_right fun same => by rw [same]
      rw [single]
      simp only [sweep, if_neg recent]
      split
      · next old => simp [Doomed, old]
      · next young =>
        split
        · next unchecked =>
          have spared : ¬ pool.Doomed active first := by
            rintro (old | ⟨asks, on, -⟩)
            · exact young old
            · rcases unchecked with noFunc | off
              · rw [asks] at noFunc
                cases noFunc
              · rw [on] at off
                cases off
          simp [spared]
        · next checked =>
          rw [not_or, Bool.not_eq_false, Bool.not_eq_false] at checked
          split
          · next silent => simp [Doomed, checked, silent]
          · next answers => simp [Doomed, young, answers]

/-- A socket leaves the deques in a check exactly if the walk destroys its entry. -/
theorem left_iff (core : PoolCore store pool) (before after : UInt64) (active : SocketId → Bool)
    {s : SocketId} :
    (s ∈ pool.idleSockets ∧
        s ∉ (pool.checkConnectActive store before after active).2.idleSockets) ↔
      ∃ hash, ∃ si ∈ (sweep { pool with currentTime := before } active (pool.idleAt hash)).2,
        si.socket = s := by
  obtain ⟨-, kept, -⟩ := checkConnectActive_spec pool store before after active
  have parted := fun hash => sweep_perm { pool with currentTime :=
    before } active (pool.idleAt hash)
  constructor
  · rintro ⟨idle, gone⟩
    obtain ⟨hash, here⟩ := mem_idleSockets.mp idle
    obtain ⟨si, member, same⟩ := List.mem_map.mp here
    rcases List.mem_append.mp ((parted hash).mem_iff.mpr member) with stays | leaves
    · exact absurd (mem_idleSockets.mpr ⟨hash, by
        rw [idleIds, kept hash]
        exact same ▸ List.mem_map_of_mem stays⟩) gone
    · exact ⟨hash, si, leaves, same⟩
  · rintro ⟨hash, si, leaves, rfl⟩
    have member : si.socket ∈ pool.idleIds hash :=
      List.mem_map_of_mem ((parted hash).mem_iff.mp (List.mem_append_right _ leaves))
    refine ⟨mem_idleSockets.mpr ⟨hash, member⟩, ?_⟩
    intro still
    obtain ⟨hash', here⟩ := mem_idleSockets.mp still
    rw [idleIds, kept hash'] at here
    -- An entry that is kept is under the same hash, and so would be there twice.
    have old : si.socket ∈ pool.idleIds hash' :=
      ((sweep_sublist _ active (pool.idleAt hash')).map SockInfo.socket).subset here
    obtain rfl := core.idleApart hash hash' si.socket member old
    have nodup := ((parted hash).map SockInfo.socket).nodup_iff.mpr (core.idleNodup hash)
    rw [List.map_append] at nodup
    exact List.disjoint_of_nodup_append nodup here (List.mem_map_of_mem leaves)

end ConnectionPool

/-! ## Since when sockets have been idle -/

/-- An idle socket that a check released: since when it was idle, the time, and the timeout. -/
structure IdleRelease where
  since : UInt64
  time : UInt64
  timeout : UInt64
  deriving DecidableEq

/-- The socket had been idle for longer than the timeout. -/
def IdleRelease.Due (release : IdleRelease) : Prop :=
  release.since.toNat + release.timeout.toNat < release.time.toNat

instance (release : IdleRelease) : Decidable release.Due :=
  inferInstanceAs (Decidable (release.since.toNat + release.timeout.toNat < release.time.toNat))

/-- What has been idle for longer is seen to be by the unsigned difference. -/
theorem IdleRelease.Due.exceeds {since time timeout : UInt64}
    (due : (IdleRelease.mk since time timeout).Due) :
    time - since > timeout := by
  have longer : since.toNat + timeout.toNat < time.toNat := due
  have begun : since ≤ time := UInt64.le_iff_toNat_le.mpr (by omega)
  rw [gt_iff_lt, UInt64.lt_iff_toNat_lt, UInt64.toNat_sub_of_le _ _ begun]
  omega

/-- The unsigned difference is right unless the clock is behind and the difference wraps around. -/
theorem due_of_exceeds_iff (since time timeout : UInt64) :
    (time - since > timeout → (IdleRelease.mk since time timeout).Due) ↔
      since ≤ time ∨ time - since ≤ timeout := by
  by_cases begun : since ≤ time
  · refine iff_of_true (fun exceeds => ?_) (.inl begun)
    rw [gt_iff_lt, UInt64.lt_iff_toNat_lt, UInt64.toNat_sub_of_le _ _ begun] at exceeds
    show since.toNat + timeout.toNat < time.toNat
    omega
  · constructor
    · intro seen
      refine .inr (UInt64.not_lt.mp fun exceeds => begun ?_)
      have longer : since.toNat + timeout.toNat < time.toNat := seen exceeds
      exact UInt64.le_iff_toNat_le.mpr (by omega)
    · rintro (ahead | within) exceeds
      · exact absurd ahead begun
      · exact absurd exceeds (UInt64.not_lt.mpr within)

/-- The pool, since when each socket has been idle, and the idle sockets that checks released. -/
structure IdleAges where
  st : PoolState
  /-- The time of the pool when the socket last became idle. -/
  since : SocketId → UInt64
  released : List IdleRelease

namespace IdleAges

/-- An empty pool. -/
def initial (now : UInt64) : IdleAges := ⟨.initial now, fun _ => 0, []⟩

/-- A socket that is idle after a call and was not before has become idle in it. -/
def sinceAfter (ages : IdleAges) (after : PoolState) (s : SocketId) : UInt64 :=
  if s ∈ after.pool.idleSockets ∧ s ∉ ages.st.pool.idleSockets then ages.st.pool.currentTime
  else ages.since s

/-- The idle sockets that a check released are those that are idle no more. -/
def releasedBy (ages : IdleAges) (after : PoolState) : PoolCall → List IdleRelease
  | .checkConnectActive before _ _ =>
    (ages.st.pool.idleSockets.filter fun s => s ∉ after.pool.idleSockets).map fun s =>
      ⟨ages.since s, before, ages.st.pool.idleTimeoutRelease⟩
  | _ => []

/-- One call of the pool. -/
def next (ages : IdleAges) (call : PoolCall) : Option IdleAges :=
  (ages.st.step call).map fun after =>
    ⟨after, ages.sinceAfter after, ages.released ++ ages.releasedBy after call⟩

/-- The entry of each idle socket has the time at which the socket became idle. -/
def Timed (ages : IdleAges) : Prop :=
  ∀ hash, ∀ si ∈ ages.st.pool.idleAt hash, si.startUseTime = ages.since si.socket

/-- Ages are measured from becoming idle, and no check released a socket before its time. -/
structure Measured (ages : IdleAges) : Prop where
  timed : ages.Timed
  due : ∀ release ∈ ages.released, release.Due

/--
What a call must be for the ages to stay right.

A connection is saved idle only at time zero, which is what its entry says. No socket that a check
comes to became idle later than the clock reads, unless the difference that wraps around is within
the timeout, and those that are asked and do not answer have been idle for longer than it.
-/
def Suits (ages : IdleAges) : PoolCall → Prop
  | .saveBackendConnect _ _ _ isUsing => isUsing = true ∨ ages.st.pool.currentTime = 0
  | .checkConnectActive before _ active =>
    ∀ hash, ∀ si ∈ walked { ages.st.pool with currentTime := before } (ages.st.pool.idleAt hash),
      (ages.since si.socket ≤ before ∨
          before - ages.since si.socket ≤ ages.st.pool.idleTimeoutRelease) ∧
        (si.activeFunc = true → ages.st.pool.checkActive = true → active si.socket = false →
          (ages.since si.socket).toNat + ages.st.pool.idleTimeoutRelease.toNat < before.toNat)
  | _ => True

variable {ages : IdleAges} {after : PoolState}

/-- Nothing becomes idle in a call after which nothing is idle that was not before. -/
theorem sinceAfter_of_shrinks
    (shrinks : ∀ hash, ∀ si ∈ after.pool.idleAt hash, si ∈ ages.st.pool.idleAt hash) :
    ages.sinceAfter after = ages.since := by
  funext s
  apply if_neg
  rintro ⟨idle, notBefore⟩
  obtain ⟨hash, here⟩ := mem_idleSockets.mp idle
  obtain ⟨si, member, rfl⟩ := List.mem_map.mp here
  exact notBefore (mem_idleSockets.mpr ⟨hash, List.mem_map_of_mem (shrinks hash si member)⟩)

/-- What stays idle keeps its time. -/
theorem timed_of_shrinks (timed : ages.Timed)
    (shrinks : ∀ hash, ∀ si ∈ after.pool.idleAt hash, si ∈ ages.st.pool.idleAt hash)
    (released : List IdleRelease) : Timed ⟨after, ages.sinceAfter after, released⟩ := by
  intro hash si member
  show si.startUseTime = ages.sinceAfter after si.socket
  rw [sinceAfter_of_shrinks shrinks]
  exact timed hash si (shrinks hash si member)

/-- Where one socket becomes idle, all depends on the time that its entry has. -/
theorem timed_of_arrival_iff (timed : ages.Timed) {new : SockInfo} {home : UInt32}
    (arrives : ∀ hash si, si ∈ after.pool.idleAt hash ↔
      si ∈ ages.st.pool.idleAt hash ∨ home = hash ∧ si = new)
    (fresh : new.socket ∉ ages.st.pool.idleSockets) (released : List IdleRelease) :
    Timed ⟨after, ages.sinceAfter after, released⟩ ↔
      new.startUseTime = ages.st.pool.currentTime := by
  have member : new ∈ after.pool.idleAt home := (arrives home new).mpr (.inr ⟨rfl, rfl⟩)
  have begins : ages.sinceAfter after new.socket = ages.st.pool.currentTime :=
    if_pos ⟨mem_idleSockets.mpr ⟨home, List.mem_map_of_mem member⟩, fresh⟩
  constructor
  · intro all
    exact (all home new member).trans begins
  · intro right hash si inside
    rcases (arrives hash si).mp inside with old | ⟨-, rfl⟩
    · have same : ages.sinceAfter after si.socket = ages.since si.socket :=
        if_neg fun both => both.2 (mem_idleSockets.mpr ⟨hash, List.mem_map_of_mem old⟩)
      exact (timed hash si old).trans same.symm
    · exact right.trans begins.symm

/-- A check that destroys only what is doomed is right exactly if what is doomed is due. -/
theorem check_measured_iff (filed : Filed ages.st) (measured : ages.Measured)
    {before later : UInt64} {active : SocketId → Bool} {after : IdleAges}
    (moved : ages.next (.checkConnectActive before later active) = some after) :
    after.Measured ↔ ages.Suits (.checkConnectActive before later active) := by
  obtain rfl := Option.some.inj moved
  have shrinks := fun hash => (sweep_sublist { ages.st.pool with currentTime := before } active
    (ages.st.pool.idleAt hash)).subset
  have timed := fun released => @timed_of_shrinks ages
    ⟨(ages.st.pool.checkConnectActive ages.st.store before later active).1,
      (ages.st.pool.checkConnectActive ages.st.store before later active).2,
      ages.st.returnedArgs, ages.st.handouts⟩ measured.timed (by
        intro hash si member
        rw [(checkConnectActive_spec _ _ _ _ _).2.1 hash] at member
        exact shrinks hash member) released
  -- Whether an entry may be destroyed is asked of its age and of its answer in turn.
  have each : ∀ hash, ∀ si ∈ ages.st.pool.idleAt hash,
      (Doomed { ages.st.pool with currentTime := before } active si →
          (IdleRelease.mk (ages.since si.socket) before ages.st.pool.idleTimeoutRelease).Due) ↔
        (ages.since si.socket ≤ before ∨
            before - ages.since si.socket ≤ ages.st.pool.idleTimeoutRelease) ∧
          (si.activeFunc = true → ages.st.pool.checkActive = true → active si.socket = false →
            (ages.since si.socket).toNat + ages.st.pool.idleTimeoutRelease.toNat <
              before.toNat) := by
    intro hash si member
    rw [Doomed, measured.timed hash si member, or_imp, due_of_exceeds_iff, and_imp, and_imp]
    rfl
  have inside : ∀ hash, ∀ si ∈ walked { ages.st.pool with currentTime := before }
      (ages.st.pool.idleAt hash), si ∈ ages.st.pool.idleAt hash :=
    fun hash si member => (List.takeWhile_sublist _).subset member
  constructor
  · intro good hash si member
    apply (each hash si (inside hash si member)).mp
    intro doomed
    have leaves := (left_iff filed.core before later active).mpr ⟨hash, si,
      (mem_sweep_dropped active (ages.st.pool.idleAt hash)).mpr ⟨member, doomed⟩, rfl⟩
    apply good.due
    apply List.mem_append_right
    exact List.mem_map.mpr ⟨si.socket, List.mem_filter.mpr ⟨leaves.1, decide_eq_true leaves.2⟩, rfl⟩
  · intro suits
    refine ⟨timed _, ?_⟩
    intro release member
    rcases List.mem_append.mp member with old | new
    · exact measured.due release old
    · obtain ⟨s, gone, rfl⟩ := List.mem_map.mp new
      obtain ⟨idle, left⟩ := List.mem_filter.mp gone
      obtain ⟨hash, si, dropped, rfl⟩ :=
        (left_iff filed.core before later active).mp ⟨idle, of_decide_eq_true left⟩
      obtain ⟨comes, doomed⟩ := (mem_sweep_dropped active _).mp dropped
      exact (each hash si (inside hash si comes)).mpr (suits hash si comes) doomed

/-- A call that lets nothing become idle and is no check leaves the ages right. -/
theorem Measured.of_shrinks (measured : ages.Measured) {call : PoolCall}
    (quiet : ages.releasedBy after call = [])
    (shrinks : ∀ hash, ∀ si ∈ after.pool.idleAt hash, si ∈ ages.st.pool.idleAt hash) :
    Measured ⟨after, ages.sinceAfter after, ages.released ++ ages.releasedBy after call⟩ := by
  refine ⟨timed_of_shrinks measured.timed shrinks _, ?_⟩
  rw [quiet, List.append_nil]
  exact measured.due

/-- A call that is no check and lets one socket become idle is right if its entry's time is. -/
theorem arrival_measured_iff (measured : ages.Measured) {call : PoolCall} {new : SockInfo}
    {home : UInt32} (quiet : ages.releasedBy after call = [])
    (arrives : ∀ hash si, si ∈ after.pool.idleAt hash ↔
      si ∈ ages.st.pool.idleAt hash ∨ home = hash ∧ si = new)
    (fresh : new.socket ∉ ages.st.pool.idleSockets) :
    Measured ⟨after, ages.sinceAfter after, ages.released ++ ages.releasedBy after call⟩ ↔
      new.startUseTime = ages.st.pool.currentTime := by
  rw [quiet, List.append_nil, ← timed_of_arrival_iff measured.timed arrives fresh ages.released]
  exact ⟨Measured.timed, fun timed => ⟨timed, measured.due⟩⟩

/-- Membership in the one deque that an entry is added to, and in the others. -/
theorem mem_ite_iff {home hash : UInt32} {new si : SockInfo} {more old : List SockInfo}
    (added : si ∈ more ↔ si ∈ old ∨ si = new) :
    (si ∈ if home = hash then more else old) ↔ si ∈ old ∨ home = hash ∧ si = new := by
  by_cases here : home = hash
  · rw [if_pos here, added]
    simp [here]
  · rw [if_neg here]
    simp [here]

/-- A returned socket becomes idle at the time of the pool. -/
theorem set_measured (filed : Filed ages.st) (measured : ages.Measured) {s : SocketId}
    {after : IdleAges} (moved : ages.next (.setBackendConnect s) = some after) :
    after.Measured := by
  obtain ⟨st, done, rfl⟩ := Option.map_eq_some_iff.mp moved
  simp only [PoolState.step] at done
  split at done
  · next live =>
    obtain rfl := Option.some.inj done
    rcases setBackendConnect_cases ages.st.pool ages.st.store s with
      ⟨same, -⟩ | ⟨si, pool, returned, found, idle, -⟩
    · apply measured.of_shrinks rfl
      rw [same]
      exact fun hash si member => member
    · refine (@arrival_measured_iff ages _ measured (.setBackendConnect s)
        { si with startUseTime := ages.st.pool.currentTime } (hashOf ages.st.store s) rfl ?_ ?_).mpr
        rfl
      · intro hash other
        rw [returned]
        show other ∈ pool.idleAt hash ↔ _
        rw [idle hash]
        exact mem_ite_iff (by simp)
      · -- A used socket is not idle.
        intro already
        obtain ⟨hash, member⟩ := mem_idleSockets.mp already
        exact filed.core.usedApart _ si hash found member
  · cases done

/-- A saved socket is idle since now, and its entry says since never. -/
theorem save_measured_iff (measured : ages.Measured) {s : SocketId}
    {freeSocket activeFunc isUsing : Bool} {after : IdleAges}
    (moved : ages.next (.saveBackendConnect s freeSocket activeFunc isUsing) = some after) :
    after.Measured ↔ ages.Suits (.saveBackendConnect s freeSocket activeFunc isUsing) := by
  obtain ⟨st, done, rfl⟩ := Option.map_eq_some_iff.mp moved
  simp only [PoolState.step] at done
  split at done
  · next asked =>
    obtain rfl := Option.some.inj done
    cases isUsing with
    | true => exact iff_of_true (measured.of_shrinks rfl fun hash si member => member) (.inl rfl)
    | false =>
      -- The new entry begins at 0, which is right if the clock stands there.
      have zero : ages.Suits (.saveBackendConnect s freeSocket activeFunc false) ↔
          (0 : UInt64) = ages.st.pool.currentTime := by
        simp [Suits, eq_comm]
      rw [zero]
      refine @arrival_measured_iff ages _ measured
        (.saveBackendConnect s freeSocket activeFunc false)
        ⟨s, freeSocket, activeFunc, 0⟩ (hashOf ages.st.store s) rfl ?_ ?_
      · intro hash other
        show other ∈ (ages.st.pool.saveBackendConnect ages.st.store s freeSocket activeFunc
          false).idleAt hash ↔ _
        rw [(saveBackendConnect_idle _ _ _ _ _).1 hash]
        exact mem_ite_iff (by rw [List.mem_cons, or_comm])
      · exact fun idle => asked.2.2 (.inl idle)
  · cases done

/-- A get only takes an entry away from a deque. -/
theorem get_measured (measured : ages.Measured) {request : Login} {after : IdleAges}
    (moved : ages.next (.getBackendConnect request) = some after) : after.Measured := by
  -- An entry that is still there was there before.
  obtain rfl := Option.some.inj moved
  apply measured.of_shrinks rfl
  intro hash si member
  change si ∈ (ages.st.pool.getBackendConnect ages.st.store request.dbAddr request.port
    (NetworkSocket.renderArgs request.args)).2.idleAt hash at member
  rcases getBackendConnect_cases ages.st.pool ages.st.store request.dbAddr request.port
    (NetworkSocket.renderArgs request.args) with
    ⟨same, -⟩ | ⟨front, popped, pool, given, held, idle, -⟩
  · rw [same] at member
    exact member
  · rw [given] at member
    have inside : si ∈ pool.idleAt hash := member
    rw [idle hash] at inside
    split at inside
    · next here =>
      rw [← here, held]
      exact List.mem_append_left _ inside
    · exact inside

/-- A release is about a used socket, and leaves the deques alone. -/
theorem release_measured (measured : ages.Measured) {s : SocketId} {after : IdleAges}
    (moved : ages.next (.releaseBackendSocket s) = some after) : after.Measured := by
  obtain ⟨st, done, rfl⟩ := Option.map_eq_some_iff.mp moved
  simp only [PoolState.step] at done
  split at done
  · obtain rfl := Option.some.inj done
    apply measured.of_shrinks rfl
    intro hash si member
    rcases releaseBackendSocket_cases ages.st.pool ages.st.store s with
      ⟨same, -⟩ | ⟨entry, pool, gone, -, idle, -⟩
    · rw [same] at member
      exact member
    · rw [gone] at member
      exact idle hash ▸ member
  · cases done

/-- One call leaves the ages right exactly if it suits them. -/
theorem next_measured_iff (filed : Filed ages.st) (measured : ages.Measured) {call : PoolCall}
    {after : IdleAges} (moved : ages.next call = some after) :
    after.Measured ↔ ages.Suits call := by
  cases call with
  | checkConnectActive before later active => exact check_measured_iff filed measured moved
  | saveBackendConnect s freeSocket activeFunc isUsing => exact save_measured_iff measured moved
  | setBackendConnect s => exact iff_of_true (set_measured filed measured moved) trivial
  | getBackendConnect request => exact iff_of_true (get_measured measured moved) trivial
  | releaseBackendSocket s => exact iff_of_true (release_measured measured moved) trivial
  | configure check release active =>
    obtain rfl := Option.some.inj moved
    exact iff_of_true (measured.of_shrinks rfl fun hash si member => member) trivial
  | connect dbAddr port fd | addConnArgs s key value | close s =>
    -- The pool itself is left alone.
    obtain ⟨st, done, rfl⟩ := Option.map_eq_some_iff.mp moved
    simp only [PoolState.step] at done
    split at done
    · obtain rfl := Option.some.inj done
      exact iff_of_true (measured.of_shrinks rfl fun hash si member => member) trivial
    · cases done

/-- An empty pool has no age that could be wrong. -/
theorem measured_initial (now : UInt64) : (initial now).Measured := by
  constructor
  · intro hash si member
    rw [show (initial now).st.pool.idleAt hash = [] from idleAt_new now hash] at member
    cases member
  · intro release member
    cases member

/-- All along a run of calls the ages are right exactly if each call suits them. -/
theorem measured_allAlong_iff (now : UInt64) (calls : List PoolCall) :
    (∀ front, front <+: calls → ∀ ages, exec next (initial now) front = some ages →
        ages.Measured) ↔
      ∀ front call, front ++ [call] <+: calls → ∀ ages after,
        exec next (initial now) front = some ages → ages.next call = some after →
          ages.Suits call := by
  refine @allReached_iff_of_invariant _ _ next Measured (fun ages => Filed ages.st) Suits
    (initial now) (measured_initial now) (filed_initial now) ?_ ?_ calls
  · intro ages call after filed measured moved _
    obtain ⟨st, done, rfl⟩ := Option.map_eq_some_iff.mp moved
    exact step_filed filed done
  · intro ages call after filed measured moved
    exact next_measured_iff filed measured moved

/-- A connection that is made, saved idle, and destroyed by the check of the next second. -/
def savedIdle : List PoolCall :=
  [.connect [100, 98] 3306 5, .saveBackendConnect 0 true true false,
    .checkConnectActive 1700000001000 1700000001000 fun _ => true]

/--
A connection that is saved idle is destroyed a second later, as if it were of the year 1970.

The timeout is a minute.
-/
theorem savedIdle_released : ¬ ∀ now calls, ∀ front, front <+: calls → ∀ ages,
    exec next (initial now) front = some ages → ages.Measured := by
  intro always
  have run : (exec next (initial 1700000000000) savedIdle).map IdleAges.released =
      some [⟨1700000000000, 1700000001000, 60000⟩] := by
    decide +kernel
  obtain ⟨ages, reached, seen⟩ := Option.map_eq_some_iff.mp run
  have due := (always 1700000000000 savedIdle savedIdle (List.prefix_refl _) ages reached).due
    ⟨1700000000000, 1700000001000, 60000⟩ (by rw [seen]; exact List.mem_singleton_self _)
  exact absurd due (by decide +kernel)

end IdleAges

end OneProxy
