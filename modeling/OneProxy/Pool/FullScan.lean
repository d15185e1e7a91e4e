import OneProxy.Lib.Runs
import OneProxy.Pool.ConnectionPoolLaws

/-! The check of the idle sockets ends early, and yet misses none of them. -/

namespace OneProxy

open ConnectionPool

/-! ## Runs under a clock -/

/-- The calls of the pool that use its clock, each with the sockets as they are then. -/
inductive ClockCall
  | saveBackendConnect (store : Store) (s : SocketId) (freeSocket activeFunc : Bool)
  | setBackendConnect (store : Store) (s : SocketId)
  | getBackendConnect (store : Store) (dbAddr : Bytes) (port : UInt32) (connArgs : Bytes)
  | checkConnectActive (store : Store) (before after : UInt64) (active : SocketId → Bool)

namespace ClockCall

/-- One call. A socket is saved in use. -/
def next (pool : ConnectionPool) : ClockCall → ConnectionPool
  | .saveBackendConnect store s freeSocket activeFunc =>
    pool.saveBackendConnect store s freeSocket activeFunc true
  | .setBackendConnect store s => (pool.setBackendConnect store s).2
  | .getBackendConnect store dbAddr port connArgs =>
    (pool.getBackendConnect store dbAddr port connArgs).2
  | .checkConnectActive store before after active =>
    (pool.checkConnectActive store before after active).2

/-- The clock does not go back. -/
def Forward (pool : ConnectionPool) : ClockCall → Prop
  | .checkConnectActive _ before after _ => pool.currentTime ≤ before ∧ before ≤ after
  | .saveBackendConnect .. | .setBackendConnect .. | .getBackendConnect .. => True

end ClockCall

/-- A new pool, with any settings under which a socket is checked before it is released. -/
def Configured (pool : ConnectionPool) : Prop :=
  ∃ now check release active, check ≤ release ∧ pool = { new now with
    idleTimeoutCheck := check, idleTimeoutRelease := release, checkActive := active }

/-- All runs in which the clock does not go back. -/
def clockRuns : Runs.System ConnectionPool ClockCall where
  init := Configured
  step pool call after := call.Forward pool ∧ call.next pool = after

/-! ## The order of the deques -/

/-- The entries of a deque are in the order in which they became idle. -/
def InOrder (sid : List SockInfo) : Prop :=
  sid.Pairwise fun si later => si.startUseTime ≤ later.startUseTime

/-- The deques are in order, nothing is newer than the clock, and the settings are in order. -/
structure Timed (pool : ConnectionPool) : Prop where
  inOrder : ∀ hash, InOrder (pool.idleAt hash)
  past : ∀ hash, ∀ si ∈ pool.idleAt hash, si.startUseTime ≤ pool.currentTime
  settings : pool.idleTimeoutCheck ≤ pool.idleTimeoutRelease

/-- A newly configured pool has nothing idle. -/
theorem timed_of_configured {pool : ConnectionPool} (configured : Configured pool) :
    Timed pool := by
  obtain ⟨now, check, release, active, settings, rfl⟩ := configured
  have nothing : ∀ hash, idleAt { new now with
      idleTimeoutCheck := check, idleTimeoutRelease := release, checkActive := active } hash = [] :=
    fun hash => idleAt_new now hash
  refine ⟨fun hash => ?_, fun hash si member => ?_, settings⟩
  · rw [InOrder, nothing hash]
    exact List.Pairwise.nil
  · rw [nothing hash] at member
    exact absurd member List.not_mem_nil

/-- Deques that lose entries only stay in order while the clock goes on. -/
theorem Timed.of_sublist {pool after : ConnectionPool} (timed : Timed pool)
    (fewer : ∀ hash, (after.idleAt hash).Sublist (pool.idleAt hash))
    (forward : pool.currentTime ≤ after.currentTime)
    (check : after.idleTimeoutCheck = pool.idleTimeoutCheck)
    (release : after.idleTimeoutRelease = pool.idleTimeoutRelease) : Timed after where
  inOrder hash := (timed.inOrder hash).sublist (fewer hash)
  past hash si member :=
    UInt64.le_trans (timed.past hash si ((fewer hash).subset member)) forward
  settings := by
    rw [check, release]
    exact timed.settings

/-- A socket that is taken is the last one of its deque. -/
theorem Timed.get {pool : ConnectionPool} (timed : Timed pool) (store : Store) (dbAddr : Bytes)
    (port : UInt32) (connArgs : Bytes) :
    Timed (pool.getBackendConnect store dbAddr port connArgs).2 := by
  have kept : (pool.getBackendConnect store dbAddr port connArgs).2.currentTime = pool.currentTime ∧
      (pool.getBackendConnect store dbAddr port connArgs).2.idleTimeoutCheck =
        pool.idleTimeoutCheck ∧
      (pool.getBackendConnect store dbAddr port connArgs).2.idleTimeoutRelease =
        pool.idleTimeoutRelease := by
    rw [getBackendConnect]
    split
    · exact ⟨rfl, rfl, rfl⟩
    · dsimp only
      split
      · exact ⟨rfl, rfl, rfl⟩
      · split <;> exact ⟨rfl, rfl, rfl⟩
  -- What is left of a deque is its front, in the same order.
  obtain ⟨same, check, release⟩ := kept
  refine timed.of_sublist (fun hash => ?_) (UInt64.le_of_eq same.symm) check release
  rcases getBackendConnect_cases pool store dbAddr port connArgs with
    ⟨unchanged, _⟩ | ⟨front, si, after, taken, whole, idle, _⟩
  · rw [unchanged]
  · rw [taken, idle hash]
    split
    · next here =>
      rw [← here, whole]
      exact List.sublist_append_left front [si]
    · exact List.Sublist.refl _

/-- A socket that is returned is the newest one of its deque. -/
theorem Timed.set {pool : ConnectionPool} (timed : Timed pool) (store : Store) (s : SocketId) :
    Timed (pool.setBackendConnect store s).2 := by
  have kept : (pool.setBackendConnect store s).2.currentTime = pool.currentTime ∧
      (pool.setBackendConnect store s).2.idleTimeoutCheck = pool.idleTimeoutCheck ∧
      (pool.setBackendConnect store s).2.idleTimeoutRelease = pool.idleTimeoutRelease := by
    rw [setBackendConnect]
    split
    · exact ⟨rfl, rfl, rfl⟩
    · split <;> exact ⟨rfl, rfl, rfl⟩
  obtain ⟨same, check, release⟩ := kept
  rcases setBackendConnect_cases pool store s with ⟨unchanged, _⟩ | ⟨si, after, done, _, idle, _⟩
  · rw [unchanged]
    exact timed
  · rw [done] at same check release ⊢
    refine ⟨fun hash => ?_, fun hash other member => ?_, ?_⟩
    · rw [idle hash]
      split
      · -- Whatever is in the deque became idle before now.
        refine List.pairwise_append.mpr ⟨timed.inOrder hash, List.pairwise_singleton _ _, ?_⟩
        intro older member newest is_
        rw [List.mem_singleton.mp is_]
        exact timed.past hash older member
      · exact timed.inOrder hash
    · rw [same]
      rw [idle hash] at member
      split at member
      · rcases List.mem_append.mp member with before | newest
        · exact timed.past hash other before
        · rw [List.mem_singleton.mp newest]
          exact UInt64.le_refl _
      · exact timed.past hash other member
    · rw [check, release]
      exact timed.settings

/-- A call keeps the order. -/
theorem Timed.next {pool : ConnectionPool} (timed : Timed pool) {call : ClockCall}
    (forward : call.Forward pool) : Timed (call.next pool) := by
  cases call with
  | saveBackendConnect store s freeSocket activeFunc =>
    exact timed.of_sublist (fun hash => List.Sublist.refl _) (UInt64.le_refl _) rfl rfl
  | setBackendConnect store s => exact timed.set store s
  | getBackendConnect store dbAddr port connArgs => exact timed.get store dbAddr port connArgs
  | checkConnectActive store before after active =>
    refine timed.of_sublist (fun hash => ?_) (UInt64.le_trans forward.1 forward.2) rfl rfl
    rw [ClockCall.next, (checkConnectActive_spec pool store before after active).2.1 hash]
    exact sweep_sublist _ active _

/-- Every run keeps the order. -/
theorem timed_of_reachable {pool : ConnectionPool} (reached : Runs.Reachable clockRuns pool) :
    Timed pool := by
  have start : ∀ s, clockRuns.init s → Timed s := fun s configured => timed_of_configured configured
  refine reached.invariant start ?_
  intro pool call after timed step
  obtain ⟨forward, rfl⟩ := step
  exact timed.next forward

/-! ## The full scan -/

namespace ConnectionPool

/-- An idle socket is released, or has not been used for long and does not answer. -/
def Expired (pool : ConnectionPool) (active : SocketId → Bool) (si : SockInfo) : Prop :=
  pool.currentTime - si.startUseTime > pool.idleTimeoutRelease ∨
    pool.currentTime - si.startUseTime > pool.idleTimeoutCheck ∧ pool.checkActive = true ∧
      si.activeFunc = true ∧ active si.socket = false

instance (pool : ConnectionPool) (active : SocketId → Bool) (si : SockInfo) :
    Decidable (pool.Expired active si) := inferInstanceAs (Decidable (_ ∨ _))

/-- Nothing behind an entry that was used recently is expired. -/
theorem not_expired_of_recent {pool : ConnectionPool} (active : SocketId → Bool)
    {si later : SockInfo}
    (settings : pool.idleTimeoutCheck ≤ pool.idleTimeoutRelease)
    (recent : pool.currentTime - si.startUseTime ≤ pool.idleTimeoutCheck)
    (order : si.startUseTime ≤ later.startUseTime) (past : later.startUseTime ≤ pool.currentTime) :
    ¬ pool.Expired active later := by
  -- The later entry is not older, as neither age wraps around.
  have younger : pool.currentTime - later.startUseTime ≤ pool.currentTime - si.startUseTime := by
    rw [UInt64.le_iff_toNat_le] at order past ⊢
    rw [UInt64.toNat_sub_of_le _ _ (UInt64.le_iff_toNat_le.mpr past),
      UInt64.toNat_sub_of_le _ _ (UInt64.le_iff_toNat_le.mpr (Nat.le_trans order past))]
    omega
  have checked := UInt64.le_trans younger recent
  intro expired
  rcases expired with released | ⟨old, _⟩
  · exact UInt64.not_lt.mpr (UInt64.le_trans checked settings) released
  · exact UInt64.not_lt.mpr checked old

/-- The walk over a deque in order keeps and destroys what a full scan would. -/
theorem sweep_eq_filter (pool : ConnectionPool) (active : SocketId → Bool)
    (settings : pool.idleTimeoutCheck ≤ pool.idleTimeoutRelease) (sid : List SockInfo)
    (order : InOrder sid) (past : ∀ si ∈ sid, si.startUseTime ≤ pool.currentTime) :
    pool.sweep active sid =
      (sid.filter fun si => ¬ pool.Expired active si,
        sid.filter fun si => pool.Expired active si) := by
  induction sid with
  | nil => rfl
  | cons si rest ih =>
    obtain ⟨first, order⟩ := List.pairwise_cons.mp order
    have pastRest : ∀ si ∈ rest, si.startUseTime ≤ pool.currentTime :=
      fun si member => past si (List.mem_cons_of_mem _ member)
    rw [sweep]
    split
    · next recent =>
      -- The walk ends here, and a full scan would find nothing from here on.
      have none_ : ∀ later ∈ si :: rest, ¬ pool.Expired active later := by
        intro later member
        refine not_expired_of_recent active settings recent ?_ (past later member)
        rcases List.mem_cons.mp member with rfl | member
        · exact UInt64.le_refl _
        · exact first later member
      rw [List.filter_eq_self.mpr (by simpa using none_),
        List.filter_eq_nil_iff.mpr (by simpa using none_)]
    · next old =>
      rw [ih order pastRest]
      have old := UInt64.not_le.mp old
      dsimp only
      split
      · next released =>
        have expired : pool.Expired active si := .inl released
        simp [expired]
      · next notReleased =>
        split
        · next unchecked =>
          have kept : ¬ pool.Expired active si := by
            intro expired
            rcases expired with released | ⟨_, on, probe, _⟩
            · exact notReleased released
            · rcases unchecked with off | off
              · exact absurd probe (by simp [off])
              · exact absurd on (by simp [off])
          simp [kept]
        · next checked =>
          obtain ⟨probe, on⟩ := not_or.mp checked
          split
          · next dead =>
            have expired : pool.Expired active si :=
              .inr ⟨old, Bool.eq_true_of_not_eq_false on, Bool.eq_true_of_not_eq_false probe, dead⟩
            simp [expired]
          · next answers =>
            have kept : ¬ pool.Expired active si := by
              intro expired
              rcases expired with released | ⟨_, _, _, dead⟩
              · exact notReleased released
              · exact answers dead
            simp [kept]

/-- All idle entries. -/
def idleEntries (pool : ConnectionPool) : List SockInfo :=
  pool.idleSock.toList.flatMap fun entry => entry.2

end ConnectionPool

/-- Every deque is in order, and a check removes and destroys exactly the expired entries. -/
theorem checkConnectActive_fullScan {pool : ConnectionPool}
    (reached : Runs.Reachable clockRuns pool) :
    (∀ hash, InOrder (pool.idleAt hash)) ∧
      ∀ store before after active, pool.currentTime ≤ before →
        let expired := Expired { pool with currentTime := before } active
        let checked := pool.checkConnectActive store before after active
        (∀ hash, checked.2.idleAt hash = (pool.idleAt hash).filter fun si => ¬ expired si) ∧
          checked.1 = (pool.idleEntries.filter fun si => expired si).foldl
              SockInfo.delete store := by
  have timed := timed_of_reachable reached
  refine ⟨timed.inOrder, fun store before after active forward => ?_⟩
  have swept : ∀ hash, sweep { pool with currentTime := before } active (pool.idleAt hash) = _ :=
    fun hash => sweep_eq_filter { pool with currentTime := before } active timed.settings
      (pool.idleAt hash) (timed.inOrder hash)
      fun si member => UInt64.le_trans (timed.past hash si member) forward
  obtain ⟨destroyed, idle, _⟩ := checkConnectActive_spec pool store before after active
  refine ⟨fun hash => ?_, ?_⟩
  · rw [idle hash, swept hash]
  · rw [destroyed, dropped, idleEntries, List.filter_flatMap]
    congr 1
    -- Each deque of the map is the one that is found under its hash.
    refine List.flatMap_congr fun entry member => ?_
    have found := Std.TreeMap.mem_toList_iff_getElem?_eq_some.mp member
    have here : pool.idleAt entry.1 = entry.2 := by rw [idleAt, found]; rfl
    change (sweep { pool with currentTime := before } active entry.2).2 = _
    rw [← here, swept]

/-- A store with one socket. -/
def oneSocket : Store where
  object _ := { NetworkSocket.new [] 3306 with fd := 7 }
  made := 1
  freed := []
  dataBase _ := ⟨[], 0, 0, 0, 0, true⟩

/-- A pool in which it is idle since the time 0. -/
def oneIdle : ConnectionPool :=
  let used := ClockCall.next { new 0 with checkActive := true }
    (.saveBackendConnect oneSocket 0 true true)
  ClockCall.next used (.setBackendConnect oneSocket 0)

theorem checkConnectActive_fullScan_oneIdle :
    (∀ hash, InOrder (oneIdle.idleAt hash)) ∧
      ∀ store before after active, oneIdle.currentTime ≤ before →
        let expired := Expired { oneIdle with currentTime := before } active
        let checked := oneIdle.checkConnectActive store before after active
        (∀ hash, checked.2.idleAt hash = (oneIdle.idleAt hash).filter fun si => ¬ expired si) ∧
          checked.1 =
            (oneIdle.idleEntries.filter fun si => expired si).foldl SockInfo.delete store := by
  have configured : Configured { new 0 with checkActive := true } :=
    ⟨0, 1000, 60000, true, by decide, rfl⟩
  have begun : Runs.Reachable clockRuns { new 0 with checkActive := true } := .start configured
  have used : Runs.Reachable clockRuns _ :=
    begun.next (l := .saveBackendConnect oneSocket 0 true true) ⟨trivial, rfl⟩
  exact checkConnectActive_fullScan (used.next (l := .setBackendConnect oneSocket 0) ⟨trivial, rfl⟩)

/-- Without an answer the socket is destroyed after two seconds, and not after one. -/
example : (oneIdle.checkConnectActive oneSocket 2000 2000 fun _ => false).1.freed = [0] ∧
    (oneIdle.checkConnectActive oneSocket 1000 1000 fun _ => false).1.freed = [] := by
  decide +kernel

end OneProxy
