import Mathlib.Algebra.Order.BigOperators.Group.Finset
import OneProxy.Pool.BackendLaws

/-! When the number of connections to a database stays within its limit. -/

namespace OneProxy.Backends

open Census

variable {W : Type*} [DecidableEq W] [Fintype W] {s t : Backends W}

/-- The workers past the check have room within the limit. -/
def Room (s : Backends W) : Prop :=
  ∀ db, (s.store.dataBase db).connectNum.toNat + s.passed db ≤
    (s.store.dataBase db).connectNumLimit.toNat

/--
A creation that passes the check finds room for itself besides those that have passed it before and
are not counted yet.
-/
def Counted (s : Backends W) : Label W → Prop
  | .check worker => ∀ db ns, s.workers worker = .made db ns →
    (s.store.dataBase db).connectNum < (s.store.dataBase db).connectNumLimit →
      (s.store.dataBase db).connectNum.toNat + s.passed db <
        (s.store.dataBase db).connectNumLimit.toNat
  | _ => True

/-- A step that lets no worker past the check keeps the room. -/
theorem Room.goto (room : s.Room) {worker : W} {stage : Stage}
    (stays : ∀ db, stage.passed? = some db → (s.workers worker).passed? = some db) :
    (s.goto worker stage).Room := by
  intro db
  have moved := @passed_goto W s _ _ worker stage _ _ rfl rfl db
  have within := room db
  have fewer : (s.goto worker stage).passed db ≤ s.passed db := by
    by_cases past : stage.passed? = some db
    · rw [if_pos past, if_pos (stays db past)] at moved
      omega
    · rw [if_neg past] at moved
      omega
  show (s.store.dataBase db).connectNum.toNat + (s.goto worker stage).passed db ≤
    (s.store.dataBase db).connectNumLimit.toNat
  omega

/-- A counted step keeps the room. -/
theorem Room.move {label : Label W} (room : s.Room) (counted : s.Counted label)
    (moved : Move s label t) : t.Room := by
  -- Only a check adds to those that have passed, and only a count takes one of them away.
  cases moved with
  | @make worker db address port here =>
    have on : (s.goto worker (.made db s.store.made)).Room := room.goto (by simp [Stage.passed?])
    exact on
  | refuse here full => exact room.goto (by simp [Stage.passed?])
  | refused here => exact room.goto (by simp [Stage.passed?])
  | @accept worker db ns here below =>
    intro db'
    have passed := @passed_goto W s _ _ worker (.checked db ns) none (some db)
      (by rw [here]; rfl) rfl db'
    simp only [reduceCtorEq, if_false, Nat.add_zero] at passed
    have within := room db'
    show (s.store.dataBase db').connectNum.toNat + (s.goto worker (.checked db ns)).passed db' ≤
      (s.store.dataBase db').connectNumLimit.toNat
    by_cases self : db = db'
    · subst self
      have free := counted db ns here below
      rw [if_pos rfl] at passed
      omega
    · rw [if_neg fun same => self (Option.some.inj same)] at passed
      omega
  | @connect worker db ns fd here =>
    have on : (s.goto worker (.connected db ns)).Room := by
      refine room.goto ?_
      rw [here]
      exact fun _ past => past
    exact on
  | @fail worker db ns fd here =>
    have on : (s.goto worker .idle).Room := room.goto (by simp [Stage.passed?])
    exact on
  | @setDataBase worker db ns here =>
    have on : (s.goto worker (.assigned db ns)).Room := by
      refine room.goto ?_
      rw [here]
      exact fun _ past => past
    exact on
  | @incConnectionNum worker db ns here =>
    intro db'
    have passed := @passed_goto W s _ _ worker .idle (some db) none (by rw [here]; rfl) rfl db'
    simp only [reduceCtorEq, if_false, Nat.add_zero] at passed
    have within := room db'
    show (Function.update s.store.dataBase db (s.store.dataBase db).incConnectionNum
        db').connectNum.toNat + (s.goto worker .idle).passed db' ≤
      (Function.update s.store.dataBase db (s.store.dataBase db).incConnectionNum
        db').connectNumLimit.toNat
    by_cases self : db' = db
    · subst self
      have fits := (s.store.dataBase db').connectNumLimit.toNat_lt
      rw [if_pos rfl] at passed
      rw [Function.update_self, DataBase.toNat_incConnectionNum (by omega)]
      simp only [DataBase.incConnectionNum]
      omega
    · have differ : some db ≠ some db' := fun same => self (Option.some.inj same).symm
      rw [Function.update_of_ne self]
      rw [if_neg differ] at passed
      omega
  | @delete ns live free =>
    intro db
    have within := room db
    show ((s.store.delete ns).dataBase db).connectNum.toNat + s.passed db ≤
      ((s.store.delete ns).dataBase db).connectNumLimit.toNat
    rw [Store.connectNum_delete live.2]
    split
    · have fewer := (s.store.dataBase db).decConnectionNum_le
      have limit := (s.store.dataBase db).decConnectionNum_limit
      rw [limit]
      omega
    · exact within

/-- What the counted steps keep. -/
structure Inv (s : Backends W) : Prop where
  linked : s.Linked
  balanced : s.Balanced
  room : s.Room

omit [DecidableEq W] in
/-- Nothing is bound or under way at the start. -/
theorem inv_of_begins (begun : s.Begins) : s.Inv := by
  obtain ⟨made, freed, zero, idle⟩ := begun
  have none : ∀ worker ns, (s.workers worker).socket? ≠ some ns := by
    intro worker ns there
    simp [idle worker, Stage.socket?] at there
  refine ⟨⟨?_, ?_, ?_, ?_⟩, ?_, ?_⟩
  · simp [freed]
  · exact fun worker ns there => absurd there (none worker ns)
  · exact fun worker _ ns there _ => absurd there (none worker ns)
  · exact fun worker ns there => absurd there (none worker ns)
  · intro db
    have nobody : s.uncounted db = 0 := census_eq_zero.mpr fun worker _ => by
      simp [idle worker, Stage.uncounted?]
    simp [nobody, zero db, bound, made]
  · intro db
    have nobody : s.passed db = 0 := census_eq_zero.mpr fun worker _ => by
      simp [idle worker, Stage.passed?]
    simp [nobody, zero db]

/-- A counted step keeps the invariant. -/
theorem Inv.next {label : Label W} (inv : s.Inv) (counted : s.Counted label)
    (moved : s.next label = some t) : t.Inv := by
  have move := move_of_next moved
  refine ⟨inv.linked.move move, inv.balanced.move inv.linked move ?_, inv.room.move counted move⟩
  intro worker db ns _ here
  -- The worker has passed the check, so the limit is not reached.
  have past : 0 < s.passed db := passed_pos (by rw [here]; rfl)
  have within := inv.room db
  have fits := (s.store.dataBase db).connectNumLimit.toNat_lt
  omega

omit [DecidableEq W] in
/-- The invariant keeps the databases within their limits. -/
theorem Inv.limited (inv : s.Inv) : s.Limited := by
  intro db
  have within := inv.room db
  refine ⟨UInt32.le_iff_toNat_le.mpr (by omega), ?_⟩
  intro nobody
  have same := inv.balanced db
  omega

/-- The invariant holds in every run of counted steps. -/
theorem inv_of_reachable (reached : Runs.Reachable (system.restrict Counted) s) : s.Inv := by
  refine reached.invariant (fun _ => inv_of_begins) ?_
  intro a label b inv moved
  exact inv.next moved.1 moved.2

/-! ## Creations that are not counted in time -/

/-- The steps that a worker past the check has before it. -/
def rest : Stage → Nat
  | .checked .. => 3
  | .connected .. => 2
  | .assigned .. => 1
  | _ => 0

/-- The steps that all workers past the check have before them. -/
def remaining (s : Backends W) : Nat := ∑ worker, rest (s.workers worker)

/-- A worker's step changes what remains by its own part. -/
theorem remaining_goto (s : Backends W) (worker : W) (stage : Stage) :
    (s.goto worker stage).remaining + rest (s.workers worker) = s.remaining + rest stage := by
  have others : ∑ other ∈ Finset.univ.erase worker, rest ((s.goto worker stage).workers other) =
      ∑ other ∈ Finset.univ.erase worker, rest (s.workers other) := by
    refine Finset.sum_congr rfl fun other member => ?_
    simp [Backends.goto, Finset.ne_of_mem_erase member]
  have after := Finset.add_sum_erase Finset.univ
    (fun other => rest ((s.goto worker stage).workers other)) (Finset.mem_univ worker)
  have before := Finset.add_sum_erase Finset.univ
    (fun other => rest (s.workers other)) (Finset.mem_univ worker)
  simp only [others] at after
  have self : rest ((s.goto worker stage).workers worker) = rest stage := by simp [Backends.goto]
  simp only [remaining]
  omega

/-- Descriptors that the kernel may hand out one after the other. -/
def Free (s : Backends W) (fds : List UInt32) : Prop := fds.Nodup ∧ ∀ fd ∈ fds, s.store.FreshFd fd

omit [DecidableEq W] [Fintype W] in
/-- A store whose sockets have the same descriptors leaves the same ones free. -/
theorem Free.of_fd {fds : List UInt32} (free : s.Free fds) (made : t.store.made = s.store.made)
    (freed : t.store.freed = s.store.freed) (same : ∀ ns, t.store.fd ns = s.store.fd ns) :
    t.Free fds := by
  refine ⟨free.1, fun fd member => ⟨(free.2 fd member).1, ?_⟩⟩
  rw [made, freed]
  intro ns below live
  rw [same ns]
  exact (free.2 fd member).2 ns below live

omit [DecidableEq W] [Fintype W] in
/-- Opening the first of the free descriptors leaves the others. -/
theorem Free.open {fd : UInt32} {fds : List UInt32} (free : s.Free (fd :: fds)) (ns : SocketId) :
    (s.onStore fun store => store.update ns fun ns => { ns with fd := fd }).Free fds := by
  obtain ⟨distinct, fresh⟩ := free
  obtain ⟨first, distinct⟩ := List.nodup_cons.mp distinct
  refine ⟨distinct, fun fd' member => ?_⟩
  obtain ⟨positive, unused⟩ := fresh fd' (List.mem_cons_of_mem _ member)
  refine ⟨positive, fun other below live => ?_⟩
  by_cases self : other = ns
  · subst self
    simp only [Backends.onStore, Store.fd, Store.update_object_self]
    exact fun same => first (same ▸ member)
  · simp only [Backends.onStore, Store.fd_update_of_ne _ _ _ self]
    exact unused other below live

/-- One database whose connections and creations go one beyond its limit. -/
structure Beyond (s : Backends W) (db : DataBaseId) : Prop where
  linked : s.Linked
  balanced : s.Balanced
  within : (s.store.dataBase db).connectNum ≤ (s.store.dataBase db).connectNumLimit
  excess : (s.store.dataBase db).connectNum.toNat + s.passed db =
    (s.store.dataBase db).connectNumLimit.toNat + 1

/-- A worker that goes on past the check leaves the database beyond its limit. -/
theorem Beyond.goto {db : DataBaseId} (beyond : s.Beyond db) {label : Label W}
    (moved : Move s label t)
    (quiet : ∀ worker, label ≠ .incConnectionNum worker)
    (dataBase : t.store.dataBase = s.store.dataBase)
    (passed : t.passed db = s.passed db) : t.Beyond db where
  linked := beyond.linked.move moved
  balanced := beyond.balanced.move beyond.linked moved fun worker _ _ same =>
    absurd same (quiet worker)
  within := by rw [dataBase]; exact beyond.within
  excess := by rw [dataBase, passed]; exact beyond.excess

/-- A worker that stays past the check moves no number of those past it. -/
theorem passed_goto_same {worker : W} {stage : Stage} {past : Option DataBaseId}
    (here : (s.workers worker).passed? = past) (there : stage.passed? = past) (db : DataBaseId) :
    (s.goto worker stage).passed db = s.passed db := by
  have moved := passed_goto here there db
  omega

/-- While a database is beyond its limit, some worker brings it closer to that. -/
theorem Beyond.advance {db : DataBaseId} {fds : List UInt32} (beyond : s.Beyond db)
    (free : s.Free fds) (enough : s.remaining ≤ fds.length) :
    ∃ label t, s.next label = some t ∧ (t.Limited → t.Beyond db ∧ t.remaining < s.remaining ∧
      ∃ fds, t.Free fds ∧ t.remaining ≤ fds.length) := by
  have within := UInt32.le_iff_toNat_le.mp beyond.within
  have excess := beyond.excess
  have past : 0 < s.passed db := by omega
  obtain ⟨worker, _, here⟩ := census_pos.mp past
  cases stage : s.workers worker with
  | idle => simp [stage, Stage.passed?] at here
  | made => simp [stage, Stage.passed?] at here
  | checked other ns =>
    obtain rfl : other = db := by simpa [stage, Stage.passed?] using here
    have left := remaining_goto s worker (.connected other ns)
    simp only [stage, rest] at left
    obtain ⟨fd, fds, rfl⟩ : ∃ fd rest, fds = fd :: rest :=
      List.exists_cons_of_ne_nil (by rintro rfl; simp at enough; omega)
    have fresh := free.2 fd List.mem_cons_self
    have passed : (s.goto worker (.connected other ns)).passed other = s.passed other :=
      passed_goto_same (by rw [stage]; rfl) rfl other
    have moved : s.next (.connect worker (.connected fd true)) =
        some ((s.onStore fun store => store.update ns fun ns => { ns with fd := fd }).goto worker
          (.connected other ns)) := by
      simp [next, stage, fresh]
    refine ⟨_, _, moved, fun _ => ⟨?_, ?_, fds, free.open ns, ?_⟩⟩
    · exact beyond.goto (.connect stage) (by simp) rfl passed
    · show (s.goto worker (.connected other ns)).remaining < s.remaining
      omega
    · show (s.goto worker (.connected other ns)).remaining ≤ fds.length
      simp only [List.length_cons] at enough
      omega
  | connected other ns =>
    obtain rfl : other = db := by simpa [stage, Stage.passed?] using here
    have left := remaining_goto s worker (.assigned other ns)
    simp only [stage, rest] at left
    have passed : (s.goto worker (.assigned other ns)).passed other = s.passed other :=
      passed_goto_same (by rw [stage]; rfl) rfl other
    have moved : s.next (.setDataBase worker) =
        some ((s.onStore fun store => store.update ns fun ns =>
          { ns with dataBase := some other }).goto
          worker (.assigned other ns)) := by
      simp [next, stage]
    refine ⟨_, _, moved, fun _ => ⟨?_, ?_, fds, free.of_fd rfl rfl ?_, ?_⟩⟩
    · exact beyond.goto (.setDataBase stage) (by simp) rfl passed
    · show (s.goto worker (.assigned other ns)).remaining < s.remaining
      omega
    · intro socket
      show (s.store.update ns fun ns => { ns with dataBase := some other }).fd socket =
        s.store.fd socket
      apply Store.fd_update
      intro _
      rfl
    · show (s.goto worker (.assigned other ns)).remaining ≤ fds.length
      omega
  | assigned other ns =>
    obtain rfl : other = db := by simpa [stage, Stage.passed?] using here
    have left := remaining_goto s worker .idle
    simp only [stage, rest] at left
    have passed := @passed_goto W s _ _ worker .idle (some other) none
      (by rw [stage]; rfl) rfl other
    simp only [if_true, reduceCtorEq, if_false, Nat.add_zero] at passed
    have moved : s.next (.incConnectionNum worker) =
        some ((s.onStore fun store => store.updateDataBase other DataBase.incConnectionNum).goto
          worker
          .idle) := by
      simp [next, stage]
    refine ⟨_, _, moved, fun limited => ?_⟩
    obtain ⟨below, exact_⟩ := limited other
    have counted : ∀ u : Backends W, u = (s.onStore fun store =>
        store.updateDataBase other DataBase.incConnectionNum).goto worker .idle →
        u.store.dataBase other = (s.store.dataBase other).incConnectionNum := by
      rintro _ rfl
      exact Function.update_self _ _ _
    rw [counted _ rfl] at below exact_
    have fits : (s.store.dataBase other).connectNum.toNat + 1 < 2 ^ 32 := by
      by_contra wraps
      -- The counter would be zero again, while all the sockets that it counted are there.
      have full := (s.store.dataBase other).connectNum.toNat_lt
      have limit := (s.store.dataBase other).connectNumLimit.toNat_lt
      have fewer : (s.goto worker .idle).uncounted other ≤ (s.goto worker .idle).passed other :=
        census_mono fun _ _ => passed_of_uncounted
      have zero : (s.store.dataBase other).incConnectionNum.connectNum.toNat = 0 := by
        simp only [DataBase.incConnectionNum, UInt32.toNat_add, UInt32.reduceToNat]
        omega
      have same : 0 = s.bound other := zero.symm.trans (exact_ (by
        show (s.goto worker .idle).uncounted other = 0
        omega))
      have balance := beyond.balanced other
      omega
    have number := DataBase.toNat_incConnectionNum fits
    refine ⟨⟨beyond.linked.move (.incConnectionNum stage), ?_, ?_, ?_⟩, ?_, fds, ?_, ?_⟩
    · refine beyond.balanced.move beyond.linked (.incConnectionNum stage) ?_
      intro worker' db ns' same there
      obtain rfl : worker = worker' := Label.incConnectionNum.inj same
      obtain ⟨rfl, _⟩ := Stage.assigned.inj (stage.symm.trans there)
      exact fits
    · rw [counted _ rfl]
      exact below
    · rw [counted _ rfl, number]
      show (s.store.dataBase other).connectNum.toNat + 1 + (s.goto worker .idle).passed other =
        (s.store.dataBase other).connectNumLimit.toNat + 1
      omega
    · show (s.goto worker .idle).remaining < s.remaining
      omega
    · exact free.of_fd rfl rfl fun _ => rfl
    · show (s.goto worker .idle).remaining ≤ fds.length
      omega

/-- A database beyond its limit is taken over it. -/
theorem Beyond.exists_run {db : DataBaseId} {fds : List UInt32} (beyond : s.Beyond db)
    (free : s.Free fds) (enough : s.remaining ≤ fds.length) :
    ∃ labels t, Runs.Run system s labels t ∧ ¬ t.Limited := by
  -- The induction is on what the workers past the check have before them.
  induction left : s.remaining using Nat.strong_induction_on generalizing s fds with
  | _ remaining ih =>
    obtain ⟨label, t, moved, later⟩ := beyond.advance free enough
    by_cases limited : t.Limited
    · obtain ⟨beyond', less, fds', free', enough'⟩ := later limited
      obtain ⟨labels, u, run, broken⟩ := ih _ (left ▸ less) beyond' free' enough' rfl
      exact ⟨label :: labels, u, run.cons moved, broken⟩
    · exact ⟨[label], t, (Runs.Run.nil s).snoc moved, limited⟩

/-- A creation that passes the check without room takes its database beyond the limit. -/
theorem beyond_of_uncounted {label : Label W} (inv : s.Inv) (moved : s.next label = some t)
    (uncounted : ¬ s.Counted label) : ∃ db, t.Beyond db := by
  have move := move_of_next moved
  have linked := inv.linked.move move
  cases move with
  | @refuse worker db ns here full =>
    -- A full database refuses the creation, whatever is under way.
    refine absurd ?_ uncounted
    intro db' ns' there below
    obtain ⟨rfl, _⟩ := Stage.made.inj (here.symm.trans there)
    exact absurd full (UInt32.not_le.mpr below)
  | @accept worker db ns here below =>
    refine ⟨db, linked, inv.balanced.goto (by rw [here]; rfl) rfl, UInt32.le_of_lt below, ?_⟩
    have passed := @passed_goto W s _ _ worker (.checked db ns) none (some db)
      (by rw [here]; rfl) rfl db
    simp only [reduceCtorEq, if_false, if_true, Nat.add_zero] at passed
    have within := inv.room db
    show (s.store.dataBase db).connectNum.toNat + (s.goto worker (.checked db ns)).passed db =
      (s.store.dataBase db).connectNumLimit.toNat + 1
    have none_left : ¬ (s.store.dataBase db).connectNum.toNat + s.passed db <
        (s.store.dataBase db).connectNumLimit.toNat := by
      intro room
      apply uncounted
      intro db' ns' there _
      obtain ⟨rfl, _⟩ := Stage.made.inj (here.symm.trans there)
      exact room
    omega
  | _ => exact absurd trivial uncounted

omit [DecidableEq W] in
/-- No worker has more than three steps before it. -/
theorem remaining_le (s : Backends W) : s.remaining ≤ 3 * Fintype.card W := by
  have each : ∀ worker ∈ Finset.univ, rest (s.workers worker) ≤ 3 := by
    intro worker _
    cases s.workers worker <;> simp [rest]
  have all := Finset.sum_le_card_nsmul Finset.univ (fun worker => rest (s.workers worker)) 3 each
  simpa [remaining, Nat.mul_comm] using all

/-- A check without room keeps the free descriptors. -/
theorem free_of_uncounted {label : Label W} {fds : List UInt32} (free : s.Free fds)
    (moved : s.next label = some t) (uncounted : ¬ s.Counted label) : t.Free fds := by
  cases move_of_next moved with
  | refuse => exact free
  | accept => exact free
  | _ => exact absurd trivial uncounted

/--
The databases stay within their limits in every run whose creations find room when they pass the
check; after one that does not, some run takes a database beyond its limit or loses the count.
-/
theorem limited_of_counted :
    (∀ s : Backends W, Runs.Reachable (system.restrict Counted) s → s.Limited) ∧
      ∀ (s t : Backends W) (label : Label W) (fds : List UInt32),
        Runs.Reachable (system.restrict Counted) s → s.next label = some t →
        ¬ s.Counted label → s.Free fds → 3 * Fintype.card W ≤ fds.length →
          ∃ labels u, Runs.Run system t labels u ∧ ¬ u.Limited := by
  constructor
  · intro s reached
    exact (inv_of_reachable reached).limited
  · intro s t label fds reached moved uncounted free enough
    obtain ⟨db, beyond⟩ := beyond_of_uncounted (inv_of_reachable reached) moved uncounted
    have left : t.remaining ≤ fds.length := Nat.le_trans (remaining_le t) enough
    exact beyond.exists_run (free_of_uncounted free moved uncounted) left

/-- One database that takes one connection. -/
def single : Backends Bool where
  store := ⟨fun _ => .new [] 0, 0, [], fun _ => ⟨[49], 1433, 0, 1, 0, true⟩⟩
  workers := fun _ => .idle

/-- Two workers look at the limit before either counts its connection. -/
def together : List (Label Bool) :=
  [.make true 0, .make false 0, .check true, .check false, .connect true (.connected 5 true),
    .connect false (.connected 6 true), .setDataBase true, .setDataBase false,
    .incConnectionNum true, .incConnectionNum false]

/-- Two workers that check at the same time connect twice within a limit of one. -/
theorem together_not_limited : ∃ s : Backends Bool, Runs.Reachable system s ∧ ¬ s.Limited := by
  have begun : single.Begins := ⟨rfl, rfl, fun _ => rfl, fun _ => rfl⟩
  have done : (Runs.exec next single together).map (fun s =>
      ((s.store.dataBase 0).connectNum, (s.store.dataBase 0).connectNumLimit)) = some (2, 1) := by
    decide +kernel
  obtain ⟨s, reached, seen⟩ := Runs.exists_reachable Begins begun done
  refine ⟨s, reached, fun limited => ?_⟩
  obtain ⟨number, limit⟩ := Prod.mk.inj seen
  have within := (limited 0).1
  rw [number, limit] at within
  exact absurd within (by decide)

end OneProxy.Backends
