import OneProxy.Pool.BackendConnect
import OneProxy.Pool.StoreLaws

/-!
What the steps of a creation keep: the sockets of the workers, and the count of each database.
-/

namespace OneProxy

namespace Store

variable {store : Store}

/-- A new socket is set for no database. -/
theorem boundTo_alloc (made : ∀ gone ∈ store.freed, gone < store.made) {address : Bytes}
    {port : UInt32} :
    (store.alloc (.new address port)).boundTo = Function.update store.boundTo store.made none := by
  funext ns
  have unfreed : store.made ∉ store.freed := fun gone => Nat.lt_irrefl _ (made _ gone)
  by_cases self : ns = store.made
  · subst self
    simp [boundTo, unfreed, NetworkSocket.new]
  · simp [boundTo, alloc, self]

/-- A change that keeps a socket's database keeps them all. -/
theorem boundTo_update {ns : SocketId} {f : NetworkSocket → NetworkSocket}
    (keeps : ∀ socket, (f socket).dataBase = socket.dataBase) :
    (store.update ns f).boundTo = store.boundTo := by
  funext other
  by_cases self : other = ns
  · subst self
    simp [boundTo, keeps]
  · simp [boundTo, update_object_of_ne store ns f self]

/-- `set_dataBase` of a socket that is not destroyed. -/
theorem boundTo_set {ns : SocketId} {db : DataBaseId} (unfreed : ns ∉ store.freed) :
    (store.update ns fun socket => { socket with dataBase := some db }).boundTo =
      Function.update store.boundTo ns (some db) := by
  funext other
  by_cases self : other = ns
  · subst self
    simp [boundTo, unfreed]
  · simp [boundTo, update_object_of_ne store ns _ self, self]

/-- A destroyed socket no longer belongs to its database. -/
theorem boundTo_delete {ns : SocketId} :
    (store.delete ns).boundTo = Function.update store.boundTo ns none := by
  funext other
  by_cases self : other = ns
  · subst self
    simp [boundTo]
  · simp [boundTo, self]

/-- A destroyed socket's database has one connection less. -/
theorem connectNum_delete {ns : SocketId} (live : ns ∉ store.freed) (db : DataBaseId) :
    (store.delete ns).dataBase db = if store.boundTo ns = some db then
      (store.dataBase db).decConnectionNum else store.dataBase db := by
  simp only [boundTo, if_neg live, delete]
  split
  · rename_i unset
    simp [unset]
  · rename_i other set
    by_cases self : db = other
    · subst self
      simp [set, updateDataBase]
    · have differ : other ≠ db := fun same => self same.symm
      simp [set, updateDataBase, self, differ]

end Store

/-- The counter loses one, if it has one. -/
theorem DataBase.toNat_decConnectionNum {db : DataBase} (positive : 1 ≤ db.connectNum.toNat) :
    db.decConnectionNum.connectNum.toNat + 1 = db.connectNum.toNat := by
  have above : db.connectNum > 0 := UInt32.lt_iff_toNat_lt.mpr positive
  have one : (1 : UInt32) ≤ db.connectNum := UInt32.le_iff_toNat_le.mpr positive
  simp only [DataBase.decConnectionNum, above, if_true, UInt32.toNat_sub_of_le _ _ one,
    UInt32.reduceToNat]
  omega

/-- The counter never grows by losing one. -/
theorem DataBase.decConnectionNum_le (db : DataBase) :
    db.decConnectionNum.connectNum.toNat ≤ db.connectNum.toNat := by
  by_cases positive : 1 ≤ db.connectNum.toNat
  · have gone := toNat_decConnectionNum positive
    omega
  · have zero : ¬ db.connectNum > 0 := fun above => positive (UInt32.lt_iff_toNat_lt.mp above)
    simp [decConnectionNum, zero]

/-- The limit stays. -/
theorem DataBase.decConnectionNum_limit (db : DataBase) :
    db.decConnectionNum.connectNumLimit = db.connectNumLimit := by
  unfold decConnectionNum
  split <;> rfl

/-- The counter wins one, if that fits. -/
theorem DataBase.toNat_incConnectionNum {db : DataBase} (fits : db.connectNum.toNat + 1 < 2 ^ 32) :
    db.incConnectionNum.connectNum.toNat = db.connectNum.toNat + 1 := by
  simp only [DataBase.incConnectionNum, UInt32.toNat_add, UInt32.reduceToNat]
  omega

namespace Backends

open Census

variable {W : Type*} {s t : Backends W}

/-- The sockets of the workers, and those that a database is set for. -/
structure Linked (s : Backends W) : Prop where
  freed : ∀ gone ∈ s.store.freed, gone < s.store.made
  live : ∀ worker ns, (s.workers worker).socket? = some ns → s.store.Live ns
  alone : ∀ worker other ns, (s.workers worker).socket? = some ns →
    (s.workers other).socket? = some ns → worker = other
  bound : ∀ worker ns, (s.workers worker).socket? = some ns →
    s.store.boundTo ns = (s.workers worker).uncounted?

/-- A change of the sockets that concerns no socket's life or database keeps the links. -/
theorem Linked.onStore (linked : s.Linked) {f : Store → Store}
    (made : (f s.store).made = s.store.made)
    (freed : (f s.store).freed = s.store.freed) (bound : (f s.store).boundTo = s.store.boundTo) :
    (s.onStore f).Linked := by
  refine ⟨?_, ?_, linked.alone, ?_⟩
  · simpa [Backends.onStore, made, freed] using linked.freed
  · simpa [Backends.onStore, Store.Live, made, freed] using linked.live
  · simpa [Backends.onStore, bound] using linked.bound

/-- A socket that no worker creates may be destroyed. -/
theorem Linked.delete (linked : s.Linked) {ns : SocketId} (live : s.store.Live ns)
    (free : ∀ worker, (s.workers worker).socket? ≠ some ns) :
    (s.onStore fun store => store.delete ns).Linked := by
  have differ : ∀ worker other, (s.workers worker).socket? = some other → other ≠ ns :=
    fun worker other there same => free worker (same ▸ there)
  refine ⟨?_, ?_, linked.alone, ?_⟩
  · intro gone member
    simp only [Backends.onStore, Store.delete_freed, List.mem_append, List.mem_singleton] at member
    simp only [Backends.onStore, Store.delete_made]
    rcases member with old | rfl
    · exact linked.freed gone old
    · exact live.1
  · intro worker other there
    exact (Store.live_delete _ _ _).mpr ⟨linked.live worker other there, differ worker other there⟩
  · intro worker other there
    show (s.store.delete ns).boundTo other = (s.workers worker).uncounted?
    rw [Store.boundTo_delete, Function.update_of_ne (differ worker other there)]
    exact linked.bound worker other there

variable [DecidableEq W]

/-- A worker that goes on with its socket keeps the links. -/
theorem Linked.goto (linked : s.Linked) {worker : W} {stage : Stage}
    (same : ∀ ns, stage.socket? = some ns → (s.workers worker).socket? = some ns)
    (bound : ∀ ns, stage.socket? = some ns → s.store.boundTo ns = stage.uncounted?) :
    (s.goto worker stage).Linked := by
  -- No worker gains a socket that it did not have.
  have socket : ∀ other ns, ((s.goto worker stage).workers other).socket? = some ns →
      (s.workers other).socket? = some ns := by
    intro other ns there
    by_cases self : other = worker
    · subst self
      exact same ns (by simpa [Backends.goto] using there)
    · simpa [Backends.goto, self] using there
  refine ⟨linked.freed, fun other ns there => linked.live other ns (socket other ns there), ?_, ?_⟩
  · intro first second ns one two
    exact linked.alone first second ns (socket first ns one) (socket second ns two)
  · intro other ns there
    by_cases self : other = worker
    · subst self
      simpa [Backends.goto] using bound ns (by simpa [Backends.goto] using there)
    · simpa [Backends.goto, self] using linked.bound other ns (socket other ns there)

/-- A new socket is nobody else's. -/
theorem Linked.make (linked : s.Linked) {worker : W} {db : DataBaseId} {address : Bytes}
    {port : UInt32} :
    ((s.onStore fun store => store.alloc (.new address port)).goto worker
      (.made db s.store.made)).Linked := by
  -- The number of the new socket has been given to none before.
  have old : ∀ other ns, other ≠ worker →
      (Function.update s.workers worker (.made db s.store.made) other).socket? = some ns →
        (s.workers other).socket? = some ns ∧ ns ≠ s.store.made := by
    intro other ns differ there
    rw [Function.update_of_ne differ] at there
    exact ⟨there, Nat.ne_of_lt (linked.live other ns there).1⟩
  have own : ∀ ns,
      (Function.update s.workers worker (.made db s.store.made) worker).socket? = some ns →
        s.store.made = ns := by
    intro ns there
    simpa [Stage.socket?] using there
  refine ⟨fun gone member => Nat.lt_succ_of_lt (linked.freed gone member), ?_, ?_, ?_⟩
  · intro other ns there
    apply (Store.live_alloc s.store _ linked.freed ns).mpr
    by_cases self : other = worker
    · subst self
      exact Or.inr (own ns there).symm
    · exact Or.inl (linked.live other ns (old other ns self there).1)
  · intro first second ns one two
    by_cases self : first = worker <;> by_cases self' : second = worker
    · exact self.trans self'.symm
    · subst self
      exact absurd (own ns one).symm (old second ns self' two).2
    · subst self'
      exact absurd (own ns two).symm (old first ns self one).2
    · exact linked.alone first second ns (old first ns self one).1 (old second ns self' two).1
  · intro other ns there
    show (s.store.alloc (.new address port)).boundTo ns =
      (Function.update s.workers worker (.made db s.store.made) other).uncounted?
    rw [Store.boundTo_alloc linked.freed]
    by_cases self : other = worker
    · subst self
      rw [← own ns there, Function.update_self, Function.update_self]
      rfl
    · obtain ⟨there', differ⟩ := old other ns self there
      rw [Function.update_of_ne differ, Function.update_of_ne self]
      exact linked.bound other ns there'

/-- `set_dataBase` sets the database of no other worker's socket. -/
theorem Linked.setDataBase (linked : s.Linked) {worker : W} {db : DataBaseId} {ns : SocketId}
    (here : s.workers worker = .connected db ns) :
    ((s.onStore fun store => store.update ns fun ns => { ns with dataBase := some db }).goto worker
      (.assigned db ns)).Linked := by
  have mine : (s.workers worker).socket? = some ns := by rw [here]; rfl
  have socket : ∀ other ns',
      (Function.update s.workers worker (.assigned db ns) other).socket? = some ns' →
        (s.workers other).socket? = some ns' := by
    intro other ns' there
    by_cases self : other = worker
    · subst self
      rw [Function.update_self] at there
      exact mine.trans there
    · rwa [Function.update_of_ne self] at there
  refine ⟨linked.freed, fun other ns' there => linked.live other ns'
    (socket other ns' there), ?_, ?_⟩
  · intro first second ns' one two
    exact linked.alone first second ns' (socket first ns' one) (socket second ns' two)
  · intro other ns' there
    show (s.store.update ns fun ns => { ns with dataBase := some db }).boundTo ns' =
      (Function.update s.workers worker (.assigned db ns) other).uncounted?
    rw [Store.boundTo_set (linked.live worker ns mine).2]
    by_cases self : other = worker
    · subst self
      obtain rfl := Option.some.inj (mine.symm.trans (socket other ns' there))
      rw [Function.update_self, Function.update_self]
      rfl
    · -- No socket is two workers'.
      have differ : ns' ≠ ns := by
        rintro rfl
        exact self (linked.alone other worker ns' (socket other ns' there) mine)
      rw [Function.update_of_ne differ, Function.update_of_ne self]
      exact linked.bound other ns' (socket other ns' there)

/-- What a step can do. -/
inductive Move (s : Backends W) : Label W → Backends W → Prop
  | make {worker : W} {db : DataBaseId} {address : Bytes} {port : UInt32}
      (here : s.workers worker = .idle) :
    Move s (.make worker db) ((s.onStore fun store => store.alloc (.new address port)).goto worker
      (.made db s.store.made))
  | refuse {worker : W} {db : DataBaseId} {ns : SocketId} (here : s.workers worker = .made db ns)
      (full : (s.store.dataBase db).connectNumLimit ≤ (s.store.dataBase db).connectNum) :
    Move s (.check worker) (s.goto worker .idle)
  | accept {worker : W} {db : DataBaseId} {ns : SocketId} (here : s.workers worker = .made db ns)
      (below : (s.store.dataBase db).connectNum < (s.store.dataBase db).connectNumLimit) :
    Move s (.check worker) (s.goto worker (.checked db ns))
  | connect {worker : W} {db : DataBaseId} {ns : SocketId} {fd : UInt32}
      (here : s.workers worker = .checked db ns) :
    Move s (.connect worker (.connected fd true))
      ((s.onStore fun store => store.update ns fun ns => { ns with fd := fd }).goto worker
        (.connected db ns))
  | fail {worker : W} {db : DataBaseId} {ns : SocketId} {fd : UInt32}
      (here : s.workers worker = .checked db ns) :
    Move s (.connect worker (.connected fd false))
      ((s.onStore fun store => store.update ns fun ns => { ns with fd := fd }).goto worker .idle)
  | refused {worker : W} {db : DataBaseId} {ns : SocketId}
      (here : s.workers worker = .checked db ns) :
    Move s (.connect worker .refused) (s.goto worker .idle)
  | setDataBase {worker : W} {db : DataBaseId} {ns : SocketId}
      (here : s.workers worker = .connected db ns) :
    Move s (.setDataBase worker)
      ((s.onStore fun store => store.update ns fun ns => { ns with dataBase := some db }).goto
        worker
        (.assigned db ns))
  | incConnectionNum {worker : W} {db : DataBaseId} {ns : SocketId}
      (here : s.workers worker = .assigned db ns) :
    Move s (.incConnectionNum worker)
      ((s.onStore fun store => store.updateDataBase db DataBase.incConnectionNum).goto worker .idle)
  | delete {ns : SocketId} (live : s.store.Live ns)
      (free : ∀ worker, (s.workers worker).socket? ≠ some ns) :
    Move s (.delete ns) (s.onStore fun store => store.delete ns)

/-- Every step keeps the links. -/
theorem Linked.move {label : Label W} (linked : s.Linked) (moved : Move s label t) : t.Linked := by
  -- A worker that goes on keeps its socket, whose database is not set before `set_dataBase`.
  have on : ∀ {worker ns} {stage : Stage}, (s.workers worker).socket? = some ns →
      stage.socket? = some ns → (s.workers worker).uncounted? = none → stage.uncounted? = none →
      (s.goto worker stage).Linked := by
    intro worker ns stage mine next before after
    refine linked.goto (fun ns' there => ?_) (fun ns' there => ?_)
    · exact mine.trans (next.symm.trans there)
    · rw [after, ← before]
      exact linked.bound worker ns' (mine.trans (next.symm.trans there))
  have off : ∀ worker, (s.goto worker .idle).Linked := fun worker =>
    linked.goto (by simp [Stage.socket?]) (by simp [Stage.socket?])
  have opened : ∀ {u : Backends W} {ns : SocketId} {fd : UInt32}, u.Linked →
      (u.onStore fun store => store.update ns fun ns => { ns with fd := fd }).Linked :=
    fun linked => linked.onStore rfl rfl (Store.boundTo_update fun _ => rfl)
  cases moved with
  | make here => exact linked.make
  | refuse here full => exact off _
  | refused here => exact off _
  | accept here below => exact on (by rw [here]; rfl) rfl (by rw [here]; rfl) rfl
  | connect here => exact opened (on (by rw [here]; rfl) rfl (by rw [here]; rfl) rfl)
  | fail here => exact opened (off _)
  | setDataBase here => exact linked.setDataBase here
  | @incConnectionNum worker db ns here =>
    have counted : ((s.goto worker .idle).onStore fun store =>
        store.updateDataBase db DataBase.incConnectionNum).Linked :=
      (off worker).onStore rfl rfl rfl
    exact counted
  | delete live free => exact linked.delete live free

variable [Fintype W]

/-- Every step is one of these moves. -/
theorem move_of_next {label : Label W} (moved : s.next label = some t) : Move s label t := by
  -- Each label goes on from one stage only.
  cases label with
  | make worker db =>
    cases here : s.workers worker <;> simp only [next, here, reduceCtorEq] at moved
    obtain rfl := Option.some.inj moved
    exact .make here
  | check worker =>
    cases here : s.workers worker <;> simp only [next, here, reduceCtorEq] at moved
    split at moved
    · rename_i full
      obtain rfl := Option.some.inj moved
      exact .refuse here full
    · rename_i below
      obtain rfl := Option.some.inj moved
      exact .accept here (UInt32.not_le.mp below)
  | connect worker result =>
    cases here : s.workers worker <;> cases result <;>
      simp only [next, here, reduceCtorEq] at moved
    · obtain rfl := Option.some.inj moved
      exact .refused here
    · rename_i fd initialized
      split at moved
      · simp at moved
      · obtain rfl := Option.some.inj moved
        cases initialized with
        | true => exact .connect here
        | false => exact .fail here
  | setDataBase worker =>
    cases here : s.workers worker <;> simp only [next, here, reduceCtorEq] at moved
    obtain rfl := Option.some.inj moved
    exact .setDataBase here
  | incConnectionNum worker =>
    cases here : s.workers worker <;> simp only [next, here, reduceCtorEq] at moved
    obtain rfl := Option.some.inj moved
    exact .incConnectionNum here
  | delete ns =>
    simp only [next] at moved
    split at moved
    · rename_i allowed
      obtain rfl := Option.some.inj moved
      exact .delete allowed.1 allowed.2
    · simp at moved

/-- A worker that nobody comes between does what `createSocket` does with the sockets. -/
theorem exec_createSocket {sk : Sockets} {pool : ConnectionPool} {conn conn' : Connection}
    {db : DataBaseId} {result : ConnectResult} {ret : Int} {worker : W}
    (idle : s.workers worker = .idle)
    (created : createSocket ⟨s.store, pool⟩ conn db result = some (ret, sk, conn')) :
    ∃ labels, (Runs.exec next s labels).map (fun t => (t.store, t.workers)) =
      some (sk.store, s.workers) := by
  have back : Function.update s.workers worker .idle = s.workers := by
    rw [← idle, Function.update_eq_self]
  have kept : ∀ socket, (s.store.alloc socket).dataBase = s.store.dataBase := fun _ => rfl
  -- The pool keeps the sockets themselves.
  have pooled : ∀ (uses : Bool) (sk : Sockets) (ns : SocketId),
      (if uses = true then addSocketToPool sk ns else sk).store = sk.store := by
    intro uses sk ns
    split <;> rfl
  simp only [createSocket] at created
  split at created
  · rename_i full
    simp only [Option.some.injEq, Prod.mk.injEq] at created
    obtain ⟨_, rfl, _⟩ := created
    refine ⟨[.make worker db, .check worker], ?_⟩
    simp [Runs.exec, next, idle, Backends.goto, onStore, kept, full, back]
  · rename_i below
    split at created
    · simp only [Option.some.injEq, Prod.mk.injEq] at created
      obtain ⟨_, rfl, _⟩ := created
      refine ⟨[.make worker db, .check worker, .connect worker .refused], ?_⟩
      simp [Runs.exec, next, idle, Backends.goto, onStore, kept, below, back]
    · rename_i fd initialized
      split at created
      · simp at created
      · rename_i fresh
        split at created
        · rename_i fails
          simp only [Option.some.injEq, Prod.mk.injEq] at created
          obtain ⟨_, rfl, _⟩ := created
          refine ⟨[.make worker db, .check worker, .connect worker (.connected fd initialized)], ?_⟩
          simp [Runs.exec, next, idle, Backends.goto, onStore, kept, below, back, fresh, fails]
        · rename_i succeeds
          simp only [Option.some.injEq, Prod.mk.injEq] at created
          obtain ⟨_, rfl, _⟩ := created
          refine ⟨[.make worker db, .check worker, .connect worker (.connected fd initialized),
            .setDataBase worker, .incConnectionNum worker], ?_⟩
          rw [pooled]
          simp [Runs.exec, next, idle, Backends.goto, onStore, kept, below, back, not_not.mp fresh,
            succeeds]

/-! ## Numbers -/

/-- One worker's step moves the number of those past the check. -/
theorem passed_goto {worker : W} {stage : Stage} {before after : Option DataBaseId}
    (here : (s.workers worker).passed? = before) (there : stage.passed? = after) (db : DataBaseId) :
    (s.goto worker stage).passed db + (if before = some db then 1 else 0) =
      s.passed db + if after = some db then 1 else 0 := by
  subst here there
  exact census_update (Finset.mem_univ worker)

/-- One worker's step moves the number of those about to count. -/
theorem uncounted_goto {worker : W} {stage : Stage} {before after : Option DataBaseId}
    (here : (s.workers worker).uncounted? = before) (there : stage.uncounted? = after)
    (db : DataBaseId) :
    (s.goto worker stage).uncounted db + (if before = some db then 1 else 0) =
      s.uncounted db + if after = some db then 1 else 0 := by
  subst here there
  exact census_update (Finset.mem_univ worker)

/-- A worker about to count is past the check. -/
theorem passed_of_uncounted {stage : Stage} {db : DataBaseId}
    (uncounted : stage.uncounted? = some db) : stage.passed? = some db := by
  cases stage <;> simp_all [Stage.uncounted?, Stage.passed?]

omit [DecidableEq W] in
/-- A worker past the check is counted as one. -/
theorem passed_pos {worker : W} {db : DataBaseId} (here : (s.workers worker).passed? = some db) :
    0 < s.passed db :=
  census_pos.mpr ⟨worker, Finset.mem_univ worker, here⟩

omit [DecidableEq W] in
/-- A socket for a database that no worker creates comes on top of those being created. -/
theorem Linked.uncounted_lt (linked : s.Linked) {ns : SocketId} {db : DataBaseId}
    (live : s.store.Live ns) (free : ∀ worker, (s.workers worker).socket? ≠ some ns)
    (set : s.store.boundTo ns = some db) : s.uncounted db < s.bound db := by
  have member : ns ∈ (Finset.range s.store.made).filter fun ns => s.store.boundTo ns = some db :=
    Finset.mem_filter.mpr ⟨Finset.mem_range.mpr live.1, set⟩
  -- Each worker's socket is another one of the database's.
  have creates : ∀ worker, (s.workers worker).uncounted? = some db →
      ∃ other, (s.workers worker).socket? = some other := by
    intro worker about
    cases here : s.workers worker with
    | assigned _ other => exact ⟨other, rfl⟩
    | _ => simp [here, Stage.uncounted?] at about
  refine Nat.lt_of_le_of_lt (Finset.card_le_card_of_injOn
    (t := ((Finset.range s.store.made).filter fun ns => s.store.boundTo ns = some db).erase ns)
    (fun worker => ((s.workers worker).socket?).getD 0) ?_ ?_) (Finset.card_erase_lt_of_mem member)
  · intro worker about
    obtain ⟨_, about⟩ := Finset.mem_filter.mp about
    obtain ⟨other, mine⟩ := creates worker about
    simp only [mine, Option.getD_some, Finset.coe_erase, Set.mem_sdiff, Finset.mem_coe,
      Finset.mem_filter, Finset.mem_range, Set.mem_singleton_iff]
    exact ⟨⟨(linked.live worker other mine).1, (linked.bound worker other mine).trans about⟩,
      fun same => free worker (same ▸ mine)⟩
  · intro worker about worker' about' same
    obtain ⟨_, about⟩ := Finset.mem_filter.mp about
    obtain ⟨_, about'⟩ := Finset.mem_filter.mp about'
    obtain ⟨other, mine⟩ := creates worker about
    obtain ⟨other', mine'⟩ := creates worker' about'
    simp only [mine, mine', Option.getD_some] at same
    exact linked.alone worker worker' other mine (same ▸ mine')

/-- Every database has counted its sockets, but for those that workers are about to count. -/
def Balanced (s : Backends W) : Prop :=
  ∀ db, (s.store.dataBase db).connectNum.toNat + s.uncounted db = s.bound db

/-- A step of a worker that is not about to count moves no number of a database. -/
theorem Balanced.goto (balanced : s.Balanced) {worker : W} {stage : Stage}
    (before : (s.workers worker).uncounted? = none) (after : stage.uncounted? = none) :
    (s.goto worker stage).Balanced := by
  intro db
  have moved := uncounted_goto before after db
  have same := balanced db
  simp only [reduceCtorEq, if_false, Nat.add_zero] at moved
  rw [moved]
  exact same

omit [DecidableEq W] in
/-- A descriptor moves no number of a database. -/
theorem Balanced.opened (balanced : s.Balanced) (ns : SocketId) (fd : UInt32) :
    (s.onStore fun store => store.update ns fun ns => { ns with fd := fd }).Balanced := by
  intro db
  have bound : (s.store.update ns fun ns => { ns with fd := fd }).boundTo = s.store.boundTo :=
    Store.boundTo_update fun _ => rfl
  simp only [Backends.bound, Backends.onStore, bound]
  exact balanced db

/-- Every step keeps the balance, as long as no counter overflows. -/
theorem Balanced.move {label : Label W} (balanced : s.Balanced) (linked : s.Linked)
    (moved : Move s label t)
    (fits : ∀ worker db ns, label = .incConnectionNum worker → s.workers worker = .assigned db ns →
      (s.store.dataBase db).connectNum.toNat + 1 < 2 ^ 32) : t.Balanced := by
  cases moved with
  | @make worker db address port here =>
    have on : (s.goto worker (.made db s.store.made)).Balanced :=
      balanced.goto (by rw [here]; rfl) rfl
    intro db'
    have unmade : s.store.made ∉ Finset.range s.store.made := Finset.notMem_range_self
    have bound : ((s.onStore fun store => store.alloc (.new address port)).goto worker
        (.made db s.store.made)).bound db' = s.bound db' := by
      show census (Finset.range (s.store.made + 1)) (s.store.alloc (.new address port)).boundTo
        (· = some db') = s.bound db'
      rw [Store.boundTo_alloc linked.freed, Finset.range_add_one, census_insert unmade,
        census_update_outside unmade, Function.update_self]
      simp [Backends.bound]
    rw [bound]
    exact on db'
  | refuse here full => exact balanced.goto (by rw [here]; rfl) rfl
  | refused here => exact balanced.goto (by rw [here]; rfl) rfl
  | accept here below => exact balanced.goto (by rw [here]; rfl) rfl
  | @connect worker db ns fd here =>
    have on : (s.goto worker (.connected db ns)).Balanced := balanced.goto (by rw [here]; rfl) rfl
    exact on.opened ns fd
  | @fail worker db ns fd here =>
    have on : (s.goto worker .idle).Balanced := balanced.goto (by rw [here]; rfl) rfl
    exact on.opened ns fd
  | @setDataBase worker db ns here =>
    have mine : (s.workers worker).socket? = some ns := by rw [here]; rfl
    have live := linked.live worker ns mine
    intro db'
    -- The socket is bound and about to be counted at once.
    have uncounted := @uncounted_goto W s _ _ worker (.assigned db ns) none (some db)
      (by rw [here]; rfl) rfl db'
    have bound : census (Finset.range s.store.made) (Function.update s.store.boundTo ns (some db))
        (· = some db') + 0 = s.bound db' + if some db = some db' then 1 else 0 := by
      have unset : s.store.boundTo ns = none := by
        rw [linked.bound worker ns mine, here]
        rfl
      rw [Backends.bound, ← census_update (Finset.mem_range.mpr live.1), unset]
      simp
    simp only [reduceCtorEq, if_false, Nat.add_zero] at uncounted bound
    have same := balanced db'
    show (s.store.dataBase db').connectNum.toNat + (s.goto worker (.assigned db ns)).uncounted db' =
      census (Finset.range s.store.made)
        (s.store.update ns fun ns => { ns with dataBase := some db }).boundTo (· = some db')
    rw [Store.boundTo_set live.2, bound, uncounted]
    omega
  | @incConnectionNum worker db ns here =>
    intro db'
    have uncounted :=
      @uncounted_goto W s _ _ worker .idle (some db) none (by rw [here]; rfl) rfl db'
    simp only [reduceCtorEq, if_false, Nat.add_zero] at uncounted
    have same := balanced db'
    have room := fits worker db ns rfl here
    show (Function.update s.store.dataBase db (s.store.dataBase db).incConnectionNum
      db').connectNum.toNat
      + (s.goto worker .idle).uncounted db' = s.bound db'
    by_cases self : db' = db
    · subst self
      rw [Function.update_self, DataBase.toNat_incConnectionNum room]
      rw [if_pos rfl] at uncounted
      omega
    · have differ : some db ≠ some db' := fun same => self (Option.some.inj same).symm
      rw [Function.update_of_ne self]
      rw [if_neg differ] at uncounted
      omega
  | @delete ns live free =>
    intro db
    have bound : census (Finset.range s.store.made) (Function.update s.store.boundTo ns none)
        (· = some db) + (if s.store.boundTo ns = some db then 1 else 0) = s.bound db := by
      rw [census_update (Finset.mem_range.mpr live.1)]
      simp [Backends.bound]
    have same := balanced db
    show ((s.store.delete ns).dataBase db).connectNum.toNat + s.uncounted db =
      census (Finset.range (s.store.delete ns).made) (s.store.delete ns).boundTo (· = some db)
    rw [Store.delete_made, Store.boundTo_delete, Store.connectNum_delete live.2]
    by_cases set : s.store.boundTo ns = some db
    · -- The socket was counted, so the counter is not zero.
      have counted := linked.uncounted_lt live free set
      rw [if_pos set] at bound ⊢
      have positive : 1 ≤ (s.store.dataBase db).connectNum.toNat := by omega
      have gone := DataBase.toNat_decConnectionNum positive
      omega
    · rw [if_neg set] at bound ⊢
      omega

end Backends

end OneProxy
