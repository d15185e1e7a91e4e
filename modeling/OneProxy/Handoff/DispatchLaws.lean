import OneProxy.Lib.Counting
import OneProxy.Handoff.Dispatch

/-! Exactly-once hand-over of accepted sockets, over every interleaving. -/

namespace OneProxy

open Runs Frames

/-- What holds of the streams: whole pointers, delivered in the order they were written. -/
structure Streams (srv : Server) (s : Handoff) : Prop where
  bytes : ∀ w ∈ s.writes, w.bytes = pointerBytes w.socket
  workers : ∀ w ∈ s.writes, w.ct ∈ srv.threadMap
  aligned : ∀ ct, pointerFormat.Aligned (s.channel ct)
  ordered : ∀ ct, s.added ct ++ pointerFormat.decodeAll (s.channel ct) =
    (s.writes.filter (·.ct = ct)).map Write.socket
  -- A worker has been told of whole pointers, which are still there.
  told : ∀ ct dataLen, s.reported ct = some dataLen →
    dataLen ≤ (s.channel ct).length ∧ 8 ∣ dataLen ∧ dataLen < 0x80000000

/-- What holds of the sockets on their way: each is at one place, and aimed at a worker. -/
structure Flow (srv : Server) (s : Handoff) : Prop where
  counted : ∀ p, s.accepted.count p = s.inFlight.count p + (s.writes.map Write.socket).count p
  nonNull : 0 ∉ s.accepted
  chosen : ∀ call ∈ s.accepting, ∀ ct ∈ call.target, ct ∈ srv.threadMap
  walked : ∀ ct ∈ s.manager.threads, ct ∈ srv.threadMap

/-- The walk only ever keeps workers it has passed. -/
theorem minTaskStep_mem {load : Loads} {threads : List ThreadId}
    {start : Option ThreadId × UInt32 × UInt32} {ct : ThreadId}
    (kept : (threads.foldl (minTaskStep load) start).1 = some ct) :
    ct ∈ threads ∨ start.1 = some ct := by
  induction threads generalizing start with
  | nil => exact .inr kept
  | cons first threads ih =>
    rcases ih kept with later | here
    · exact .inl (List.mem_cons_of_mem _ later)
    · -- The first worker either replaces the one kept so far or leaves it.
      obtain ⟨thread, minTask, sumTask⟩ := start
      simp only [minTaskStep] at here
      split at here
      · cases here
        exact .inl List.mem_cons_self
      · split at here
        · cases here
          exact .inl List.mem_cons_self
        · exact .inr here

/-- The worker chosen by load is one of the workers. -/
theorem getMinTaskThread_mem {srv : Server} {load : Loads} {ct : ThreadId}
    (found : getMinTaskThread srv load = some ct) : ct ∈ srv.threadMap := by
  simp only [getMinTaskThread] at found
  split at found
  · cases found
  · rcases minTaskStep_mem found with member | none
    · exact member
    · cases none

/-- Writing a socket's own address keeps the streams in order. -/
theorem Streams.write {srv : Server} {s : Handoff} (before : Streams srv s) {ct : ThreadId}
    (worker : ct ∈ srv.threadMap) (ns : Address) :
    Streams srv (s.writeSocketPair ct ns (pointerBytes ns)) where
  bytes w member := by
    rcases List.mem_append.mp member with old | new
    · exact before.bytes w old
    · simp only [List.mem_singleton] at new
      rw [new]
  workers w member := by
    rcases List.mem_append.mp member with old | new
    · exact before.workers w old
    · simp only [List.mem_singleton] at new
      rw [new]
      exact worker
  aligned other := by
    by_cases same : other = ct
    · subst same
      simpa [Handoff.writeSocketPair] using
        (before.aligned other).append (aligned_encode pointerFormat ns)
    · simpa [Handoff.writeSocketPair, Function.update_of_ne same] using before.aligned other
  ordered other := by
    by_cases same : other = ct
    · subst same
      -- The channel holds whole addresses, so the new one is read behind them.
      have last : pointerFormat.decodeAll (s.channel other ++ pointerBytes ns) =
          pointerFormat.decodeAll (s.channel other) ++ [ns] :=
        decodeAll_append_encode pointerFormat (before.aligned other) ns
      have old := before.ordered other
      simp only [Handoff.writeSocketPair, Function.update_self, List.filter_append, List.map_append]
      rw [← old]
      simpa using last
    · have differs : ¬ ct = other := fun equal => same equal.symm
      simpa [Handoff.writeSocketPair, Function.update_of_ne same,
        differs] using before.ordered other
  told other dataLen known := by
    obtain ⟨there, whole, small⟩ := before.told other dataLen known
    refine ⟨?_, whole, small⟩
    by_cases same : other = ct
    · subst same
      simp [Handoff.writeSocketPair]
      omega
    · simpa [Handoff.writeSocketPair, Function.update_of_ne same] using there

/-- Taking a whole number of pointers off a stream leaves a whole number. -/
theorem aligned_take_drop {stream : Bytes} (whole : pointerFormat.Aligned stream) {dataLen : Nat}
    (there : dataLen ≤ stream.length) (eight : 8 ∣ dataLen) :
    pointerFormat.Aligned (stream.take dataLen) ∧ pointerFormat.Aligned (stream.drop dataLen) := by
  have front : pointerFormat.Aligned (stream.take dataLen) := by
    show 8 ∣ (stream.take dataLen).length
    rw [List.length_take, Nat.min_eq_left there]
    exact eight
  have parts : pointerFormat.Aligned (stream.take dataLen ++ stream.drop dataLen) := by
    rwa [List.take_append_drop]
  exact ⟨front, parts.of_append front⟩

/-- A worker that has been told of bytes ends its call having added the pointers they are. -/
theorem Streams.returns {srv : Server} {s : Handoff} (streams : Streams srv s) {ct : ThreadId}
    {dataLen : Nat} (known : s.reported ct = some dataLen) {call : ReadCall}
    (fionread : call.fionread = some (UInt32.ofNat dataLen))
    (recv : call.recv = some ((s.channel ct).take dataLen)) :
    call.Returns (pointerFormat.decodeAll ((s.channel ct).take dataLen)) := by
  obtain ⟨there, whole, small⟩ := streams.told ct dataLen known
  -- What the call takes out of the stream is what it was told of, also when that is nothing.
  have chunk : call.chunk = (s.channel ct).take dataLen := by
    simp only [ReadCall.chunk, fionread, recv, Option.getD_some]
    split
    · next none =>
      rw [UInt32.le_iff_toNat_le, UInt32.toNat_ofNat'] at none
      have zero : dataLen = 0 := by
        have bound : dataLen % 2 ^ 32 ≤ 0 := none
        omega
      rw [zero, List.take_zero]
    · rfl
  have aligned := (aligned_take_drop (streams.aligned ct) there whole).1
  rw [← chunk] at aligned ⊢
  exact returns_of_aligned aligned

/-- A worker's `recv` moves pointers from the front of its stream to those it has added. -/
theorem Streams.receive {srv : Server} {s : Handoff} (streams : Streams srv s) {ct : ThreadId}
    {dataLen : Nat} (known : s.reported ct = some dataLen) {call : ReadCall}
    (fionread : call.fionread = some (UInt32.ofNat dataLen))
    (recv : call.recv = some ((s.channel ct).take dataLen)) {fuel : Nat} {added : List Address}
    (done : readClientSocket fuel call = some added) :
    Streams srv { s with
      channel := Function.update s.channel ct ((s.channel ct).drop dataLen)
      reported := Function.update s.reported ct none
      added := Function.update s.added ct (s.added ct ++ added) } := by
  obtain ⟨there, whole, -⟩ := streams.told ct dataLen known
  obtain ⟨front, back⟩ := aligned_take_drop (streams.aligned ct) there whole
  have read : added = pointerFormat.decodeAll ((s.channel ct).take dataLen) :=
    returns_unique ⟨fuel, done⟩ (streams.returns known fionread recv)
  refine ⟨streams.bytes, streams.workers, fun other => ?_, fun other => ?_,
    fun other amount told => ?_⟩
  · by_cases same : other = ct
    · subst same
      simpa using back
    · simpa [Function.update_of_ne same] using streams.aligned other
  · by_cases same : other = ct
    · subst same
      -- The pointers read are the first of those the stream held.
      have split := decodeAll_append pointerFormat front ((s.channel other).drop dataLen)
      rw [List.take_append_drop] at split
      have old := streams.ordered other
      rw [split] at old
      simpa [read] using old
    · simpa [Function.update_of_ne same] using streams.ordered other
  · by_cases same : other = ct
    · subst same
      simp at told
    · simp only [Function.update_of_ne same] at told ⊢
      exact streams.told other amount told

/-- What one step of `accept_clientRequest` does to the streams and to its socket. -/
theorem acceptClientRequest_spec {srv : Server} {s t : Handoff} (streams : Streams srv s)
    {load : Loads} {call : AcceptCall} {next : List AcceptCall}
    (aimed : ∀ ct ∈ call.target, ct ∈ srv.threadMap)
    (done : acceptClientRequest srv s load call = some (t, next)) :
    Streams srv t ∧ t.accepting = s.accepting ∧ t.accepted = s.accepted ∧ t.manager = s.manager ∧
      (∀ other ∈ next, ∀ ct ∈ other.target, ct ∈ srv.threadMap) ∧
      ∀ p, (next.map AcceptCall.clientSocket).count p + t.taskQueue.count p +
          (t.writes.map Write.socket).count p =
        [call.clientSocket].count p + s.taskQueue.count p +
          (s.writes.map Write.socket).count p := by
  -- The socket stays with the call, goes to the queue or is written.
  cases call with
  | entered p =>
    simp only [acceptClientRequest] at done
    split at done
    all_goals
      cases done
      exact ⟨streams, rfl, rfl, rfl, by simp [AcceptCall.target], by simp [AcceptCall.clientSocket]⟩
  | queueing p =>
    simp only [acceptClientRequest] at done
    split at done
    · cases done
    · cases done
      refine ⟨⟨streams.bytes, streams.workers, streams.aligned, streams.ordered, streams.told⟩,
        rfl, rfl, rfl, by simp, fun q => ?_⟩
      simp only [AcceptCall.clientSocket, List.map_nil, List.count_nil, List.count_append]
      omega
  | choosing p =>
    simp only [acceptClientRequest] at done
    cases found : getMinTaskThread srv load with
    | none =>
      rw [found] at done
      cases done
      exact ⟨streams, rfl, rfl, rfl, by simp [AcceptCall.target], by simp [AcceptCall.clientSocket]⟩
    | some ct =>
      rw [found] at done
      cases done
      refine ⟨streams, rfl, rfl, rfl, ?_, by simp [AcceptCall.clientSocket]⟩
      simpa [AcceptCall.target] using getMinTaskThread_mem found
  | writing p ct =>
    simp only [acceptClientRequest] at done
    cases done
    refine ⟨streams.write (aimed ct (by simp [AcceptCall.target])) p, rfl, rfl, rfl, by simp,
      fun q => ?_⟩
    simp only [Handoff.writeSocketPair, AcceptCall.clientSocket, List.map_nil, List.count_nil,
      List.map_append, List.count_append, List.map_cons]
    omega

/-- What one step of `alloc_task` does, where a socket it holds begins with its own address. -/
theorem allocTask_spec {srv : Server} {s t : Handoff} (streams : Streams srv s) {load : Loads}
    (walked : ∀ ct ∈ s.manager.threads, ct ∈ srv.threadMap)
    (faithful : ∀ ns ∈ s.manager.held, objectBytes (srv.object ns) = pointerBytes ns)
    (nonNull : 0 ∉ s.manager.held) (done : allocTask srv s load = some t) :
    Streams srv t ∧ t.accepting = s.accepting ∧ t.accepted = s.accepted ∧
      (∀ ct ∈ t.manager.threads, ct ∈ srv.threadMap) ∧
      ∀ p, t.taskQueue.count p + t.manager.held.count p + (t.writes.map Write.socket).count p =
        s.taskQueue.count p + s.manager.held.count p + (s.writes.map Write.socket).count p := by
  have same : ∀ queue pc, Streams srv { s with taskQueue := queue, manager := pc } := fun _ _ =>
    ⟨streams.bytes, streams.workers, streams.aligned, streams.ordered, streams.told⟩
  -- One case for each place in the code; two of them pop, two of them write.
  cases place : s.manager with
  | outside =>
    simp only [allocTask, place] at done
    split at done
    · cases done
      exact ⟨streams, rfl, rfl, walked, fun p => by rw [place]⟩
    · split at done
      · cases done
      · cases done
        exact ⟨same _ _, rfl, rfl, fun ct member => member, fun p => by simp [AllocPc.held]⟩
  | perThread threads =>
    rw [place] at walked
    cases threads with
    | nil =>
      simp only [allocTask, place] at done
      cases done
      exact ⟨same _ _, rfl, rfl, by simp [AllocPc.threads], fun p => by simp [AllocPc.held]⟩
    | cons ct rest =>
      simp only [allocTask, place] at done
      split at done
      · cases done
        exact ⟨same _ _, rfl, rfl, walked, fun p => by simp [AllocPc.held]⟩
      · cases done
        exact ⟨same _ _, rfl, rfl, fun other member => walked other (List.mem_cons_of_mem _ member),
          fun p => by simp [AllocPc.held]⟩
  | perThreadSize ct rest =>
    rw [place] at walked
    simp only [allocTask, place] at done
    split at done
    · cases done
      exact ⟨same _ _, rfl, rfl, by simp [AllocPc.threads], fun p => by simp [AllocPc.held]⟩
    · cases done
      exact ⟨same _ _, rfl, rfl, walked, fun p => by simp [AllocPc.held]⟩
  | perThreadLock ct rest =>
    rw [place] at walked
    cases queued : s.taskQueue with
    | nil =>
      simp only [allocTask, place, queued] at done
      cases done
      exact ⟨same _ _, rfl, rfl, walked, fun p => by simp [AllocPc.held]⟩
    | cons ns queue =>
      -- The socket at the front of the queue is now held.
      simp only [allocTask, place, queued] at done
      cases done
      refine ⟨same _ _, rfl, rfl, walked, fun p => ?_⟩
      simp only [AllocPc.held, List.count_nil, List.count_cons]
      omega
  | perThreadWrite ns ct rest =>
    rw [place] at walked faithful
    simp only [allocTask, place, faithful ns (by simp [AllocPc.held])] at done
    cases done
    have written := streams.write (walked ct (by simp [AllocPc.threads])) ns
    refine ⟨⟨written.bytes, written.workers, written.aligned, written.ordered, written.told⟩,
      rfl, rfl,
      walked, fun p => ?_⟩
    simp only [Handoff.writeSocketPair, AllocPc.held, List.map_append, List.count_append,
      List.map_cons, List.map_nil, List.count_nil]
    omega
  | drain =>
    simp only [allocTask, place] at done
    split at done
    all_goals
      cases done
      exact ⟨same _ _, rfl, rfl, by simp [AllocPc.threads], fun p => by simp [AllocPc.held]⟩
  | drainChoose =>
    simp only [allocTask, place] at done
    cases found : getMinTaskThread srv load with
    | none =>
      rw [found] at done
      cases done
      exact ⟨same _ _, rfl, rfl, by simp [AllocPc.threads], fun p => by simp [AllocPc.held]⟩
    | some ct =>
      rw [found] at done
      cases done
      have member := getMinTaskThread_mem found
      exact ⟨same _ _, rfl, rfl, by simpa [AllocPc.threads] using member,
        fun p => by simp [AllocPc.held]⟩
  | drainLock ct =>
    rw [place] at walked
    cases queued : s.taskQueue with
    | nil =>
      simp only [allocTask, place, queued] at done
      cases done
      exact ⟨same _ _, rfl, rfl, by simp [AllocPc.threads], fun p => by simp [AllocPc.held]⟩
    | cons ns queue =>
      simp only [allocTask, place, queued] at done
      cases done
      refine ⟨same _ _, rfl, rfl, walked, fun p => ?_⟩
      simp only [AllocPc.held, List.count_nil, List.count_cons]
      omega
  | drainWrite ns ct =>
    rw [place] at walked faithful nonNull
    have there : ns ≠ 0 := by
      rintro rfl
      simp [AllocPc.held] at nonNull
    simp only [allocTask, place, faithful ns (by simp [AllocPc.held]), if_neg there] at done
    cases done
    have written := streams.write (walked ct (by simp [AllocPc.threads])) ns
    refine ⟨⟨written.bytes, written.workers, written.aligned, written.ordered, written.told⟩,
      rfl, rfl,
      by simp [AllocPc.threads], fun p => ?_⟩
    simp only [Handoff.writeSocketPair, AllocPc.held, List.map_append, List.count_append,
      List.map_cons, List.map_nil, List.count_nil]
    omega

/-- A socket that is held or queued has been accepted, so it is not the null pointer. -/
theorem Flow.held_nonNull {srv : Server} {s : Handoff} (flow : Flow srv s) :
    0 ∉ s.manager.held := by
  intro member
  have held := List.count_pos_iff.mpr member
  have none := List.count_eq_zero.mpr flow.nonNull
  have counted := flow.counted 0
  simp only [Handoff.inFlight, List.count_append] at counted
  omega

/-- One step of any thread keeps the streams and the flow, where it writes no foreign bytes. -/
theorem handoffStep_spec {srv : Server} {s t : Handoff} {l : HandoffLabel}
    (before : Streams srv s ∧ Flow srv s) (faithful : WritesAddress srv s l)
    (done : handoffStep srv s l = some t) : Streams srv t ∧ Flow srv t := by
  obtain ⟨streams, flow⟩ := before
  cases l with
  | accept p =>
    simp only [handoffStep] at done
    split at done
    · cases done
    · next there =>
      cases done
      refine ⟨⟨streams.bytes, streams.workers, streams.aligned, streams.ordered, streams.told⟩,
        ⟨fun q => ?_, ?_, ?_, flow.walked⟩⟩
      · have counted := flow.counted q
        simp only [Handoff.inFlight, List.count_append, List.map_cons, List.count_cons,
          AcceptCall.clientSocket, List.count_nil] at counted ⊢
        omega
      · simpa [Ne.symm there] using flow.nonNull
      · intro call member
        rcases List.mem_cons.mp member with rfl | old
        · simp [AcceptCall.target]
        · exact flow.chosen call old
  | acceptStep call load =>
    simp only [handoffStep] at done
    split at done
    · cases done
    · next present =>
      have member : call ∈ s.accepting := by simpa using present
      simp only [Option.bind_eq_bind, Option.bind_eq_some_iff] at done
      obtain ⟨⟨u, next⟩, stepped, same⟩ := done
      cases same
      obtain ⟨after, accepting, accepted, manager, aimed, moved⟩ :=
        acceptClientRequest_spec streams (flow.chosen call member) stepped
      refine ⟨⟨after.bytes, after.workers, after.aligned, after.ordered, after.told⟩,
        ⟨fun q => ?_, by rw [accepted]; exact flow.nonNull, ?_, by rw [manager]; exact flow.walked⟩⟩
      · -- The call is replaced by what comes next of it.
        have taken := ((List.perm_cons_erase member).map AcceptCall.clientSocket).count_eq q
        have counted := flow.counted q
        have here := moved q
        simp only [Handoff.inFlight, List.count_append, List.map_append, List.map_cons,
          List.count_cons, List.count_nil, accepting, accepted, manager] at *
        omega
      · intro other found
        rcases List.mem_append.mp found with new | old
        · exact aimed other new
        · rw [accepting] at old
          exact flow.chosen other (List.mem_of_mem_erase old)
  | allocTask load =>
    obtain ⟨after, accepting, accepted, walked, moved⟩ :=
      allocTask_spec streams flow.walked faithful flow.held_nonNull done
    refine ⟨after, ⟨fun q => ?_, by rw [accepted]; exact flow.nonNull,
      by rw [accepting]; exact flow.chosen, walked⟩⟩
    have counted := flow.counted q
    have here := moved q
    simp only [Handoff.inFlight, List.count_append, accepting, accepted] at *
    omega
  | ready ct dataLen =>
    simp only [handoffStep] at done
    split at done
    · next told =>
      cases done
      refine ⟨⟨streams.bytes, streams.workers, streams.aligned, streams.ordered, ?_⟩,
        ⟨flow.counted, flow.nonNull, flow.chosen, flow.walked⟩⟩
      intro other amount known
      by_cases same : other = ct
      · subst same
        simp only [Function.update_self, Option.some.injEq] at known
        subst known
        exact ⟨told.1, told.2.1, told.2.2.1⟩
      · simp only [Function.update_of_ne same] at known
        exact streams.told other amount known
    · cases done
  | receive ct fuel call =>
    simp only [handoffStep, Option.bind_eq_bind, Option.bind_eq_some_iff] at done
    obtain ⟨dataLen, known, done⟩ := done
    split at done
    · cases done
    · next answers =>
      simp only [Option.bind_eq_some_iff] at done
      obtain ⟨added, read, same⟩ := done
      cases same
      simp only [not_or, not_not] at answers
      exact ⟨streams.receive known answers.1 answers.2 read,
        ⟨flow.counted, flow.nonNull, flow.chosen, flow.walked⟩⟩

/-- Before anything is accepted there is nothing to account for. -/
theorem initial_streams (srv : Server) : Streams srv .initial ∧ Flow srv .initial := by
  refine ⟨⟨by simp [Handoff.initial], by simp [Handoff.initial], fun ct => ?_, fun ct => ?_,
    by simp [Handoff.initial]⟩, ⟨fun p => ?_, ?_, by simp [Handoff.initial], ?_⟩⟩
  · exact aligned_nil pointerFormat
  · simp [Handoff.initial]
  · simp [Handoff.initial, Handoff.inFlight, AllocPc.held]
  · simp [Handoff.initial]
  · simp [Handoff.initial, AllocPc.threads]

/-- The account of writes is an account of what the workers have added or will read. -/
theorem handedOff_of_flow {srv : Server} {s : Handoff} (streams : Streams srv s)
    (flow : Flow srv s) : HandedOff srv s where
  bytes := streams.bytes
  ordered := streams.ordered
  once p := by
    -- Each write is found at exactly one worker, the one it was made to.
    have sorted := Counting.sum_countP_filter srv.keys Write.ct (fun w => w.socket == p)
      streams.workers
    have each : ∀ ct, (s.added ct).count p + (pointerFormat.decodeAll (s.channel ct)).count p =
        (s.writes.filter (·.ct = ct)).countP (fun w => w.socket == p) := by
      intro ct
      rw [← List.count_append, streams.ordered ct, List.count, List.countP_map]
      rfl
    have all : (s.writes.map Write.socket).count p = s.writes.countP (fun w => w.socket == p) := by
      rw [List.count, List.countP_map]
      rfl
    simp only [each]
    rw [sorted, ← all]
    exact flow.counted p
  returns _ _ known _ fionread recv := streams.returns known fionread recv

/--
In every run that only writes sockets' own addresses, each socket is handed over exactly once.
-/
theorem handedOff_of_writesAddress {srv : Server} {s : Handoff}
    (reached : Reachable ((handoffSystem srv).restrict (WritesAddress srv)) s) :
    HandedOff srv s := by
  -- The streams and the flow are kept together along the run.
  have start : ∀ u, ((handoffSystem srv).restrict (WritesAddress srv)).init u →
      Streams srv u ∧ Flow srv u := by
    rintro u rfl
    exact initial_streams srv
  have keep : ∀ u l v, Streams srv u ∧ Flow srv u →
      ((handoffSystem srv).restrict (WritesAddress srv)).step u l v → Streams srv v ∧ Flow srv v :=
    fun u l v before last => handoffStep_spec before last.1 last.2
  obtain ⟨streams, flow⟩ := reached.invariant start keep
  exact handedOff_of_flow streams flow

/-- A server with one worker, of whose objects one happens to begin with its own address. -/
def oneWorker : Server where
  maxConnectNum := 1
  threadMap := [1]
  object p :=
    if p = 0x7f0000000010 then { NetworkSocket.new [] 0x7f00 with fd := 16 }
    else { NetworkSocket.new [] 54321 with fd := 9 }
  keys := by decide

/-- Every worker has this many tasks, however often it is asked. -/
def evenLoad (tasks : UInt32) : Loads := fun _ => ⟨tasks, tasks, tasks⟩

/-- A socket accepted while the worker is over the limit waits in the queue and is popped later. -/
def queueRun (p : Address) (received : ReadCall) : List HandoffLabel :=
  [.accept p, .acceptStep (.entered p) (evenLoad 2), .acceptStep (.choosing p) (evenLoad 2),
    .acceptStep (.queueing p) (evenLoad 2), .allocTask (evenLoad 0), .allocTask (evenLoad 0),
    .allocTask (evenLoad 0), .allocTask (evenLoad 0), .allocTask (evenLoad 0), .ready 1 8,
    .receive 1 2 received]

/--
The hand-over of a socket that goes through the queue and whose object begins with its address.
-/
theorem handedOff_selfDescribing :
    ∃ s, s.accepted = [0x7f0000000010] ∧ s.added 1 = [0x7f0000000010] ∧
      HandedOff oneWorker s := by
  have run : (exec (guarded (WritesAddress oneWorker) (handoffStep oneWorker)) .initial
      (queueRun 0x7f0000000010 (.offering (pointerBytes 0x7f0000000010) (by decide)))).map
        (fun s => (s.accepted, s.added 1)) = some ([0x7f0000000010], [0x7f0000000010]) := by
    decide +kernel
  obtain ⟨s, reached, seen⟩ := exists_reachable_guarded (· = .initial) rfl run
  simp only [Prod.mk.injEq] at seen
  exact ⟨s, seen.1, seen.2, handedOff_of_writesAddress reached⟩

/--
A worker is given the descriptor and the port of a queued socket as if they were its address.

The socket at 0x7f00a0 has descriptor 9 and port 54321, and its worker adds 0xd43100000009.
-/
theorem queued_socket_lost :
    ∃ s, Reachable (handoffSystem oneWorker) s ∧ s.accepted = [0x7f00a0] ∧ s.inFlight = [] ∧
      s.added 1 = [0xd43100000009] ∧ ¬ HandedOff oneWorker s := by
  have run : (exec (handoffStep oneWorker) .initial
      (queueRun 0x7f00a0 (.offering (objectBytes (oneWorker.object 0x7f00a0)) (by decide)))).map
        (fun s => (s.accepted, s.inFlight, s.added 1, s.channel 1)) =
      some ([0x7f00a0], [], [0xd43100000009], []) := by
    decide +kernel
  obtain ⟨s, reached, seen⟩ := exists_reachable (· = .initial) rfl run
  simp only [Prod.mk.injEq] at seen
  obtain ⟨accepted, inFlight, added, channel⟩ := seen
  refine ⟨s, reached, accepted, inFlight, added, fun handed => ?_⟩
  -- The accepted pointer is at no worker and nowhere on its way.
  have once := handed.once 0x7f00a0
  rw [accepted, inFlight] at once
  simp [oneWorker, added, channel] at once

end OneProxy
