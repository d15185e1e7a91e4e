import OneProxy.Forward.RelayLaws

/-! Whatever has happened to a connection, all that has come in can still be sent on. -/

namespace OneProxy

open Memory Runs

/-! ## Writing -/

/-- `send` takes something each time it is called. -/
def Accepts (answers : List SendAnswer) : Prop :=
  ∀ answer ∈ answers, ∃ count, answer = .accept count

section

variable {answers : List SendAnswer} {buf : StringBuf} {done : WriteResult}

/-- Where `send` takes something each time, the loop ends with 0. -/
theorem writeLoop_accepts (accepts : Accepts answers) (ended : writeLoop answers buf = some done) :
    done.ret = 0 ∧ Accepts done.answers := by
  -- Each turn uses up an answer, none of which stops the loop.
  induction answers generalizing buf done with
  | nil =>
    unfold writeLoop at ended
    split at ended
    · cases ended
    · cases ended
      exact ⟨rfl, accepts⟩
  | cons answer answers ih =>
    have later : Accepts answers := fun other member =>
      accepts other (List.mem_cons_of_mem _ member)
    unfold writeLoop at ended
    split at ended
    · obtain ⟨count, rfl⟩ := accepts answer List.mem_cons_self
      simp only [Option.bind_eq_bind, Option.bind_eq_some_iff] at ended
      obtain ⟨sent, -, rest, restEnded, same⟩ := ended
      cases same
      exact @ih _ rest later restEnded
    · cases ended
      exact ⟨rfl, accepts⟩

end

namespace Forward

variable {m : Allocator UInt8} {answers : List SendAnswer} {con after : Forward} {isFront : Bool}
  {des : NetworkSocket} {ret : Int}

/-- Emptying the received block leaves what is parked. -/
theorem parked_clearBlock (side : Bool) :
    (con.clearBlock m isFront).parked side = con.parked side :=
  congrArg Pipe.pending (pipe_clearBlock m con isFront side)

/-- Then nothing of the block is parked. -/
theorem writeBlock_accepts (accepts : Accepts answers)
    (done : writeBlock m answers con isFront des = some (ret, after)) :
    ret = 0 ∧ after.parked isFront = con.parked isFront := by
  -- The loop ends with 0, so that of the three ways to end only the last is left.
  obtain ⟨sent, ended, ⟨one, -⟩ | ⟨failed, -⟩ | ⟨-, zero, rfl⟩⟩ := writeBlock_cases done
  · rw [(writeLoop_accepts accepts ended).1] at one
    cases one
  · exact absurd (writeLoop_accepts accepts ended).1 failed.1
  · exact ⟨zero, parked_clearBlock isFront⟩

/-- And nothing at all is parked after a write. -/
theorem writeData_accepts (wf : con.WellFormed) (accepts : Accepts answers)
    (done : writeData m answers con isFront = some (ret, after)) :
    ret = 0 ∧ after.parked isFront = [] := by
  obtain ⟨des, found, ends⟩ := writeData_cases done
  have send := (wf _ _ found).2
  have emptied : ∀ {buf : StringBuf} {mid : Forward}, buf.WellFormed →
      mid.socket isFront = some { des with sendData := buf.clear m } →
        mid.parked isFront = [] := by
    intro buf mid wf there
    rw [parked, there]
    exact StringBuf.remaining_clear m wf
  rcases ends with ⟨-, zero, rfl⟩ | ⟨-, sent, ended, sentEnds⟩ | ⟨none_, -, done⟩
  · exact ⟨zero, emptied send (socket_setSocket _ _ _)⟩
  · obtain ⟨zero, later⟩ := writeLoop_accepts accepts ended
    rcases sentEnds with ⟨one, -⟩ | ⟨failed, -⟩ | ⟨-, done⟩
    · rw [zero] at one
      cases one
    · exact absurd zero failed.1
    · -- What was parked is gone, and the block leaves nothing behind.
      obtain ⟨restWf, -⟩ := writeLoop_spec send ended
      obtain ⟨here, -⟩ := @flushed_frame m con isFront des sent
      obtain ⟨zero, same⟩ := writeBlock_accepts later done
      exact ⟨zero, same.trans (emptied restWf here)⟩
  · obtain ⟨zero, same⟩ := writeBlock_accepts accepts done
    refine ⟨zero, same.trans ?_⟩
    rw [parked, found]
    exact remaining_eq_nil send (UInt32.not_lt.mp none_)

/-- A write of no more than there are answers for ends, and all of it is sent. -/
theorem writeData_whole {queue : Nat} (succeeds : m.Succeeds) (wf : con.WellFormed)
    (here : con.socket isFront = some des) (accepts : Accepts answers)
    (fits : queue ≤ StringBuf.maxSize)
    (size : (con.parked isFront ++ (con.block isFront).remaining).length ≤ queue)
    (enough : queue < answers.length) :
    ∃ after, writeData m answers con isFront = some (0, after) ∧ after.parked isFront = [] ∧
      after.finished = con.finished := by
  -- Each `send` takes a byte at least, so that the answers suffice.
  obtain ⟨result, wrote⟩ := writeData_defined succeeds wf here (Nat.le_trans size fits)
    (Nat.lt_of_le_of_lt size enough)
  obtain ⟨ret, after⟩ := result
  obtain ⟨rfl, none_⟩ := writeData_accepts wf accepts wrote
  rcases writeData_ends wrote with ⟨-, same⟩ | ⟨failed, -⟩
  · exact ⟨after, wrote, none_, same⟩
  · exact absurd rfl failed

/-- What is parked on the other side stays there. -/
theorem writeData_other (wf : con.WellFormed) (alive : after.finished = false)
    (wrote : writeData m answers con isFront = some (ret, after)) :
    after.parked (!isFront) = con.parked (!isFront) :=
  congrArg Pipe.pending (writeData_spec wf wrote alive).frame

end Forward

/-! ## Reading -/

/-- A read takes all that waits, where the kernel gives it. -/
theorem readNosslData_whole {m : Allocator UInt8} {count : Nat} {waiting : Bytes}
    {ns : NetworkSocket} (succeeds : m.Succeeds) (wf : ns.recvData.WellFormed)
    (empty : ns.recvData.bytes = []) (fits : waiting.length ≤ StringBuf.maxSize)
    (some_ : waiting ≠ []) (enough : waiting.length ≤ count + 1) :
    ∃ done, readNosslData m (.bytes count) waiting ns = some done ∧ done.ret = 0 ∧
      done.taken = waiting := by
  have length := length_of_empty wf empty
  have dataLen := toNat_of_fits fits
  have none_ : ¬ UInt32.ofNat waiting.length = 0 := by
    intro zero
    rw [zero] at dataLen
    exact some_ (List.eq_nil_of_length_eq_zero dataLen.symm)
  obtain ⟨grown, made, grownWf, -, grownLength, -, room⟩ :=
    @StringBuf.reallocMem_spec m ns.recvData (ns.recvData.length + UInt32.ofNat waiting.length) wf
      (succeeds _) (by rw [length, UInt32.zero_add, dataLen]; exact fits)
  rw [length, UInt32.zero_add, dataLen] at room
  rw [length, UInt32.zero_add] at made
  have whole : waiting.take (min (count + 1) (UInt32.ofNat waiting.length).toNat) = waiting := by
    rw [dataLen, Nat.min_eq_right enough, List.take_length]
  -- The buffer was empty, so that all of it has room.
  have within : grown.length.toNat + waiting.length ≤ grown.allocateLen.toNat := by
    rw [grownLength, length]
    have zero : (0 : UInt32).toNat = 0 := rfl
    omega
  obtain ⟨filled, received, -⟩ := StringBuf.recvInto_spec grownWf within
  refine ⟨⟨0, { ns with recvData := filled }, waiting⟩, ?_, rfl, rfl⟩
  rw [readNosslData, if_neg (by simp), if_neg none_]
  simp only [length, UInt32.zero_add, made, whole, received, Option.bind_eq_bind,
    Option.bind_some]

/-! ## The handlers -/

/-- Nothing fails, and the kernel takes and gives all that there is. -/
structure Turn.Full (turn : Turn) (queue : Nat) : Prop where
  served : turn.Served
  recv : ∃ count, turn.recv = .bytes count ∧ queue ≤ count + 1
  found : turn.found = true
  send : ∀ i, Accepts (turn.send i)
  enough : ∀ i, queue < (turn.send i).length

/-- In such a call nothing fails. -/
theorem Turn.Full.works {turn : Turn} {queue : Nat} (full : turn.Full queue) : turn.Works := by
  obtain ⟨count, recv, -⟩ := full.recv
  refine ⟨by simp [recv], full.found, fun i error => ?_⟩
  obtain ⟨count, same⟩ := full.send i _ error
  cases same

namespace Relay

variable {s t u : Relay} {turn : Turn} {queue times : Nat} {isFront front : Bool}
  {des src ns : NetworkSocket}

/-- Where nothing is parked, nothing is pending. -/
theorem pending_false (wf : s.con.WellFormed) (none_ : s.con.parked front = []) :
    s.pending front (·.sendData) = false := by
  cases found : s.con.socket front with
  | none => rw [pending, found, Option.any_none]
  | some ns =>
    rw [Forward.parked, found] at none_
    rw [Bool.eq_false_iff, ne_eq, pending_iff found (wf _ _ found).2]
    exact not_not.mpr none_

/-- A block that is ready is sent on whole. -/
theorem Ready.sends (ready : s.Ready isFront des src) (full : turn.Full queue)
    (fits : queue ≤ StringBuf.maxSize) (small : src.recvData.remaining.length ≤ queue) :
    ∃ t, s.sendData turn isFront = some t ∧ ∀ side, t.con.parked side = [] := by
  have parked : s.con.parked isFront = [] := by
    rw [Forward.parked, ready.here]
    exact ready.unparked
  have block : s.con.block isFront = src.recvData := by rw [Forward.block, ready.there]
  have size : (s.con.parked isFront ++ (s.con.block isFront).remaining).length ≤ queue := by
    rw [parked, List.nil_append, block]
    exact small
  obtain ⟨con, wrote, here, same⟩ := Forward.writeData_whole full.served.malloc ready.wf ready.here
    (full.send 0) fits size (full.enough 0)
  have alive : con.finished = false := same.trans ready.alive
  have wf := (writeData_spec ready.wf wrote alive).wellFormed
  have there : con.parked (!isFront) = [] := by
    rw [Forward.writeData_other ready.wf alive wrote, Forward.parked, ready.there]
    exact ready.unparked'
  -- Nothing is parked on either side, so that the other two writes are not made.
  have first := (pending_iff ready.there (ready.wf _ _ ready.there).1).mpr ready.block
  have second : pending { s with con := con } (!isFront) (·.sendData) = false :=
    pending_false wf there
  have third : pending { s with con := con } isFront (·.sendData) = false :=
    pending_false wf here
  refine ⟨{ s with con := con }, ?_, Forward.socket_cases isFront here there⟩
  simp only [Relay.sendData, first, writeIf, wrote, second, third, Bool.false_eq_true, if_true,
    if_false, ne_eq, not_true_eq_false, Option.bind_eq_bind, Option.bind_some, Option.map_some]

/-- After a call all that one side had sent is on its way, and nothing is parked. -/
structure Passed (s t : Relay) (front : Bool) : Prop where
  alive : t.con.finished = false
  unparked : ∀ side, t.con.parked side = []
  arrived : t.arrived = s.arrived
  waiting' : t.waiting front = []
  other : t.waiting (!front) = s.waiting (!front)

/-- A read of all that waits, which is then sent on. -/
theorem Reads.passed {block : Bytes} (reads : Reads queue s t front (s.waiting front))
    (sent : t.Sent u (!front) block) (unparked : ∀ side, u.con.parked side = []) :
    Passed s u front := by
  obtain ⟨here, there⟩ := reads.taken_eq
  have same : u.taken = t.taken ∧ u.arrived = t.arrived := by
    rw [sent.frame]
    exact ⟨rfl, rfl⟩
  refine ⟨sent.alive, unparked, same.2.trans reads.arrived, ?_, ?_⟩
  · rw [waiting, same.1, same.2, here, taken_waiting (reads.sound.taken front), reads.arrived,
      List.drop_length]
  · rw [waiting, same.1, same.2, there, reads.arrived]
    rfl

/-- A read of all that waits, as the kernel gives it. -/
theorem Sound.reads_whole (sound : s.Sound queue) (full : turn.Full queue)
    (fits : queue ≤ StringBuf.maxSize) (found : s.con.socket front = some ns)
    (some_ : s.waiting front ≠ []) :
    ∃ done, readNosslData turn.malloc turn.recv (s.waiting front) ns = some done ∧
      done.ret = 0 ∧ done.taken = s.waiting front ∧ Received (s.waiting front) ns done := by
  obtain ⟨count, recv, most⟩ := full.recv
  have wf := (sound.settled.wf _ _ found).1
  have empty := sound.settled.empty _ _ found
  have small := Nat.le_trans (sound.waits front) fits
  obtain ⟨done, read, zero, taken⟩ := readNosslData_whole full.served.malloc wf empty small some_
    (Nat.le_trans (sound.waits front) most)
  -- What holds of every read holds of this one.
  rw [← recv] at read
  exact ⟨done, read, zero, taken, (readNosslData_spec full.served.malloc wf empty small read).1⟩

/-- In a call in which nothing fails, a block that is ready is sent. -/
theorem Ready.sent (ready : s.Ready isFront des src) (full : turn.Full queue)
    (done : s.sendData turn isFront = some t) : s.Sent t isFront src.recvData.remaining := by
  rcases ready.sendData done with sent | broken
  · exact sent
  · obtain ⟨i, error⟩ := broken.error
    exact absurd error (full.works.send i)

/-- What the backend has sent is passed on. -/
theorem Sound.passes_backend {sns : NetworkSocket} (sound : s.Sound queue)
    (alive : s.con.finished = false) (idle : s.con.Idle) (full : turn.Full queue)
    (fits : queue ≤ StringBuf.maxSize) (found : s.con.servns = some sns)
    (some_ : s.waiting false ≠ []) :
    ∃ t, s.handleReadBackendData turn = some t ∧ Passed s t false := by
  have there : s.con.socket false = some sns := found
  obtain ⟨done, read, zero, taken, received⟩ := sound.reads_whole full fits there some_
  obtain ⟨cns, client⟩ := Option.isSome_iff_exists.mp sound.settled.client
  have ready := @Sound.ready s true cns queue sns done sound alive idle there client received
    (taken ▸ some_)
  have reads := (sound.reads idle there received).1
  rw [taken] at reads
  obtain ⟨t, sent, unparked⟩ := ready.sends full fits (by
    rw [received.remaining, taken]
    exact sound.waits false)
  -- The call comes to `send_data`, since something was read.
  refine ⟨t, ?_, reads.passed (ready.sent full sent) unparked⟩
  have length : ¬ done.ns.recvData.length = 0 := fun none_ =>
    some_ (taken ▸ received.taken_nil none_)
  rw [Relay.handleReadBackendData, found]
  simp only [read, zero, length, Option.bind_eq_bind, Option.bind_some, if_false]
  exact sent

/-- So is what the client has sent. -/
theorem Sound.passes_front {cns : NetworkSocket} (sound : s.Sound queue)
    (alive : s.con.finished = false) (idle : s.con.Idle) (full : turn.Full queue)
    (fresh : ∀ cns, s.con.clins = some cns → turn.alloc.socket.fd ≠ cns.fd)
    (fits : queue ≤ StringBuf.maxSize) (client : s.con.clins = some cns)
    (some_ : s.waiting true ≠ []) :
    ∃ t, s.handleReadFrontData times turn = some t ∧ Passed s t true := by
  have there : s.con.socket true = some cns := client
  obtain ⟨done, read, zero, taken, received⟩ := sound.reads_whole full fits there some_
  obtain ⟨u, des, served, ready, reads⟩ := @Sound.ready_front s turn queue times cns done sound
    alive idle full.served fresh client received (taken ▸ some_)
  rw [taken] at reads
  obtain ⟨t, sent, unparked⟩ := ready.sends full fits (by
    rw [received.remaining, taken]
    exact sound.waits true)
  -- So does this one, with a protocol and a backend.
  refine ⟨t, ?_, reads.passed (ready.sent full sent) unparked⟩
  have length : ¬ done.ns.recvData.length = 0 := fun none_ =>
    some_ (taken ▸ received.taken_nil none_)
  have more : done.ns.recvData.remailLength > 0 := by
    rw [remailLength_pos received.wf, received.remaining, taken]
    exact List.length_pos_iff.mpr some_
  have parsed := @parseFrontDataPacket_works (s.read true done) turn full.found
  rw [Relay.handleReadFrontData, client]
  simp only [read, zero, length, parsed, more, served, Option.bind_eq_bind, Option.bind_some,
    Bool.not_true, Bool.false_eq_true, if_true, if_false]
  exact sent

/-- What is parked is sent, where there is room for it. -/
theorem Sound.passes_parked (sound : s.Sound queue) (alive : s.con.finished = false)
    (full : turn.Full queue) (fits : queue ≤ StringBuf.maxSize)
    (here : s.con.socket isFront = some des) (there : s.con.socket (!isFront) = some src)
    (unparked : src.sendData.remaining = []) :
    ∃ t, s.callBack times turn ⟨.write, Forward.callback isFront, ()⟩ = some t ∧
      t.con.finished = false ∧ (∀ side, t.con.parked side = []) ∧ t.arrived = s.arrived := by
  have block : (s.con.block isFront).remaining = [] := by
    rw [Forward.block, there, StringBuf.remaining, sound.settled.empty _ _ there, List.drop_nil]
  have size : (s.con.parked isFront ++ (s.con.block isFront).remaining).length ≤ queue := by
    rw [block, List.append_nil]
    exact sound.held isFront
  -- Between two calls there is no block, only what is parked.
  obtain ⟨con, wrote, none_, same⟩ := Forward.writeData_whole full.served.malloc sound.settled.wf
    here (full.send 0) fits size (full.enough 0)
  have alive' : con.finished = false := same.trans alive
  have other : con.parked (!isFront) = [] := by
    rw [Forward.writeData_other sound.settled.wf alive' wrote, Forward.parked, there]
    exact unparked
  refine ⟨{ s with con := con }, ?_, alive', Forward.socket_cases isFront none_ other, rfl⟩
  rw [callBack_write, writeIf, if_pos rfl, wrote]
  rfl

/-! ## Runs -/

/-- Where nothing is parked, a connection is idle. -/
theorem idle_of_unparked (sound : s.Sound queue) (unparked : ∀ side, s.con.parked side = []) :
    s.con.Idle := by
  rcases sound.settled.watched with idle | ⟨side, waits⟩
  · exact idle
  · obtain ⟨des, src, here, -, parked, -⟩ := waits
    have none_ := unparked side
    rw [Forward.parked, here] at none_
    exact absurd none_ parked

/-- A turn in which all goes well. -/
def fullTurn (queue : Nat) (fd : UInt32) : Turn where
  malloc := .filled 0
  recv := .bytes queue
  found := true
  alloc := .connected [] 0 fd
  send _ := List.replicate (queue + 1) (.accept 0)

/-- It is one. -/
theorem full_fullTurn (queue : Nat) (fd : UInt32) : (fullTurn queue fd).Full queue := by
  refine ⟨⟨Allocator.filled_succeeds 0, _, _, _, rfl⟩, ⟨queue, rfl, Nat.le_succ _⟩, rfl, ?_, ?_⟩
  · intro i answer member
    exact ⟨0, List.eq_of_mem_replicate member⟩
  · intro i
    rw [fullTurn, List.length_replicate]
    exact Nat.lt_succ_self _

/-- From one state another one is reached by calls in which nothing fails; nothing comes in. -/
structure Reaches (times queue : Nat) (s t : Relay) : Prop where
  run : ∃ labels, Run ((relaySystem times queue).restrict fun _ l => l.Served ∧ l.Works) s labels t
  alive : t.con.finished = false
  sound : t.Sound queue
  idle : t.con.Idle
  arrived : t.arrived = s.arrived

/-- One after the other. -/
theorem Reaches.trans (first : Reaches times queue s t) (second : Reaches times queue t u) :
    Reaches times queue s u := by
  obtain ⟨front, run⟩ := first.run
  obtain ⟨back, run'⟩ := second.run
  exact ⟨⟨front ++ back, run.append run'⟩, second.alive, second.sound, second.idle,
    second.arrived.trans first.arrived⟩

/-- An event that the event loop waits for leads on. -/
theorem Sound.reaches {fd : UInt32} {info : EventInfo Unit} {cns : NetworkSocket}
    (sound : s.Sound queue) (alive : s.con.finished = false) (full : turn.Full queue)
    (client : s.con.clins = some cns) (fresh : turn.alloc.socket.fd ≠ cns.fd)
    (fits : queue ≤ StringBuf.maxSize) (registered : s.con.ioEvent fd = some info)
    (done : s.callBack times turn info = some t) (alive' : t.con.finished = false)
    (unparked : ∀ side, t.con.parked side = []) (arrived : t.arrived = s.arrived) :
    Reaches times queue s t := by
  have step : relayStep times queue s (.event fd turn) = some t := by
    unfold relayStep
    rw [if_neg (by simp [alive])]
    dsimp only
    rw [client, Option.any_some, if_neg (by simpa using fresh.symm), registered]
    exact done
  have met : (RelayLabel.event fd turn).Served ∧ (RelayLabel.event fd turn).Works :=
    ⟨full.served, full.works⟩
  -- The step leads to a state between two calls, since the connection lives.
  rcases sound.step met.1 fits step with ⟨-, sound'⟩ | ⟨gone, -⟩
  · exact ⟨⟨_, Run.cons ⟨met, step⟩ (.nil t)⟩, alive', sound', idle_of_unparked sound' unparked,
      arrived⟩
  · rw [alive'] at gone
    cases gone

/-- A new descriptor is another one. -/
theorem fullTurn_fresh (queue : Nat) (fd : UInt32) :
    (fullTurn queue (fd + 1)).alloc.socket.fd ≠ fd := by
  intro same
  have next : fd + 1 = fd := same
  simp at next

/-- First what is parked is sent. -/
theorem Sound.settles (sound : s.Sound queue) (alive : s.con.finished = false)
    (fits : queue ≤ StringBuf.maxSize) : ∃ t, Reaches times queue s t := by
  rcases sound.settled.watched with idle | ⟨side, waits⟩
  · exact ⟨s, ⟨[], .nil s⟩, alive, sound, idle, rfl⟩
  · obtain ⟨des, src, here, there, -, unparked, watched, -⟩ := waits
    obtain ⟨cns, client⟩ := Option.isSome_iff_exists.mp sound.settled.client
    have full := full_fullTurn queue (cns.fd + 1)
    obtain ⟨t, done, alive', none_, arrived⟩ :=
      @Sound.passes_parked s _ queue times side des src sound alive full fits here there unparked
    exact ⟨t, sound.reaches alive full client (fullTurn_fresh _ _) fits watched done alive' none_
      arrived⟩

/-- Then what waits on one side. -/
theorem Sound.passes (sound : s.Sound queue) (alive : s.con.finished = false) (idle : s.con.Idle)
    (fits : queue ≤ StringBuf.maxSize) (front : Bool) :
    ∃ t, Reaches times queue s t ∧ ((t.con.socket front).isSome → t.waiting front = []) ∧
      t.waiting (!front) = s.waiting (!front) := by
  have here : Reaches times queue s s := ⟨⟨[], .nil s⟩, alive, sound, idle, rfl⟩
  by_cases some_ : s.waiting front = []
  · exact ⟨s, here, fun _ => some_, rfl⟩
  cases found : s.con.socket front with
  | none =>
    refine ⟨s, here, fun there => ?_, rfl⟩
    rw [found] at there
    cases there
  | some ns =>
    obtain ⟨cns, client⟩ := Option.isSome_iff_exists.mp sound.settled.client
    have full := full_fullTurn queue (cns.fd + 1)
    have other := fullTurn_fresh queue cns.fd
    have fresh : ∀ other, s.con.clins = some other →
        (fullTurn queue (cns.fd + 1)).alloc.socket.fd ≠ other.fd := by
      intro same found
      rwa [← Option.some.inj (client.symm.trans found)]
    -- The event loop watches that side for input, and one event takes all that waits.
    obtain ⟨t, done, passed⟩ : ∃ t, s.callBack times (fullTurn queue (cns.fd + 1))
        ⟨.read, Forward.callback front, ()⟩ = some t ∧ Passed s t front := by
      cases front
      · exact sound.passes_backend alive idle full fits found some_
      · exact sound.passes_front alive idle full fresh fits found some_
    exact ⟨t, sound.reaches alive full client other fits (idle front ns found).2 done passed.alive
      passed.unparked passed.arrived, fun _ => passed.waiting', passed.other⟩

/--
Whatever has happened to a connection that lives, all that has come in can still be sent on.

There are calls in which nothing fails after which the backend has all that the client has sent,
the client all that a backend has sent, and the event loop waits for more on both sides.
-/
theorem drained (fits : queue ≤ StringBuf.maxSize)
    (reached : Reachable ((relaySystem times queue).restrict fun _ l => l.Served) s)
    (alive : s.con.finished = false) :
    ∃ t labels,
      Run ((relaySystem times queue).restrict fun _ l => l.Served ∧ l.Works) s labels t ∧
        t.con.finished = false ∧ t.con.Idle ∧ t.arrived = s.arrived ∧
        t.con.accepted false = s.arrived true ∧
        (t.con.servns.isSome → t.con.accepted true = s.arrived false) := by
  rcases sound_or_over fits reached with ⟨-, sound⟩ | ⟨gone, -⟩
  · obtain ⟨s₀, settled⟩ := @Sound.settles s queue times sound alive fits
    obtain ⟨s₁, front, passed, -⟩ := @Sound.passes s₀ queue times settled.sound settled.alive
      settled.idle fits true
    obtain ⟨t, back, passed', other⟩ := @Sound.passes s₁ queue times front.sound front.alive
      front.idle fits false
    have whole := (settled.trans front).trans back
    obtain ⟨labels, run⟩ := whole.run
    -- Nothing is parked any more, so that what was accepted is all that does not wait.
    have order : ∀ side, t.waiting side = [] → t.con.accepted (!side) = s.arrived side := by
      intro side none_
      have order := whole.sound.relays.order (!side)
      rwa [Bool.not_not, parked_of_idle whole.idle, none_, List.append_nil, List.append_nil,
        whole.arrived] at order
    refine ⟨t, labels, run, whole.alive, whole.idle, whole.arrived, order true ?_, fun there => ?_⟩
    · exact other.trans (passed front.sound.settled.client)
    · exact order false (passed' there)
  · rw [alive] at gone
    cases gone

/-- The byte that is parked and the one that waits can still be sent. -/
theorem drained_oneClient : ∃ s t : Relay, ∃ labels,
    Run ((relaySystem 3 8).restrict fun _ l => l.Served ∧ l.Works) s labels t ∧
      (s.con.accepted false, s.con.parked false, s.waiting true) = ([1], [2], [3]) ∧
      t.con.accepted false = [1, 2, 3] := by
  obtain ⟨s, reached, alive, held, whole⟩ := oneClient_reaches
  obtain ⟨t, labels, run, -, -, -, sent, -⟩ := drained (by decide) reached alive
  exact ⟨s, t, labels, run, held, sent.trans whole⟩

end Relay

end OneProxy
