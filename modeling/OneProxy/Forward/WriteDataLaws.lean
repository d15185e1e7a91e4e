import OneProxy.Lib.Pipe
import OneProxy.Util.StringBufLaws
import OneProxy.Forward.WriteData

/-! Forwarding is first-in first-out in each direction, whatever `send` does. -/

namespace OneProxy

open Memory Runs

/-- A `send` that is offered bytes takes at least one and at most all of them. -/
theorem sendLen_bounds (count : Nat) {n : Nat} (some_ : 0 < n) :
    0 < sendLen count n ∧ sendLen count n ≤ n := by
  unfold sendLen
  omega

/-- The write loop runs on exactly while bytes remain. -/
theorem remailLength_pos {buf : StringBuf} (wf : buf.WellFormed) :
    buf.remailLength > 0 ↔ 0 < buf.remaining.length := by
  rw [gt_iff_lt, UInt32.lt_iff_toNat_lt, StringBuf.remailLength_toNat wf]
  rfl

/-- Where the code finds nothing remaining, nothing remains. -/
theorem remaining_eq_nil {buf : StringBuf} (wf : buf.WellFormed) (none : buf.remailLength ≤ 0) :
    buf.remaining = [] := by
  have zero : ¬ buf.remailLength > 0 := UInt32.not_lt.mpr none
  rw [remailLength_pos wf] at zero
  exact List.eq_nil_of_length_eq_zero (by omega)

/-- One `send` of the loop takes the first bytes that remain, and leaves the rest. -/
theorem send_spec {buf : StringBuf} (wf : buf.WellFormed) {len : Nat}
    (inside : len ≤ buf.remaining.length) :
    buf.buf.read buf.offset.toNat len = some (buf.remaining.take len) ∧
      (buf.setOffset (buf.offset + UInt32.ofNat len)).WellFormed ∧
      (buf.setOffset (buf.offset + UInt32.ofNat len)).remaining = buf.remaining.drop len := by
  obtain ⟨moved, rest⟩ := StringBuf.setOffset_spec wf inside
  refine ⟨?_, moved, rest⟩
  -- The bytes lie below the length, so reading the block reads what remains.
  have offsetLe := wf.offset_le
  have lengthLe := wf.length_le
  have allocated := wf.allocate_eq
  rw [StringBuf.remaining, List.length_drop, StringBuf.length_bytes wf] at inside
  rw [Block.read_eq (by omega), StringBuf.remaining, StringBuf.bytes, List.drop_take,
    List.take_take, Nat.min_eq_left inside]

/-- What the loop has sent and what then remains are, in order, what remained before. -/
theorem writeLoop_spec {answers : List SendAnswer} {buf : StringBuf} {done : WriteResult}
    (wf : buf.WellFormed) (ended : writeLoop answers buf = some done) :
    done.buf.WellFormed ∧ done.accepted ++ done.buf.remaining = buf.remaining ∧
      (done.ret = 0 → done.buf.remaining = [] ∧
        answers.length ≤ done.answers.length + done.accepted.length) := by
  -- The induction is on the answers: each turn of the loop uses up one.
  induction answers generalizing buf done with
  | nil =>
    unfold writeLoop at ended
    split at ended
    · cases ended
    · next stop =>
      cases ended
      have empty : buf.remaining = [] := by
        rw [remailLength_pos wf] at stop
        exact List.eq_nil_of_length_eq_zero (by omega)
      exact ⟨wf, rfl, fun _ => ⟨empty, by simp⟩⟩
  | cons answer answers ih =>
    unfold writeLoop at ended
    split at ended
    · next go =>
      rw [remailLength_pos wf] at go
      cases answer with
      | again =>
        cases ended
        exact ⟨wf, rfl, fun zero => by simp at zero⟩
      | error =>
        cases ended
        exact ⟨wf, rfl, fun zero => by simp at zero⟩
      | accept count =>
        obtain ⟨positive, inside⟩ := sendLen_bounds count go
        obtain ⟨read, moved, rest⟩ := send_spec wf inside
        simp only [StringBuf.remailLength_toNat wf] at ended
        generalize sendLen count buf.remaining.length = len at *
        simp only [read, Option.bind_eq_bind, Option.bind_some, Option.bind_eq_some_iff] at ended
        obtain ⟨later, laterEnded, same⟩ := ended
        cases same
        obtain ⟨laterWf, laterSplit, laterDone⟩ := ih moved laterEnded
        refine ⟨laterWf, ?_, fun zero => ?_⟩
        · show buf.remaining.take len ++ later.accepted ++ later.buf.remaining = _
          rw [List.append_assoc, laterSplit, rest, List.take_append_drop]
        · obtain ⟨empty, used⟩ := laterDone zero
          refine ⟨empty, ?_⟩
          show (answers.length + 1 : Nat) ≤
            later.answers.length + (buf.remaining.take len ++ later.accepted).length
          rw [List.length_append, List.length_take]
          omega
    · next stop =>
      cases ended
      have empty : buf.remaining = [] := by
        rw [remailLength_pos wf] at stop
        exact List.eq_nil_of_length_eq_zero (by omega)
      exact ⟨wf, rfl, fun _ => ⟨empty, by simp⟩⟩

/-- The loop ends once `send` has answered more often than there are bytes. -/
theorem writeLoop_defined {answers : List SendAnswer} {buf : StringBuf} (wf : buf.WellFormed)
    (enough : buf.remaining.length < answers.length) :
    ∃ done, writeLoop answers buf = some done := by
  -- Each turn uses up one answer and sends at least one byte.
  induction answers generalizing buf with
  | nil => simp at enough
  | cons answer answers ih =>
    unfold writeLoop
    split
    · next go =>
      rw [remailLength_pos wf] at go
      cases answer with
      | again => exact ⟨_, rfl⟩
      | error => exact ⟨_, rfl⟩
      | accept count =>
        obtain ⟨positive, inside⟩ := sendLen_bounds count go
        obtain ⟨read, moved, rest⟩ := send_spec wf inside
        obtain ⟨later, laterEnded⟩ := ih moved (by
          rw [rest, List.length_drop]
          simp only [List.length_cons] at enough
          omega)
        refine ⟨{ later with
          accepted := buf.remaining.take (sendLen count buf.remaining.length) ++
            later.accepted }, ?_⟩
        simp only [StringBuf.remailLength_toNat wf, read, laterEnded, Option.bind_eq_bind,
          Option.bind_some]
    · exact ⟨_, rfl⟩

/-- A write with nothing to write is the loop that stops at once. -/
theorem writeNosslData_eq {answers : List SendAnswer} {buf : StringBuf} :
    writeNosslData answers buf = writeLoop answers buf := by
  unfold writeNosslData
  split
  · next empty =>
    have stop : ¬ buf.remailLength > 0 := UInt32.not_lt.mpr empty
    unfold writeLoop
    rw [if_neg stop]
  · rfl

/-- What remains of the parked bytes stays in front of what remains of the block. -/
theorem saveData_spec {m : Allocator UInt8} {ns saved : NetworkSocket} {buf : StringBuf}
    (wf : ns.sendData.WellFormed) (blockWf : buf.WellFormed)
    (done : saveData m ns buf = some saved) :
    saved.sendData.WellFormed ∧
      saved.sendData.remaining = ns.sendData.remaining ++ buf.remaining ∧
      saved.recvData = ns.recvData := by
  obtain ⟨erased, compacted, erasedWf, erasedBytes⟩ := StringBuf.erase_spec wf
  obtain ⟨read, -, -⟩ := send_spec blockWf (Nat.le_refl buf.remaining.length)
  rw [List.take_length] at read
  simp only [saveData, compacted, StringBuf.remailLength_toNat blockWf, read, Option.bind_eq_bind,
    Option.bind_some, Option.bind_eq_some_iff] at done
  obtain ⟨grown, appended, same⟩ := done
  cases same
  have small : buf.remaining.length < 0x100000000 := by
    rw [← StringBuf.remailLength_toNat blockWf]
    exact buf.remailLength.toNat_lt
  obtain ⟨grownWf, grownBytes, grownOffset⟩ := StringBuf.append_inv erasedWf small appended
  refine ⟨grownWf, ?_, rfl⟩
  -- The compaction has put the read position back to the start.
  have start : grown.offset = 0 := grownOffset
  show grown.bytes.drop grown.offset.toNat = _
  rw [start, grownBytes, erasedBytes]
  rfl

/-- Parking is defined where the allocator answers and both parts fit a buffer together. -/
theorem saveData_defined {m : Allocator UInt8} (succeeds : m.Succeeds) {ns : NetworkSocket}
    {buf : StringBuf} (wf : ns.sendData.WellFormed) (blockWf : buf.WellFormed)
    (fits : ns.sendData.remaining.length + buf.remaining.length ≤ StringBuf.maxSize) :
    ∃ saved, saveData m ns buf = some saved := by
  obtain ⟨erased, compacted, erasedWf, erasedBytes⟩ := StringBuf.erase_spec wf
  obtain ⟨read, -, -⟩ := send_spec blockWf (Nat.le_refl buf.remaining.length)
  rw [List.take_length] at read
  have length : (erased.setOffset 0).length.toNat = ns.sendData.remaining.length := by
    rw [← StringBuf.length_bytes erasedWf, erasedBytes]
  obtain ⟨grown, appended⟩ := @StringBuf.append_defined m succeeds _ buf.remaining erasedWf
    (by rw [length]; exact fits)
  refine ⟨{ ns with sendData := grown }, ?_⟩
  simp only [saveData, compacted, StringBuf.remailLength_toNat blockWf, read, appended,
    Option.bind_eq_bind, Option.bind_some]

namespace Forward

variable (con : Forward) (front : Bool) (ns : Option NetworkSocket)

/-- The socket put on a side is the one found there. -/
@[simp] theorem socket_setSocket : (con.setSocket front ns).socket front = ns := by
  cases front <;> rfl

/-- Putting a socket on one side leaves the other side. -/
@[simp] theorem socket_setSocket_not :
    (con.setSocket front ns).socket (!front) = con.socket !front := by
  cases front <;> rfl

/-- Putting a socket on the other side leaves this side. -/
@[simp] theorem socket_setSocket_of_not :
    (con.setSocket (!front) ns).socket front = con.socket front := by
  cases front <;> rfl

/-- Putting a socket somewhere changes neither history. -/
@[simp] theorem accepted_setSocket : (con.setSocket front ns).accepted = con.accepted := by
  cases front <;> rfl

/-- Putting a socket somewhere does not finish the connection. -/
@[simp] theorem finished_setSocket : (con.setSocket front ns).finished = con.finished := by
  cases front <;> rfl

/-- Registrations do not matter to the sockets. -/
@[simp] theorem socket_watch (ioEvent : IoEvent Unit) :
    (con.watch ioEvent).socket front = con.socket front := rfl

/-- The pipe that leads to one side. -/
def pipe : Pipe UInt8 := ⟨con.accepted front, con.parked front⟩

/-- The sockets there are have well-formed buffers. -/
def WellFormed (con : Forward) : Prop :=
  ∀ front ns, con.socket front = some ns → ns.recvData.WellFormed ∧ ns.sendData.WellFormed

/-- What a write towards one side does to the connection: one turn of that side's pipe only. -/
structure Wrote (con : Forward) (isFront : Bool) (block : Bytes) (con' : Forward) : Prop where
  wellFormed : con'.WellFormed
  turn : (con.pipe isFront).Turn block (con'.pipe isFront)
  frame : con'.pipe (!isFront) = con.pipe !isFront

/-- A socket put at the end of a pipe brings its parked bytes with it. -/
theorem pipe_setSocket (ns : NetworkSocket) :
    (con.setSocket front (some ns)).pipe front = ⟨con.accepted front, ns.sendData.remaining⟩ := by
  rw [pipe, parked, socket_setSocket, accepted_setSocket]

/-- The pipe to the other side does not notice. -/
theorem pipe_setSocket_not : (con.setSocket front ns).pipe (!front) = con.pipe !front := by
  rw [pipe, parked, socket_setSocket_not, accepted_setSocket]
  rfl

/-- Bytes that `send` took are accepted at the end of their pipe. -/
theorem pipe_take (bytes : Bytes) :
    (con.take front bytes).pipe front = ⟨con.accepted front ++ bytes, con.parked front⟩ := by
  cases front <;> rfl

/-- The pipe to the other side is not sent through. -/
theorem pipe_take_not (bytes : Bytes) : (con.take front bytes).pipe (!front) = con.pipe !front := by
  cases front <;> rfl

/-- Emptying the received block changes neither pipe. -/
theorem pipe_clearBlock (m : Allocator UInt8) (con : Forward) (isFront side : Bool) :
    (con.clearBlock m isFront).pipe side = con.pipe side := by
  -- Only the receive buffer of one side is touched, never what is parked there.
  have parked : (con.clearBlock m isFront).parked side = con.parked side := by
    by_cases same : side = !isFront
    · subst same
      unfold parked clearBlock
      rw [socket_setSocket]
      cases con.socket !isFront <;> rfl
    · have this : side = isFront := by cases side <;> cases isFront <;> simp_all
      subst this
      unfold Forward.parked clearBlock
      rw [socket_setSocket_of_not]
  have accepted : (con.clearBlock m isFront).accepted = con.accepted :=
    accepted_setSocket con (!isFront) _
  rw [pipe, pipe, parked, accepted]

/-- Emptying the received block keeps the buffers well formed. -/
theorem WellFormed.clearBlock {con : Forward} (wf : con.WellFormed) (m : Allocator UInt8)
    (isFront : Bool) : (con.clearBlock m isFront).WellFormed := by
  intro side ns found
  by_cases same : side = !isFront
  · subst same
    rw [Forward.clearBlock, socket_setSocket, Option.map_eq_some_iff] at found
    obtain ⟨old, there, rfl⟩ := found
    obtain ⟨recv, send⟩ := wf _ old there
    exact ⟨(StringBuf.clear_spec m recv).1, send⟩
  · have this : side = isFront := by cases side <;> cases isFront <;> simp_all
    subst this
    rw [Forward.clearBlock, socket_setSocket_of_not] at found
    exact wf _ ns found

/-- A well-formed socket may be put anywhere. -/
theorem WellFormed.setSocket {con : Forward} (wf : con.WellFormed) (isFront : Bool)
    {ns : NetworkSocket} (recv : ns.recvData.WellFormed) (send : ns.sendData.WellFormed) :
    (con.setSocket isFront (some ns)).WellFormed := by
  intro side other found
  by_cases same : side = isFront
  · subst same
    rw [socket_setSocket] at found
    cases found
    exact ⟨recv, send⟩
  · have this : side = !isFront := by cases side <;> cases isFront <;> simp_all
    subst this
    rw [socket_setSocket_not] at found
    exact wf _ other found

/-- The received block is well formed, also where there is no socket to receive from. -/
theorem WellFormed.block {con : Forward} (wf : con.WellFormed) (isFront : Bool) :
    (con.block isFront).WellFormed := by
  unfold Forward.block
  split
  · next ns found => exact (wf _ ns found).1
  · exact StringBuf.new_wellFormed

end Forward

/-- Parking puts the block behind what is parked for the destination, and changes nothing else. -/
theorem saveDataToSendData_spec {m : Allocator UInt8} {con parked : Forward} {isFront : Bool}
    {desSocket : NetworkSocket} {data : StringBuf} (wf : con.WellFormed)
    (recv : desSocket.recvData.WellFormed) (send : desSocket.sendData.WellFormed)
    (block : data.WellFormed)
    (done : saveDataToSendData m con isFront desSocket data = some parked) :
    parked.WellFormed ∧ parked.accepted = con.accepted ∧ parked.finished = con.finished ∧
      parked.parked isFront = desSocket.sendData.remaining ++ data.remaining ∧
      parked.parked (!isFront) = con.parked !isFront := by
  simp only [saveDataToSendData, Option.bind_eq_bind, Option.bind_eq_some_iff] at done
  obtain ⟨saved, savedDone, done⟩ := done
  obtain ⟨savedWf, savedBytes, savedRecv⟩ := saveData_spec send block savedDone
  have placed := wf.setSocket isFront (savedRecv ▸ recv) savedWf
  -- The two branches differ in the registrations only.
  have result : ∀ ioEvent, (con.setSocket isFront (some saved)).watch ioEvent = parked →
      parked.WellFormed ∧ parked.accepted = con.accepted ∧ parked.finished = con.finished ∧
      parked.parked isFront = desSocket.sendData.remaining ++ data.remaining ∧
      parked.parked (!isFront) = con.parked !isFront := by
    rintro ioEvent rfl
    refine ⟨placed, ?_, ?_, ?_, ?_⟩
    · exact Forward.accepted_setSocket con isFront _
    · exact Forward.finished_setSocket con isFront _
    · rw [Forward.parked, Forward.socket_watch, Forward.socket_setSocket]
      exact savedBytes
    · rw [Forward.parked, Forward.socket_watch, Forward.socket_setSocket_not, Forward.parked]
  split at done
  · exact result _ (Option.some.inj done)
  · exact result _ (Option.some.inj done)

/-- Parking turns what was sent and what could not be sent into a turn of the pipe. -/
theorem park_spec {m : Allocator UInt8} {con parked : Forward} {isFront : Bool}
    {desSocket : NetworkSocket} {sent block : Bytes} {data : StringBuf} (wf : con.WellFormed)
    (recv : desSocket.recvData.WellFormed) (send : desSocket.sendData.WellFormed)
    (dataWf : data.WellFormed)
    (split : con.parked isFront ++ block = sent ++ (desSocket.sendData.remaining ++ data.remaining))
    (done : saveDataToSendData m (con.take isFront sent) isFront desSocket data = some parked) :
    con.Wrote isFront block (parked.clearBlock m isFront) := by
  have taken : (con.take isFront sent).WellFormed := wf
  obtain ⟨parkedWf, accepted, -, bytes, others⟩ :=
    saveDataToSendData_spec taken recv send dataWf done
  have here := Forward.pipe_take con isFront sent
  have there := Forward.pipe_take_not con isFront sent
  refine ⟨parkedWf.clearBlock m isFront, ?_, ?_⟩
  · -- What was parked and the block are what was sent and what is parked now.
    have after : parked.pipe isFront =
        ⟨con.accepted isFront ++ sent, desSocket.sendData.remaining ++ data.remaining⟩ := by
      rw [Forward.pipe, accepted, bytes]
      rw [Forward.pipe, Pipe.mk.injEq] at here
      rw [here.1]
    rw [Forward.pipe_clearBlock, after]
    exact Pipe.Turn.of_split (p := con.pipe isFront) split
  · rw [Forward.pipe_clearBlock, Forward.pipe, accepted, others, ← there, Forward.pipe]

/-- Writing the received block, with nothing parked before it, is one turn of the pipe. -/
theorem writeBlock_spec {m : Allocator UInt8} {answers : List SendAnswer} {con after : Forward}
    {isFront : Bool} {desSocket : NetworkSocket} {ret : Int} (wf : con.WellFormed)
    (found : con.socket isFront = some desSocket) (empty : desSocket.sendData.remaining = [])
    (done : writeBlock m answers con isFront desSocket = some (ret, after))
    (alive : after.finished = false) :
    con.Wrote isFront (con.block isFront).remaining after := by
  obtain ⟨recv, send⟩ := wf isFront desSocket found
  have nothing : con.parked isFront = [] := by rw [Forward.parked, found]; exact empty
  simp only [writeBlock, writeNosslData_eq, Option.bind_eq_bind, Option.bind_eq_some_iff] at done
  obtain ⟨sent, ended, done⟩ := done
  obtain ⟨restWf, split, full⟩ := writeLoop_spec (wf.block isFront) ended
  split at done
  · -- The kernel has no room, so the rest of the block is parked.
    simp only [Option.bind_eq_some_iff] at done
    obtain ⟨parked, saved, same⟩ := done
    cases same
    refine park_spec wf recv send restWf ?_ saved
    rw [nothing, empty, List.nil_append, List.nil_append, split]
  · split at done
    · cases done
      cases alive
    · next success =>
      -- Everything was sent.
      cases done
      have zero : sent.ret = 0 := by simpa using success
      have all : sent.accepted = (con.block isFront).remaining := by
        rw [← split, (full zero).1, List.append_nil]
      refine ⟨Forward.WellFormed.clearBlock ?_ m isFront, ?_, ?_⟩
      · exact wf
      · rw [Forward.pipe_clearBlock]
        have here := Forward.pipe_take con isFront sent.accepted
        rw [nothing] at here
        show (con.pipe isFront).Turn _ ((con.take isFront sent.accepted).pipe isFront)
        rw [here]
        refine Pipe.Turn.of_split (p := con.pipe isFront) ?_
        show con.parked isFront ++ _ = _
        rw [nothing, all, List.nil_append, List.append_nil]
      · rw [Forward.pipe_clearBlock]
        exact Forward.pipe_take_not con isFront sent.accepted

/-- Once everything parked is sent, the pipe to the destination is empty. -/
theorem flushed_spec {con : Forward} {isFront : Bool} {sent : Bytes} {des : NetworkSocket}
    (wf : con.WellFormed) (recv : des.recvData.WellFormed) (send : des.sendData.WellFormed)
    (empty : des.sendData.remaining = []) (all : con.parked isFront = sent) :
    con.Wrote isFront [] ((con.take isFront sent).setSocket isFront (some des)) := by
  have kept : (con.take isFront sent).WellFormed := wf
  refine ⟨kept.setSocket isFront recv send, ?_, ?_⟩
  · have taken := congrArg Pipe.accepted (Forward.pipe_take con isFront sent)
    rw [Forward.pipe_setSocket, empty,
      show (con.take isFront sent).accepted isFront = con.accepted isFront ++ sent from taken]
    refine Pipe.Turn.of_split (p := con.pipe isFront) ?_
    show con.parked isFront ++ [] = sent ++ []
    rw [all]
  · rw [Forward.pipe_setSocket_not, Forward.pipe_take_not]

/-- The block is written after what was parked before it. -/
theorem Forward.Wrote.followed {con mid after : Forward} {isFront : Bool} {front block : Bytes}
    (first : con.Wrote isFront front mid) (second : mid.Wrote isFront block after) :
    con.Wrote isFront (front ++ block) after :=
  ⟨second.wellFormed, first.turn.trans second.turn, second.frame.trans first.frame⟩

/-- Writing data is one turn of the destination's pipe, with the received block put in. -/
theorem writeData_spec {m : Allocator UInt8} {answers : List SendAnswer} {con after : Forward}
    {isFront : Bool} {ret : Int} (wf : con.WellFormed)
    (done : writeData m answers con isFront = some (ret, after)) (alive : after.finished = false) :
    con.Wrote isFront (con.block isFront).remaining after := by
  simp only [writeData, writeNosslData_eq, Option.bind_eq_bind, Option.bind_eq_some_iff] at done
  obtain ⟨desSocket, found, done⟩ := done
  obtain ⟨recv, send⟩ := wf isFront desSocket found
  have held : con.parked isFront = desSocket.sendData.remaining := by rw [Forward.parked, found]
  have blockWf := wf.block isFront
  split at done
  · next both =>
    -- Nothing is parked and nothing was received, and both buffers are emptied.
    cases done
    have noneParked := remaining_eq_nil send both.1
    have noneReceived := remaining_eq_nil blockWf both.2
    obtain ⟨clearWf, -⟩ := StringBuf.clear_spec m send
    refine ⟨(wf.clearBlock m isFront).setSocket isFront recv clearWf, ?_, ?_⟩
    · have same : (con.clearBlock m isFront).accepted isFront = con.accepted isFront ++ [] := by
        rw [List.append_nil]
        exact congrArg Pipe.accepted (Forward.pipe_clearBlock m con isFront isFront)
      rw [Forward.pipe_setSocket, StringBuf.remaining_clear m send, same]
      refine Pipe.Turn.of_split (p := con.pipe isFront) ?_
      show con.parked isFront ++ _ = _
      rw [held, noneParked, noneReceived]
    · rw [Forward.pipe_setSocket_not, Forward.pipe_clearBlock]
  · split at done
    · next pending =>
      simp only [Option.bind_eq_some_iff] at done
      obtain ⟨sent, ended, done⟩ := done
      obtain ⟨restWf, split, full⟩ := writeLoop_spec send ended
      split at done
      · -- Some parked bytes could not be sent: the block is parked behind them.
        simp only [Option.bind_eq_some_iff] at done
        obtain ⟨parked, saved, same⟩ := done
        cases same
        have splitBlock : con.parked isFront ++ (con.block isFront).remaining =
            sent.accepted ++ (sent.buf.remaining ++ (con.block isFront).remaining) := by
          rw [held, ← split, List.append_assoc]
        exact park_spec (by exact wf) (by exact recv) (by exact restWf) blockWf splitBlock saved
      · split at done
        · cases done
          cases alive
        · next success =>
          -- All parked bytes are sent, and the block follows them.
          have zero : sent.ret = 0 := by simpa using success
          obtain ⟨clearWf, -⟩ := StringBuf.clear_spec m restWf
          have cleared := StringBuf.remaining_clear m restWf
          generalize emptied : { desSocket with sendData := sent.buf.clear m } = des at done
          have desRecv : des.recvData.WellFormed := by rw [← emptied]; exact recv
          have desSend : des.sendData.WellFormed := by rw [← emptied]; exact clearWf
          have desEmpty : des.sendData.remaining = [] := by rw [← emptied]; exact cleared
          have sentAll : con.parked isFront = sent.accepted := by
            rw [held, ← split, (full zero).1, List.append_nil]
          have flushed := flushed_spec wf desRecv desSend desEmpty sentAll
          generalize middle : (con.take isFront sent.accepted).setSocket isFront (some des) = mid
            at done flushed
          have midSocket : mid.socket isFront = some des := by
            rw [← middle, Forward.socket_setSocket]
          have midBlock : mid.block isFront = con.block isFront := by
            rw [Forward.block, ← middle, Forward.socket_setSocket_not]
            rfl
          have follows : ∀ ioEvent, writeBlock m sent.answers (mid.watch ioEvent) isFront des =
              some (ret, after) → con.Wrote isFront (con.block isFront).remaining after := by
            intro ioEvent written
            have watched : (mid.watch ioEvent).WellFormed := flushed.wellFormed
            have second := writeBlock_spec watched midSocket desEmpty written alive
            have both := Forward.Wrote.followed flushed
              ⟨second.wellFormed, second.turn, second.frame⟩
            have same : ([] : Bytes) ++ ((mid.watch ioEvent).block isFront).remaining =
                (con.block isFront).remaining := by
              rw [List.nil_append, ← midBlock]
              rfl
            exact same ▸ both
          split at done
          · exact follows _ done
          · exact follows mid.ioEvent done
    · next none =>
      have noneParked := remaining_eq_nil send (UInt32.not_lt.mp none)
      exact writeBlock_spec wf found noneParked done alive

/-- Parking and emptying the block is defined where both parts fit a buffer together. -/
theorem park_defined {m : Allocator UInt8} (succeeds : m.Succeeds) (con : Forward) (isFront : Bool)
    {desSocket : NetworkSocket} {data : StringBuf} (send : desSocket.sendData.WellFormed)
    (block : data.WellFormed)
    (fits : desSocket.sendData.remaining.length + data.remaining.length ≤ StringBuf.maxSize) :
    ∃ parked, saveDataToSendData m con isFront desSocket data = some parked := by
  obtain ⟨saved, savedDone⟩ := saveData_defined succeeds send block fits
  simp only [saveDataToSendData, savedDone, Option.bind_eq_bind, Option.bind_some]
  split
  · exact ⟨_, rfl⟩
  · exact ⟨_, rfl⟩

/-- Writing the received block ends, with enough answers and room to park it. -/
theorem writeBlock_defined {m : Allocator UInt8} (succeeds : m.Succeeds)
    {answers : List SendAnswer} {con : Forward} {isFront : Bool} {desSocket : NetworkSocket}
    (wf : con.WellFormed) (send : desSocket.sendData.WellFormed)
    (fits : desSocket.sendData.remaining.length + (con.block isFront).remaining.length ≤
      StringBuf.maxSize)
    (enough : (con.block isFront).remaining.length < answers.length) :
    ∃ result, writeBlock m answers con isFront desSocket = some result := by
  obtain ⟨sent, ended⟩ := writeLoop_defined (wf.block isFront) enough
  obtain ⟨restWf, split, -⟩ := writeLoop_spec (wf.block isFront) ended
  have shorter := congrArg List.length split
  rw [List.length_append] at shorter
  simp only [writeBlock, writeNosslData_eq, ended, Option.bind_eq_bind, Option.bind_some]
  split
  · -- What could not be sent is parked, for which there is room.
    obtain ⟨parked, saved⟩ := @park_defined m succeeds (con.take isFront sent.accepted) isFront
      desSocket sent.buf send restWf (by omega)
    exact ⟨_, by simp only [saved, Option.bind_some]; rfl⟩
  · split
    · exact ⟨_, rfl⟩
    · exact ⟨_, rfl⟩

/-- Writing data ends, with enough answers of `send` and room to park what it does not take. -/
theorem writeData_defined {m : Allocator UInt8} (succeeds : m.Succeeds)
    {answers : List SendAnswer} {con : Forward} {isFront : Bool} {desSocket : NetworkSocket}
    (wf : con.WellFormed) (found : con.socket isFront = some desSocket)
    (fits : (con.parked isFront ++ (con.block isFront).remaining).length ≤ StringBuf.maxSize)
    (enough : (con.parked isFront ++ (con.block isFront).remaining).length < answers.length) :
    ∃ result, writeData m answers con isFront = some result := by
  obtain ⟨recv, send⟩ := wf isFront desSocket found
  have held : con.parked isFront = desSocket.sendData.remaining := by rw [Forward.parked, found]
  rw [held, List.length_append] at fits enough
  simp only [writeData, writeNosslData_eq, found, Option.bind_eq_bind, Option.bind_some]
  split
  · exact ⟨_, rfl⟩
  · split
    · have few : desSocket.sendData.remaining.length < answers.length := by omega
      obtain ⟨sent, ended⟩ := writeLoop_defined send few
      obtain ⟨restWf, split, full⟩ := writeLoop_spec send ended
      have shorter := congrArg List.length split
      rw [List.length_append] at shorter
      simp only [ended, Option.bind_some]
      split
      · obtain ⟨parked, saved⟩ := @park_defined m succeeds (con.take isFront sent.accepted) isFront
          { desSocket with sendData := sent.buf } (con.block isFront) restWf (wf.block isFront)
          (by show sent.buf.remaining.length + _ ≤ _; omega)
        exact ⟨_, by simp only [saved, Option.bind_some]; rfl⟩
      · split
        · exact ⟨_, rfl⟩
        · next success =>
          -- The parked bytes have used up at most one answer each.
          obtain ⟨-, used⟩ := full (by simpa using success)
          obtain ⟨clearWf, -⟩ := StringBuf.clear_spec m restWf
          have cleared := StringBuf.remaining_clear m restWf
          generalize emptied : { desSocket with sendData := sent.buf.clear m } = des
          have desRecv : des.recvData.WellFormed := by rw [← emptied]; exact recv
          have desSend : des.sendData.WellFormed := by rw [← emptied]; exact clearWf
          have desEmpty : des.sendData.remaining = [] := by rw [← emptied]; exact cleared
          have kept : (con.take isFront sent.accepted).WellFormed := wf
          have midWf := kept.setSocket isFront desRecv desSend
          have midBlock : ((con.take isFront sent.accepted).setSocket isFront (some des)).block
              isFront = con.block isFront := by
            rw [Forward.block, Forward.socket_setSocket_not]
            rfl
          generalize (con.take isFront sent.accepted).setSocket isFront (some des) = mid at *
          have ends : ∀ ioEvent, ∃ result,
              writeBlock m sent.answers (mid.watch ioEvent) isFront des = some result := by
            intro ioEvent
            have watched : (mid.watch ioEvent).WellFormed := midWf
            have sameBlock : (mid.watch ioEvent).block isFront = con.block isFront := midBlock
            refine writeBlock_defined succeeds watched desSend ?_ ?_
            · rw [desEmpty, sameBlock, List.length_nil]
              omega
            · rw [sameBlock]
              omega
          split
          · exact ends _
          · exact ends mid.ioEvent
    · refine writeBlock_defined succeeds wf send fits ?_
      omega

/-- A live connection has well-formed buffers, and its pipes hold what was handed over. -/
def Forward.Sound (con : Forward) : Prop :=
  con.finished = false → con.WellFormed ∧ ∀ front, (con.pipe front).contents = con.handed front

/-- A fresh connection has handed over nothing and has nothing parked. -/
theorem sound_of_fresh {con : Forward} (fresh : con.Fresh) : con.Sound := by
  intro _
  refine ⟨fun front ns found => ?_, fun front => ?_⟩
  · obtain ⟨recv, send⟩ := fresh.sockets front ns found
    exact ⟨recv, send ▸ StringBuf.new_wellFormed⟩
  · have nothing : con.parked front = [] := by
      unfold Forward.parked
      split
      · next ns found => rw [(fresh.sockets front ns found).2, StringBuf.remaining_new]
      · rfl
    rw [Pipe.contents, Forward.pipe, fresh.accepted, nothing, fresh.handed]
    rfl

/-- One call keeps the pipes in step with what was handed over. -/
theorem forwardStep_sound {con after : Forward} {l : ForwardLabel} (sound : con.Sound)
    (done : forwardStep con l = some after) : after.Sound := by
  intro alive
  cases l with
  | receive front recvData =>
    simp only [forwardStep, Option.bind_eq_bind, Option.bind_eq_some_iff] at done
    obtain ⟨ns, found, done⟩ := done
    split at done
    · cases done
    · next allowed =>
      cases done
      simp only [not_or, not_not] at allowed
      obtain ⟨wf, contents⟩ := sound (by simpa using allowed.1)
      obtain ⟨-, send⟩ := wf front ns found
      refine ⟨wf.setSocket front allowed.2 send, fun side => ?_⟩
      -- A receive buffer is in no pipe.
      have same : (con.setSocket front (some { ns with recvData := recvData })).pipe side =
          con.pipe side := by
        by_cases here : side = front
        · subst here
          rw [Forward.pipe_setSocket, Forward.pipe, Forward.parked, found]
        · have there : side = !front := by cases side <;> cases front <;> simp_all
          subst there
          exact Forward.pipe_setSocket_not con front _
      rw [same, contents side]
      cases front <;> rfl
  | write isFront m answers =>
    simp only [forwardStep] at done
    split at done
    · cases done
    · next open_ =>
      simp only [Option.bind_eq_bind, Option.bind_eq_some_iff] at done
      obtain ⟨⟨ret, written⟩, wrote, same⟩ := done
      cases same
      obtain ⟨wf, contents⟩ := sound (by simpa using open_)
      have spec := writeData_spec wf wrote alive
      refine ⟨spec.wellFormed, fun side => ?_⟩
      by_cases here : side = isFront
      · subst here
        have turn := spec.turn.contents_eq
        rw [contents side] at turn
        show (written.pipe side).contents = Function.update con.handed side _ side
        rw [turn, Function.update_self]
      · have there : side = !isFront := by cases side <;> cases isFront <;> simp_all
        subst there
        show (written.pipe !isFront).contents = Function.update con.handed isFront _ (!isFront)
        rw [spec.frame, contents, Function.update_of_ne here]

/--
In each direction, what the destination took and what is parked for it are, in order, all that was
handed to `write_data`; and a call ends once `send` has answered more often than there are bytes.
-/
theorem forward_fifo {con : Forward} (reached : Reachable forwardSystem con)
    (alive : con.finished = false) :
    (∀ front, con.accepted front ++ con.parked front = con.handed front) ∧
      ∀ isFront m answers des, con.socket isFront = some des → m.Succeeds →
        (con.parked isFront ++ (con.block isFront).remaining).length ≤ StringBuf.maxSize →
        (con.parked isFront ++ (con.block isFront).remaining).length < answers.length →
          ∃ after, forwardStep con (.write isFront m answers) = some after := by
  have sound : con.Sound := by
    -- Both hold of a fresh session, and every step keeps them.
    have start : ∀ s, forwardSystem.init s → s.Sound := fun s begun => sound_of_fresh begun
    have keep : ∀ s l t, s.Sound → forwardSystem.step s l t → t.Sound :=
      fun s l t before last => forwardStep_sound before last
    exact reached.invariant start keep
  obtain ⟨wf, contents⟩ := sound alive
  refine ⟨contents, ?_⟩
  intro isFront m answers des found succeeds fits enough
  obtain ⟨⟨ret, after⟩, written⟩ := writeData_defined succeeds wf found fits enough
  refine ⟨{ after with
    handed := Function.update con.handed isFront
      (con.handed isFront ++ (con.block isFront).remaining) }, ?_⟩
  simp [forwardStep, alive, written]

/-- A buffer that holds exactly these bytes. -/
def bufferOf (data : Bytes) : StringBuf :=
  ⟨some data, UInt32.ofNat data.length, 0, UInt32.ofNat data.length⟩

/-- A connection between two sockets that nothing has gone through yet. -/
def newForward : Forward where
  clins := some { NetworkSocket.new [] 50000 with fd := 5 }
  servns := some { NetworkSocket.new [] 3306 with fd := 6 }
  ioEvent _ := none
  finished := false
  handed _ := []
  accepted _ := []

/-- Nothing has gone through a new connection. -/
theorem newForward_fresh : newForward.Fresh where
  alive := rfl
  handed _ := rfl
  accepted _ := rfl
  sockets front ns found := by
    cases front <;> cases found <;> exact ⟨StringBuf.new_wellFormed, rfl⟩

/-- Two blocks go to the backend, the first of which `send` takes only a part of at first. -/
theorem forward_fifo_twoBlocks :
    ∃ con, Reachable forwardSystem con ∧ con.accepted false = [1, 2, 3, 4] ∧
      con.parked false = [5, 6, 7] ∧ con.handed false = [1, 2, 3, 4, 5, 6, 7] ∧
      con.accepted false ++ con.parked false = con.handed false := by
  have run : (exec forwardStep newForward
      [.receive true (bufferOf [1, 2, 3, 4, 5]), .write false (Allocator.filled 0)
        [.accept 1, .again],
        .receive true (bufferOf [6, 7]), .write false (Allocator.filled 0) [.accept 1, .again]]).map
          (fun con => (con.finished, con.accepted false, con.parked false, con.handed false)) =
      some (false, [1, 2, 3, 4], [5, 6, 7], [1, 2, 3, 4, 5, 6, 7]) := by
    decide +kernel
  obtain ⟨con, reached, seen⟩ := exists_reachable Forward.Fresh newForward_fresh run
  simp only [Prod.mk.injEq] at seen
  obtain ⟨alive, accepted, parked, handed⟩ := seen
  exact ⟨con, reached, accepted, parked, handed, (forward_fifo reached alive).1 false⟩

end OneProxy
