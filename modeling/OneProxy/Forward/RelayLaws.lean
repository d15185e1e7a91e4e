import OneProxy.Forward.Relay
import OneProxy.Forward.WriteDataLaws

/-! What reaches either side of a connection is what the other side has sent, in order. -/

namespace OneProxy

open Memory Runs

/-! ## Writing -/

section

variable {answers : List SendAnswer} {buf : StringBuf} {done : WriteResult}

/-- Where the loop stops with 1, something is left. -/
theorem writeLoop_again (wf : buf.WellFormed) (ended : writeLoop answers buf = some done)
    (again : done.ret = 1) : done.buf.remaining ≠ [] := by
  -- The induction is on the answers; only a refused `send` ends the loop with 1.
  induction answers generalizing buf done with
  | nil =>
    unfold writeLoop at ended
    split at ended
    · cases ended
    · cases ended
      exact absurd again (by simp)
  | cons answer answers ih =>
    unfold writeLoop at ended
    split at ended
    · next go =>
      rw [remailLength_pos wf] at go
      cases answer with
      | again =>
        cases ended
        exact List.ne_nil_of_length_pos go
      | error =>
        cases ended
        exact absurd again (by simp)
      | accept count =>
        obtain ⟨-, inside⟩ := sendLen_bounds count go
        obtain ⟨read, moved, -⟩ := send_spec wf inside
        simp only [StringBuf.remailLength_toNat wf] at ended
        generalize sendLen count buf.remaining.length = len at *
        simp only [read, Option.bind_eq_bind, Option.bind_some, Option.bind_eq_some_iff] at ended
        obtain ⟨later, laterEnded, same⟩ := ended
        cases same
        exact @ih _ later moved laterEnded again
    · cases ended
      exact absurd again (by simp)

/-- Without an error, the loop ends with 0 or 1, and no error comes later. -/
theorem writeLoop_noError (ended : writeLoop answers buf = some done)
    (noError : .error ∉ answers) :
    (done.ret = 0 ∨ done.ret = 1) ∧ .error ∉ done.answers := by
  -- Each turn of the loop uses up one answer, and the others are left.
  induction answers generalizing buf done with
  | nil =>
    unfold writeLoop at ended
    split at ended
    · cases ended
    · cases ended
      exact ⟨Or.inl rfl, noError⟩
  | cons answer answers ih =>
    have later : .error ∉ answers := fun member => noError (List.mem_cons_of_mem _ member)
    unfold writeLoop at ended
    split at ended
    · cases answer with
      | again =>
        cases ended
        exact ⟨Or.inr rfl, later⟩
      | error => exact absurd List.mem_cons_self noError
      | accept count =>
        simp only [Option.bind_eq_bind, Option.bind_eq_some_iff] at ended
        obtain ⟨sent, -, rest, restEnded, same⟩ := ended
        cases same
        exact @ih _ rest restEnded later
    · cases ended
      exact ⟨Or.inl rfl, noError⟩

/-- So where it ends with anything else, some `send` has failed. -/
theorem writeLoop_error (ended : writeLoop answers buf = some done)
    (failed : done.ret ≠ 0 ∧ done.ret ≠ 1) : .error ∈ answers := by
  by_contra noError
  rcases (writeLoop_noError ended noError).1 with zero | one
  · exact failed.1 zero
  · exact failed.2 one

end

namespace Forward

/-- The descriptor on a side is watched for one thing. -/
def Watches (con : Forward) (front : Bool) (fd : UInt32) (event : IoInterest) : Prop :=
  con.ioEvent fd = some ⟨event, callback front, ()⟩

/-- How a write towards a side leaves the two sockets, and what they are watched for. -/
structure Written (con after : Forward) (isFront : Bool) (des src : NetworkSocket) : Prop where
  des' : ∃ sendData, after.socket isFront = some { des with sendData := sendData } ∧
    (sendData.remaining ≠ [] ∧ after.Watches isFront des.fd .write ∧ after.ioEvent src.fd = none ∨
      sendData.remaining = [] ∧ after.Watches isFront des.fd .read ∧
        after.Watches (!isFront) src.fd .read)
  src' : ∃ recvData, after.socket (!isFront) = some { src with recvData := recvData } ∧
    recvData.bytes = []
  others : ∀ fd, fd ≠ des.fd → fd ≠ src.fd → after.ioEvent fd = con.ioEvent fd

variable {m : Allocator UInt8} {answers : List SendAnswer} {con after : Forward} {isFront : Bool}
  {des src : NetworkSocket} {ret : Int}

/-- Emptying the received block leaves the destination's socket. -/
theorem socket_clearBlock (other : con.socket (!isFront) = some src) :
    (con.clearBlock m isFront).socket isFront = con.socket isFront ∧
      (con.clearBlock m isFront).socket (!isFront) =
        some { src with recvData := src.recvData.clear m } := by
  rw [clearBlock, other]
  exact ⟨socket_setSocket_of_not _ _ _, socket_setSocket _ _ _⟩

/-- Emptying the received block leaves the registrations. -/
theorem ioEvent_clearBlock : (con.clearBlock m isFront).ioEvent = con.ioEvent := by
  cases isFront <;> rfl

/-- Putting a socket somewhere leaves the registrations. -/
theorem ioEvent_setSocket {ns : Option NetworkSocket} :
    (con.setSocket isFront ns).ioEvent = con.ioEvent := by
  cases isFront <;> rfl

/-- How the second half of a write ends: the rest is parked, `send` has failed, or all is sent. -/
theorem writeBlock_cases (done : writeBlock m answers con isFront des = some (ret, after)) :
    ∃ sent, writeLoop answers (con.block isFront) = some sent ∧
      (sent.ret = 1 ∧ ret = 0 ∧ (∃ parked, saveDataToSendData m (con.take isFront sent.accepted)
          isFront des sent.buf = some parked ∧ after = parked.clearBlock m isFront) ∨
        (sent.ret ≠ 0 ∧ sent.ret ≠ 1) ∧ ret = -1 ∧
          after = { con.take isFront sent.accepted with finished := true } ∨
        sent.ret = 0 ∧ ret = 0 ∧ after = ((con.take isFront sent.accepted).watch
          (con.ioEvent.addIoEventRead des.fd (callback isFront) ())).clearBlock m isFront) := by
  simp only [writeBlock, writeNosslData_eq, Option.bind_eq_bind, Option.bind_eq_some_iff] at done
  obtain ⟨sent, ended, done⟩ := done
  refine ⟨sent, ended, ?_⟩
  split at done
  · next again =>
    simp only [Option.bind_eq_some_iff] at done
    obtain ⟨parked, saved, same⟩ := done
    cases same
    exact Or.inl ⟨again, rfl, parked, saved, rfl⟩
  split at done
  · next again failed =>
    cases done
    exact Or.inr (Or.inl ⟨⟨failed, again⟩, rfl, rfl⟩)
  · next success =>
    cases done
    exact Or.inr (Or.inr ⟨not_not.mp success, rfl, rfl⟩)

/-- What is parked has been sent, and both sides are read from before the block is written. -/
def flushed (m : Allocator UInt8) (con : Forward) (isFront : Bool) (des : NetworkSocket)
    (sent : WriteResult) : Forward :=
  let con := (con.take isFront sent.accepted).setSocket isFront
    (some { des with sendData := sent.buf.clear m })
  match con.socket (!isFront) with
  | some sSocket => con.watch (con.ioEvent.addIoEventRead sSocket.fd (callback !isFront) ())
  | none => con

/-- How a write ends: there was nothing, what was parked stays so or fails, or the block is next. -/
theorem writeData_cases (done : writeData m answers con isFront = some (ret, after)) :
    ∃ des, con.socket isFront = some des ∧
      ((des.sendData.remailLength ≤ 0 ∧ (con.block isFront).remailLength ≤ 0) ∧ ret = 0 ∧
          after = (con.clearBlock m isFront).setSocket isFront
            (some { des with sendData := des.sendData.clear m }) ∨
        des.sendData.remailLength > 0 ∧ (∃ sent, writeLoop answers des.sendData = some sent ∧
          (sent.ret = 1 ∧ ret = 0 ∧ (∃ parked, saveDataToSendData m
              (con.take isFront sent.accepted) isFront { des with sendData := sent.buf }
              (con.block isFront) = some parked ∧ after = parked.clearBlock m isFront) ∨
            (sent.ret ≠ 0 ∧ sent.ret ≠ 1) ∧ ret = -1 ∧
              after = { con.take isFront sent.accepted with finished := true } ∨
            sent.ret = 0 ∧ writeBlock m sent.answers (con.flushed m isFront des sent) isFront
              { des with sendData := sent.buf.clear m } = some (ret, after))) ∨
        ¬ des.sendData.remailLength > 0 ∧ (con.block isFront).remailLength > 0 ∧
          writeBlock m answers con isFront des = some (ret, after)) := by
  simp only [writeData, writeNosslData_eq, Option.bind_eq_bind, Option.bind_eq_some_iff] at done
  obtain ⟨des, found, done⟩ := done
  refine ⟨des, found, ?_⟩
  split at done
  · next both =>
    cases done
    exact Or.inl ⟨both, rfl, rfl⟩
  next some_ =>
  split at done
  · next pending =>
    simp only [Option.bind_eq_some_iff] at done
    obtain ⟨sent, ended, done⟩ := done
    refine Or.inr (Or.inl ⟨pending, sent, ended, ?_⟩)
    split at done
    · next again =>
      simp only [Option.bind_eq_some_iff] at done
      obtain ⟨parked, saved, same⟩ := done
      cases same
      exact Or.inl ⟨again, rfl, parked, saved, rfl⟩
    split at done
    · next again failed =>
      cases done
      exact Or.inr (Or.inl ⟨⟨failed, again⟩, rfl, rfl⟩)
    · next success => exact Or.inr (Or.inr ⟨not_not.mp success, done⟩)
  · next none_ =>
    have block : (con.block isFront).remailLength > 0 := by
      by_contra empty
      exact some_ ⟨UInt32.not_lt.mp none_, UInt32.not_lt.mp empty⟩
    exact Or.inr (Or.inr ⟨none_, block, done⟩)

/-- Only one buffer changes then, and nothing is received or sent but what is counted. -/
theorem flushed_frame {sent : WriteResult} :
    (con.flushed m isFront des sent).socket isFront =
        some { des with sendData := sent.buf.clear m } ∧
      (con.flushed m isFront des sent).socket (!isFront) = con.socket (!isFront) ∧
      (con.flushed m isFront des sent).accepted = (con.take isFront sent.accepted).accepted ∧
      (con.flushed m isFront des sent).finished = con.finished := by
  unfold flushed
  dsimp only
  split
  · exact ⟨socket_setSocket _ _ _, socket_setSocket_not _ _ _, accepted_setSocket _ _ _,
      finished_setSocket _ _ _⟩
  · exact ⟨socket_setSocket _ _ _, socket_setSocket_not _ _ _, accepted_setSocket _ _ _,
      finished_setSocket _ _ _⟩

/-- The buffers stay well formed. -/
theorem flushed_wf {sent : WriteResult} (wf : con.WellFormed)
    (here : con.socket isFront = some des) (rest : sent.buf.WellFormed) :
    (con.flushed m isFront des sent).WellFormed := by
  have kept : (con.take isFront sent.accepted).WellFormed := wf
  have emptied : ((con.take isFront sent.accepted).setSocket isFront
      (some { des with sendData := sent.buf.clear m })).WellFormed :=
    kept.setSocket isFront (wf isFront des here).1 (StringBuf.clear_spec m rest).1
  unfold flushed
  dsimp only
  split
  · exact emptied
  · exact emptied

/-- The other side is read from again. -/
theorem ioEvent_flushed {sent : WriteResult} (other : con.socket (!isFront) = some src) :
    (con.flushed m isFront des sent).ioEvent =
      con.ioEvent.addIoEventRead src.fd (callback !isFront) () := by
  have there : ((con.take isFront sent.accepted).setSocket isFront
      (some { des with sendData := sent.buf.clear m })).socket (!isFront) = some src := by
    rw [socket_setSocket_not]
    exact other
  unfold flushed
  dsimp only
  rw [there]
  exact congrArg (·.addIoEventRead src.fd (callback !isFront) ()) ioEvent_setSocket

/-- Where something is parked, that side is watched for room, and nothing is read from the other. -/
theorem written_park {data : StringBuf} {parked : Forward} {des₀ : NetworkSocket}
    (wf : src.recvData.WellFormed) (other : con.socket (!isFront) = some src)
    (apart : des.fd ≠ src.fd) (same : des = { des₀ with sendData := des.sendData })
    (send : des.sendData.WellFormed) (block : data.WellFormed)
    (some_ : des.sendData.remaining ++ data.remaining ≠ [])
    (done : saveDataToSendData m con isFront des data = some parked) :
    Written con (parked.clearBlock m isFront) isFront des₀ src := by
  simp only [saveDataToSendData, Option.bind_eq_bind, Option.bind_eq_some_iff] at done
  obtain ⟨saved, savedDone, done⟩ := done
  obtain ⟨savedWf, savedBytes, -⟩ := saveData_spec send block savedDone
  have savedSame : saved = { des with sendData := saved.sendData } := by
    simp only [saveData, Option.bind_eq_bind, Option.bind_eq_some_iff] at savedDone
    obtain ⟨_, _, _, _, _, _, same⟩ := savedDone
    cases same
    rfl
  rw [socket_setSocket_not, other] at done
  obtain rfl := Option.some.inj done
  have fd : des₀.fd = des.fd := by rw [same]
  have there : ∀ ioEvent, ((con.setSocket isFront (some saved)).watch ioEvent).socket (!isFront) =
      some src := fun ioEvent => by rw [socket_watch, socket_setSocket_not, other]
  obtain ⟨here', there'⟩ := @socket_clearBlock m _ isFront src (there _)
  have cleared := StringBuf.clear_spec m wf
  have savedFd : saved.fd = des.fd := by rw [savedSame]
  refine ⟨⟨saved.sendData, ?_, Or.inl ⟨savedBytes ▸ some_, ?_, ?_⟩⟩, ⟨_, there', cleared.2⟩, ?_⟩
  · rw [here', socket_watch, socket_setSocket, savedSame, same]
  · -- The descriptors differ, so that the registration for writing stays.
    rw [Watches, ioEvent_clearBlock, fd]
    simp only [watch, IoEvent.delIoEvent, IoEvent.addIoEventWrite, IoEvent.addIoEvent, savedFd]
    rw [Function.update_of_ne apart, Function.update_self]
  · rw [ioEvent_clearBlock]
    simp only [watch, IoEvent.delIoEvent]
    rw [Function.update_self]
  · intro other here there
    rw [ioEvent_clearBlock]
    simp only [watch, IoEvent.delIoEvent, IoEvent.addIoEventWrite, IoEvent.addIoEvent, savedFd]
    rw [Function.update_of_ne there, Function.update_of_ne (fd ▸ here)]
    exact congrFun ioEvent_setSocket other

/-- A block that is written with nothing parked before it. -/
theorem written_block {des₀ : NetworkSocket} (wf : con.WellFormed)
    (here : con.socket isFront = some des) (other : con.socket (!isFront) = some src)
    (apart : des.fd ≠ src.fd) (same : des = { des₀ with sendData := des.sendData })
    (empty : des.sendData.remaining = []) (watched : con.Watches (!isFront) src.fd .read)
    (done : writeBlock m answers con isFront des = some (ret, after))
    (alive : after.finished = false) : Written con after isFront des₀ src := by
  obtain ⟨recv, send⟩ := wf isFront des here
  obtain ⟨srcRecv, -⟩ := wf (!isFront) src other
  have fd : des₀.fd = des.fd := by rw [same]
  obtain ⟨sent, ended, ⟨again, -, parked, saved, rfl⟩ | ⟨-, -, rfl⟩ | ⟨-, -, rfl⟩⟩ :=
    writeBlock_cases done
  · have taken : (con.take isFront sent.accepted).socket (!isFront) = some src := other
    obtain ⟨restWf, -, -⟩ := writeLoop_spec (wf.block isFront) ended
    have some_ : des.sendData.remaining ++ sent.buf.remaining ≠ [] := by
      rw [empty, List.nil_append]
      exact writeLoop_again (wf.block isFront) ended again
    have written := written_park srcRecv taken apart same send restWf some_ saved
    exact ⟨written.des', written.src', written.others⟩
  · cases alive
  · -- All of it is sent, and both sides are read from.
    generalize watching : (con.take isFront sent.accepted).watch _ = mid
    have there : mid.socket (!isFront) = some src := by rw [← watching]; exact other
    obtain ⟨here', there'⟩ := @socket_clearBlock m mid isFront src there
    have ioEvent : (mid.clearBlock m isFront).ioEvent =
        con.ioEvent.addIoEventRead des.fd (callback isFront) () := by
      rw [ioEvent_clearBlock, ← watching]
      rfl
    refine ⟨⟨des.sendData, ?_, Or.inr ⟨empty, ?_, ?_⟩⟩, ⟨_, there',
      (StringBuf.clear_spec m srcRecv).2⟩, ?_⟩
    · rw [here', ← watching, ← same]
      exact here
    · rw [Watches, ioEvent, fd]
      exact Function.update_self _ _ _
    · rw [Watches, ioEvent]
      exact (Function.update_of_ne (Ne.symm apart) _ _).trans watched
    · intro other here _
      rw [ioEvent]
      exact Function.update_of_ne (fd ▸ here) _ _

/-- Some data is written: either all of it is sent, or what is left waits for room. -/
theorem written_data (wf : con.WellFormed) (here : con.socket isFront = some des)
    (other : con.socket (!isFront) = some src) (apart : des.fd ≠ src.fd)
    (some_ : des.sendData.remaining ≠ [] ∨
      des.sendData.remaining = [] ∧ src.recvData.remaining ≠ [] ∧
        con.Watches (!isFront) src.fd .read)
    (done : writeData m answers con isFront = some (ret, after))
    (alive : after.finished = false) : Written con after isFront des src := by
  obtain ⟨recv, send⟩ := wf isFront des here
  obtain ⟨srcRecv, -⟩ := wf (!isFront) src other
  have block : con.block isFront = src.recvData := by rw [Forward.block, other]
  obtain ⟨_, found, ends⟩ := writeData_cases done
  obtain rfl := Option.some.inj (here.symm.trans found)
  rw [block] at ends
  rcases ends with ⟨both, -⟩ | ⟨pending, sent, ended, sentEnds⟩ | ⟨none_, -, done⟩
  · -- There is something to write.
    rcases some_ with parked | ⟨-, received, -⟩
    · exact absurd (remaining_eq_nil send both.1) parked
    · exact absurd (remaining_eq_nil srcRecv both.2) received
  · obtain ⟨restWf, -, full⟩ := writeLoop_spec send ended
    rcases sentEnds with ⟨again, -, parked, saved, rfl⟩ | ⟨-, -, rfl⟩ | ⟨-, done⟩
    · have left := writeLoop_again send ended again
      have taken : (con.take isFront sent.accepted).socket (!isFront) = some src := other
      generalize rest : { des with sendData := sent.buf } = des' at saved
      have same : des'.sendData = sent.buf := by rw [← rest]
      have fd : des'.fd = des.fd := by rw [← rest]
      rw [← same] at rest restWf left
      have written := written_park srcRecv taken (fd ▸ apart) rest.symm restWf srcRecv
        (fun none_ => left (List.append_eq_nil_iff.mp none_).1) saved
      exact ⟨written.des', written.src', written.others⟩
    · cases alive
    · -- What was parked is sent, and the other side is read from again.
      obtain ⟨here', there', -⟩ := @flushed_frame m con isFront des sent
      have events : (con.flushed m isFront des sent).ioEvent =
        con.ioEvent.addIoEventRead src.fd (callback !isFront) () := ioEvent_flushed other
      have watched : (con.flushed m isFront des sent).Watches (!isFront) src.fd .read := by
        rw [Watches, events]
        exact Function.update_self _ _ _
      have written := written_block (flushed_wf wf here restWf) here' (there'.trans other) apart
        rfl (StringBuf.remaining_clear m restWf) watched done alive
      -- Only the two sockets of the connection are concerned.
      refine ⟨written.des', written.src', fun other here there => ?_⟩
      refine (written.others other here there).trans ?_
      rw [events]
      exact Function.update_of_ne there _ _
  · have empty := remaining_eq_nil send (UInt32.not_lt.mp none_)
    rcases some_ with parked | ⟨-, -, watched⟩
    · exact absurd empty parked
    · exact written_block wf here other apart rfl empty watched done alive

/-- Emptying the received block does not finish the connection. -/
theorem finished_clearBlock : (con.clearBlock m isFront).finished = con.finished :=
  finished_setSocket _ _ _

/-- Parking does not finish the connection. -/
theorem finished_park {data : StringBuf} {parked : Forward}
    (done : saveDataToSendData m con isFront des data = some parked) :
    parked.finished = con.finished := by
  simp only [saveDataToSendData, Option.bind_eq_bind, Option.bind_eq_some_iff] at done
  obtain ⟨saved, -, done⟩ := done
  split at done
  · cases done
    exact finished_setSocket _ _ _
  · cases done
    exact finished_setSocket _ _ _

/-- Writing the block ends well, or ends the connection where `send` fails. -/
theorem writeBlock_ends (done : writeBlock m answers con isFront des = some (ret, after)) :
    ret = 0 ∧ after.finished = con.finished ∨
      ret ≠ 0 ∧ after.finished = true ∧ .error ∈ answers := by
  obtain ⟨sent, ended, ⟨-, zero, parked, saved, rfl⟩ | ⟨failed, minus, rfl⟩ | ⟨-, zero, rfl⟩⟩ :=
    writeBlock_cases done
  · have same := finished_park saved
    exact Or.inl ⟨zero, finished_clearBlock.trans same⟩
  · exact Or.inr ⟨by rw [minus]; decide, rfl, writeLoop_error ended failed⟩
  · exact Or.inl ⟨zero, finished_clearBlock⟩

/-- A write that fails ends the connection, and it fails only where `send` does. -/
theorem writeData_ends (done : writeData m answers con isFront = some (ret, after)) :
    ret = 0 ∧ after.finished = con.finished ∨
      ret ≠ 0 ∧ after.finished = true ∧ .error ∈ answers := by
  obtain ⟨des, -, ⟨-, zero, rfl⟩ | ⟨-, sent, ended, sentEnds⟩ | ⟨-, -, done⟩⟩ :=
    writeData_cases done
  · exact Or.inl ⟨zero, (finished_setSocket _ _ _).trans finished_clearBlock⟩
  · rcases sentEnds with ⟨-, zero, parked, saved, rfl⟩ | ⟨failed, minus, rfl⟩ | ⟨-, done⟩
    · have same := finished_park saved
      exact Or.inl ⟨zero, finished_clearBlock.trans same⟩
    · exact Or.inr ⟨by rw [minus]; decide, rfl, writeLoop_error ended failed⟩
    · -- The block is written with the answers that are left.
      have later : .error ∈ sent.answers → .error ∈ answers := by
        intro member
        by_contra noError
        exact (writeLoop_noError ended noError).2 member
      obtain ⟨-, -, -, finished⟩ := @flushed_frame m con isFront des sent
      rcases writeBlock_ends done with ⟨zero, same⟩ | ⟨failed, ended, error⟩
      · exact Or.inl ⟨zero, same.trans finished⟩
      · exact Or.inr ⟨failed, ended, later error⟩
  · exact writeBlock_ends done

/-- A block that cannot be written whole is taken in part. -/
theorem writeBlock_fails (wf : con.WellFormed)
    (done : writeBlock m answers con isFront des = some (ret, after)) (failed : ret ≠ 0) :
    after.accepted isFront <+: con.accepted isFront ++ (con.block isFront).remaining ∧
      after.accepted (!isFront) = con.accepted (!isFront) := by
  obtain ⟨sent, ended, ⟨-, zero, -⟩ | ⟨-, -, rfl⟩ | ⟨-, zero, -⟩⟩ := writeBlock_cases done
  · exact absurd zero failed
  · -- The bytes that were sent are the first ones of the block.
    obtain ⟨-, parts, -⟩ := writeLoop_spec (wf.block isFront) ended
    have here : (con.take isFront sent.accepted).accepted isFront =
        con.accepted isFront ++ sent.accepted := Function.update_self _ _ _
    have there : (con.take isFront sent.accepted).accepted (!isFront) = con.accepted (!isFront) :=
      Function.update_of_ne (by cases isFront <;> decide) _ _
    refine ⟨?_, there⟩
    show (con.take isFront sent.accepted).accepted isFront <+: _
    rw [here, ← parts, ← List.append_assoc]
    exact List.prefix_append _ _
  · exact absurd zero failed

/-- Also where a write fails, `send` has taken a first part of what was to be sent. -/
theorem writeData_fails (wf : con.WellFormed)
    (done : writeData m answers con isFront = some (ret, after)) (failed : ret ≠ 0) :
    after.accepted isFront <+: (con.pipe isFront).contents ++ (con.block isFront).remaining ∧
      after.accepted (!isFront) = con.accepted (!isFront) := by
  obtain ⟨des, found, ends⟩ := writeData_cases done
  have send := (wf _ _ found).2
  have parked : con.parked isFront = des.sendData.remaining := by rw [Forward.parked, found]
  rw [Pipe.contents, Forward.pipe, parked]
  rcases ends with ⟨-, zero, -⟩ | ⟨-, sent, ended, sentEnds⟩ | ⟨none_, -, done⟩
  · exact absurd zero failed
  · obtain ⟨restWf, parts, full⟩ := writeLoop_spec send ended
    have here : (con.take isFront sent.accepted).accepted isFront =
        con.accepted isFront ++ sent.accepted := Function.update_self _ _ _
    have there : (con.take isFront sent.accepted).accepted (!isFront) =
        con.accepted (!isFront) := Function.update_of_ne (by cases isFront <;> decide) _ _
    rcases sentEnds with ⟨-, zero, -⟩ | ⟨-, -, rfl⟩ | ⟨zero, done⟩
    · exact absurd zero failed
    · -- What was parked is not taken whole.
      refine ⟨?_, there⟩
      show (con.take isFront sent.accepted).accepted isFront <+: _
      rw [here, ← parts, ← List.append_assoc, List.append_assoc]
      exact List.prefix_append _ _
    · -- What was parked is taken whole, and the block follows it.
      have all : sent.accepted = des.sendData.remaining := by
        rw [← parts, (full zero).1, List.append_nil]
      obtain ⟨-, other, accepted, -⟩ := @flushed_frame m con isFront des sent
      have block : (con.flushed m isFront des sent).block isFront = con.block isFront := by
        rw [Forward.block, Forward.block, other]
      obtain ⟨part, others⟩ := writeBlock_fails (flushed_wf wf found restWf) done failed
      rw [accepted, here, all, block] at part
      rw [accepted, there] at others
      exact ⟨part, others⟩
  · obtain ⟨part, others⟩ := writeBlock_fails wf done failed
    rw [remaining_eq_nil send (UInt32.not_lt.mp none_), List.append_nil]
    exact ⟨part, others⟩

/-! ## Between the calls -/

/-- Nothing is parked, and all that comes in is read. -/
def Idle (con : Forward) : Prop := ∀ front ns, con.socket front = some ns →
  ns.sendData.remaining = [] ∧ con.Watches front ns.fd .read

/-- Something is parked for one side, which is watched for room; nothing is read meanwhile. -/
def Waits (con : Forward) (front : Bool) : Prop := ∃ des src, con.socket front = some des ∧
  con.socket (!front) = some src ∧ des.sendData.remaining ≠ [] ∧ src.sendData.remaining = [] ∧
    con.Watches front des.fd .write ∧ con.ioEvent src.fd = none

/-- A connection between two calls of its handlers. -/
structure Settled (con : Forward) : Prop where
  wf : con.WellFormed
  client : con.clins.isSome = true
  empty : ∀ front ns, con.socket front = some ns → ns.recvData.bytes = []
  apart : ∀ front des src, con.socket front = some des → con.socket (!front) = some src →
    des.fd ≠ src.fd
  known : ∀ fd info, con.ioEvent fd = some info →
    ∃ front ns, con.socket front = some ns ∧ ns.fd = fd
  watched : con.Idle ∨ ∃ front, con.Waits front

/-- A write that settles a connection, with the block that it puts into the pipe. -/
structure Delivered (con after : Forward) (isFront : Bool) (block : Bytes) : Prop where
  settled : Settled after
  wrote : con.Wrote isFront block after

/-- What holds of the two sides of a connection holds of both sides. -/
theorem socket_cases {P : Bool → Prop} (isFront : Bool) (here : P isFront) (there : P (!isFront))
    (front : Bool) : P front := by
  cases isFront <;> cases front <;> assumption

/-- Where both sockets are there, a registration is for one of them. -/
theorem known_pair {fd : UInt32} (here : con.socket isFront = some des)
    (there : con.socket (!isFront) = some src)
    (known : ∃ front ns, con.socket front = some ns ∧ ns.fd = fd) :
    fd = des.fd ∨ fd = src.fd := by
  obtain ⟨front, ns, found, rfl⟩ := known
  refine @socket_cases (fun front => ∀ ns, con.socket front = some ns →
    ns.fd = des.fd ∨ ns.fd = src.fd) isFront ?_ ?_ front ns found
  · intro ns found
    exact Or.inl (congrArg NetworkSocket.fd (Option.some.inj (found.symm.trans here)))
  · intro ns found
    exact Or.inr (congrArg NetworkSocket.fd (Option.some.inj (found.symm.trans there)))

/-- After a write, either all is sent or what is left waits for room. -/
theorem Written.settled (written : Written con after isFront des src) (wf : after.WellFormed)
    (apart : des.fd ≠ src.fd) (received : des.recvData.bytes = [])
    (unparked : src.sendData.remaining = [])
    (known : ∀ fd info, con.ioEvent fd = some info → fd = des.fd ∨ fd = src.fd) :
    Settled after := by
  obtain ⟨⟨sendData, here, left⟩, ⟨recvData, there, cleared⟩, others⟩ := written
  have client : after.clins.isSome = true := by
    cases isFront
    · exact Option.isSome_iff_exists.mpr ⟨_, there⟩
    · exact Option.isSome_iff_exists.mpr ⟨_, here⟩
  -- Both sides have a socket now, so that each fact is shown for the two.
  refine ⟨wf, client, ?_, ?_, ?_, ?_⟩
  · refine socket_cases isFront ?_ ?_
    · intro ns found
      obtain rfl := Option.some.inj (here.symm.trans found)
      exact received
    · intro ns found
      obtain rfl := Option.some.inj (there.symm.trans found)
      exact cleared
  · refine socket_cases isFront ?_ ?_
    · intro ns ns' found found'
      obtain rfl := Option.some.inj (here.symm.trans found)
      obtain rfl := Option.some.inj (there.symm.trans found')
      exact apart
    · intro ns ns' found found'
      rw [Bool.not_not] at found'
      obtain rfl := Option.some.inj (there.symm.trans found)
      obtain rfl := Option.some.inj (here.symm.trans found')
      exact apart.symm
  · intro fd info registered
    by_cases own : fd = des.fd
    · exact ⟨isFront, _, here, own.symm⟩
    by_cases other : fd = src.fd
    · exact ⟨!isFront, _, there, other.symm⟩
    rcases known fd info ((others fd own other).symm.trans registered) with same | same
    · exact absurd same own
    · exact absurd same other
  · rcases left with ⟨parked, writes, stopped⟩ | ⟨none_, reads, reads'⟩
    · exact Or.inr ⟨isFront, _, _, here, there, parked, unparked, writes, stopped⟩
    · left
      refine socket_cases isFront ?_ ?_
      · intro ns found
        obtain rfl := Option.some.inj (here.symm.trans found)
        exact ⟨none_, reads⟩
      · intro ns found
        obtain rfl := Option.some.inj (there.symm.trans found)
        exact ⟨unparked, reads'⟩

/-- What is parked is written, with nothing new behind it. -/
theorem Settled.flush (settled : Settled con) (here : con.socket isFront = some des)
    (parked : des.sendData.remaining ≠ [])
    (done : writeData m answers con isFront = some (ret, after))
    (alive : after.finished = false) : Delivered con after isFront [] := by
  have waits : con.Waits isFront := by
    rcases settled.watched with idle | ⟨front, waits⟩
    · exact absurd (idle isFront des here).1 parked
    · obtain ⟨des', src, here', there, _, unparked, _, _⟩ := id waits
      -- Nothing is parked for the other side.
      by_cases same : front = isFront
      · exact same ▸ waits
      · have other : (!front) = isFront := by cases front <;> cases isFront <;> simp_all
        rw [other] at there
        obtain rfl := Option.some.inj (here.symm.trans there)
        exact absurd unparked parked
  obtain ⟨des', src, here', there, -, unparked, -, -⟩ := waits
  obtain rfl := Option.some.inj (here.symm.trans here')
  have apart := settled.apart isFront des src here there
  have wrote := writeData_spec settled.wf done alive
  have block : (con.block isFront).remaining = [] := by
    rw [Forward.block, there, StringBuf.remaining, settled.empty _ _ there, List.drop_nil]
  rw [block] at wrote
  have written := written_data settled.wf here there apart (Or.inl parked) done alive
  have known : ∀ fd info, con.ioEvent fd = some info → fd = des.fd ∨ fd = src.fd :=
    fun fd info registered => known_pair here there (settled.known fd info registered)
  exact ⟨written.settled wrote.wellFormed apart (settled.empty _ _ here) unparked known, wrote⟩

end Forward

/-! ## Reading -/

/-- What a read leaves of a socket that had nothing in its buffer. -/
structure Received (waiting : Bytes) (ns : NetworkSocket) (done : RecvResult) : Prop where
  ns' : done.ns = { ns with recvData := done.ns.recvData }
  wf : done.ns.recvData.WellFormed
  bytes : done.ns.recvData.bytes = done.taken
  remaining : done.ns.recvData.remaining = done.taken
  taken : done.taken <+: waiting

/-- Where the buffer has no length, nothing was taken. -/
theorem Received.taken_nil {waiting : Bytes} {ns : NetworkSocket} {done : RecvResult}
    (received : Received waiting ns done) (zero : done.ns.recvData.length = 0) :
    done.taken = [] := by
  have length := StringBuf.length_bytes received.wf
  rw [received.bytes, zero] at length
  exact List.eq_nil_of_length_eq_zero length

/-- Where it has one, something was. -/
theorem Received.taken_ne_nil {waiting : Bytes} {ns : NetworkSocket} {done : RecvResult}
    (received : Received waiting ns done) (some_ : done.ns.recvData.length ≠ 0) :
    done.taken ≠ [] := by
  intro none_
  have length := StringBuf.length_bytes received.wf
  rw [received.bytes, none_] at length
  exact some_ (UInt32.toNat_inj.mp length.symm)

/-- Where reading has not begun, all bytes remain. -/
theorem remaining_of_bytes {buf : StringBuf} (start : buf.offset = 0) :
    buf.remaining = buf.bytes := by
  rw [StringBuf.remaining, start]
  rfl

/-- A buffer without bytes has no length. -/
theorem length_of_empty {buf : StringBuf} (wf : buf.WellFormed) (empty : buf.bytes = []) :
    buf.length = 0 := by
  have bytes := StringBuf.length_bytes wf
  rw [empty] at bytes
  exact UInt32.toNat_inj.mp bytes.symm

/-- What fits a buffer is counted by 32 bits. -/
theorem toNat_of_fits {waiting : Bytes} (fits : waiting.length ≤ StringBuf.maxSize) :
    (UInt32.ofNat waiting.length).toNat = waiting.length := by
  have small : waiting.length < 0x100000000 := by
    simp only [StringBuf.maxSize] at fits
    omega
  rw [UInt32.toNat_ofNat']
  exact Nat.mod_eq_of_lt small

/-- A read takes the first bytes that wait, and returns 2 only where there are none. -/
theorem readNosslData_spec {m : Allocator UInt8} {answer : RecvAnswer} {waiting : Bytes}
    {ns : NetworkSocket} {done : RecvResult} (succeeds : m.Succeeds)
    (wf : ns.recvData.WellFormed) (empty : ns.recvData.bytes = [])
    (fits : waiting.length ≤ StringBuf.maxSize)
    (ended : readNosslData m answer waiting ns = some done) :
    Received waiting ns done ∧ (done.ret < 0 → answer = .closed ∨ answer = .error) ∧
      (done.ret = 2 ↔ answer ≠ .closed ∧ waiting = []) := by
  have length := length_of_empty wf empty
  have dataLen := toNat_of_fits fits
  have start : ns.recvData.offset = 0 := by
    have le := wf.offset_le
    rw [length] at le
    exact UInt32.toNat_inj.mp (Nat.le_zero.mp le)
  have unread : ∀ ret, Received waiting ns ⟨ret, ns, []⟩ := fun ret =>
    ⟨rfl, wf, empty, (remaining_of_bytes start).trans empty, List.nil_prefix⟩
  rw [readNosslData] at ended
  by_cases closed : answer = .closed
  · rw [if_pos closed] at ended
    cases ended
    exact ⟨unread _, fun _ => Or.inl closed, by simp [closed]⟩
  rw [if_neg closed] at ended
  by_cases none_ : UInt32.ofNat waiting.length = 0
  · rw [if_pos none_] at ended
    cases ended
    have nothing : waiting = [] := by
      rw [none_] at dataLen
      exact List.eq_nil_of_length_eq_zero dataLen.symm
    exact ⟨unread _, by simp, by simp [closed, nothing]⟩
  rw [if_neg none_] at ended
  have some_ : waiting ≠ [] := by
    rintro rfl
    exact none_ rfl
  -- There is room for all that waits.
  obtain ⟨grown, made, grownWf, grownBytes, grownLength, grownOffset, room⟩ :=
    @StringBuf.reallocMem_spec m ns.recvData (ns.recvData.length + UInt32.ofNat waiting.length) wf
      (succeeds _) (by rw [length, UInt32.zero_add, dataLen]; exact fits)
  rw [length, UInt32.zero_add, dataLen] at room
  rw [length, UInt32.zero_add] at made
  rw [empty] at grownBytes
  have held : ∀ ret, Received waiting ns ⟨ret, { ns with recvData := grown }, []⟩ := fun ret =>
    ⟨rfl, grownWf, grownBytes,
      (remaining_of_bytes (grownOffset.trans start)).trans grownBytes, List.nil_prefix⟩
  simp only [length, UInt32.zero_add, made, Option.bind_eq_bind, Option.bind_some] at ended
  cases answer with
  | closed => exact absurd rfl closed
  | again =>
    cases ended
    exact ⟨held _, by simp, by simp [some_]⟩
  | error =>
    cases ended
    exact ⟨held _, fun _ => Or.inr rfl, by simp [some_]⟩
  | bytes count =>
    simp only [Option.bind_eq_some_iff] at ended
    obtain ⟨filled, received, same⟩ := ended
    cases same
    have within : grown.length.toNat + (waiting.take (min (count + 1)
        (UInt32.ofNat waiting.length).toNat)).length ≤ grown.allocateLen.toNat := by
      rw [grownLength, length, List.length_take, dataLen]
      have zero : (0 : UInt32).toNat = 0 := rfl
      omega
    obtain ⟨filled', received', filledWf, filledBytes, filledOffset⟩ :=
      StringBuf.recvInto_spec grownWf within
    obtain rfl := Option.some.inj (received.symm.trans received')
    rw [grownBytes, List.nil_append] at filledBytes
    refine ⟨⟨rfl, filledWf, filledBytes, ?_, List.take_prefix _ _⟩, by simp, by simp [some_]⟩
    have begin_ : filled.offset = 0 := filledOffset.trans (grownOffset.trans start)
    exact (remaining_of_bytes begin_).trans filledBytes

/-! ## The handlers -/

namespace Relay

variable {s t : Relay} {turn : Turn} {isFront : Bool} {des src : NetworkSocket}

/-- Something is pending exactly if some bytes are. -/
theorem pending_iff {front : Bool} {buffer : NetworkSocket → StringBuf} {ns : NetworkSocket}
    (found : s.con.socket front = some ns) (wf : (buffer ns).WellFormed) :
    s.pending front buffer = true ↔ (buffer ns).remaining ≠ [] := by
  rw [pending, found, Option.any_some, decide_eq_true_eq, remailLength_pos wf,
    List.length_pos_iff]

/-- A `write_data` that is called. -/
theorem writeIf_inv {answers : List SendAnswer} {m : Allocator UInt8} {ret : Int}
    (done : s.writeIf true m answers isFront = some (ret, t)) :
    writeData m answers s.con isFront = some (ret, t.con) ∧ t = { s with con := t.con } := by
  rw [writeIf, if_pos rfl, Option.map_eq_some_iff] at done
  obtain ⟨result, wrote, same⟩ := done
  obtain ⟨ret', con⟩ := result
  cases same
  exact ⟨wrote, rfl⟩

/-- How a call of `send_data` ends. -/
structure Sent (s t : Relay) (isFront : Bool) (block : Bytes) : Prop where
  delivered : s.con.Delivered t.con isFront block
  alive : t.con.finished = false
  frame : t = { s with con := t.con }

/-- How a call of `send_data` ends where `send` fails. -/
structure Broken (turn : Turn) (s t : Relay) (isFront : Bool) (block : Bytes) : Prop where
  finished : t.con.finished = true
  error : ∃ i, .error ∈ turn.send i
  part : t.con.accepted isFront <+: (s.con.pipe isFront).contents ++ block
  others : t.con.accepted (!isFront) = s.con.accepted (!isFront)
  arrived : t.arrived = s.arrived

/-- A block has been read from one side, and nothing is parked. -/
structure Ready (s : Relay) (isFront : Bool) (des src : NetworkSocket) : Prop where
  alive : s.con.finished = false
  wf : s.con.WellFormed
  here : s.con.socket isFront = some des
  there : s.con.socket (!isFront) = some src
  apart : des.fd ≠ src.fd
  received : des.recvData.bytes = []
  unparked : des.sendData.remaining = []
  unparked' : src.sendData.remaining = []
  block : src.recvData.remaining ≠ []
  watched : s.con.Watches (!isFront) src.fd .read
  known : ∀ fd info, s.con.ioEvent fd = some info → fd = des.fd ∨ fd = src.fd

/-- Such a block is sent on, unless `send` fails. -/
theorem Ready.sendData (ready : s.Ready isFront des src) (done : s.sendData turn isFront = some t) :
    s.Sent t isFront src.recvData.remaining ∨
      Broken turn s t isFront src.recvData.remaining := by
  obtain ⟨alive, wf, here, there, apart, received, unparked, unparked', block, watched, known⟩ :=
    ready
  have first := (pending_iff there (wf _ _ there).1).mpr block
  simp only [Relay.sendData, first, Option.bind_eq_bind, Option.bind_eq_some_iff] at done
  obtain ⟨⟨ret, s₁⟩, wrote, done⟩ := done
  obtain ⟨wrote, frame⟩ := writeIf_inv wrote
  have blockIs : s.con.block isFront = src.recvData := by rw [Forward.block, there]
  have arrived : s₁.arrived = s.arrived := by rw [frame]
  rcases Forward.writeData_ends wrote with ⟨rfl, same⟩ | ⟨failed, finished, error⟩
  · simp only [ne_eq, not_true_eq_false, if_false] at done
    have alive₁ : s₁.con.finished = false := same.trans alive
    have wrote₁ := writeData_spec wf wrote alive₁
    rw [blockIs] at wrote₁
    have written := Forward.written_data wf here there apart (Or.inr ⟨unparked, block, watched⟩)
      wrote alive₁
    have settled := written.settled wrote₁.wellFormed apart received unparked' known
    obtain ⟨⟨sendData, here₁, -⟩, ⟨recvData, there₁, -⟩, -⟩ := written
    -- Nothing is parked for the side that has sent the block.
    have second : s₁.pending (!isFront) (·.sendData) = false := by
      rw [Bool.eq_false_iff, ne_eq, pending_iff there₁ (wrote₁.wellFormed _ _ there₁).2]
      exact not_not.mpr unparked'
    simp only [second, writeIf, Bool.false_eq_true, if_false, Option.bind_some,
      not_true_eq_false, Option.bind_eq_some_iff] at done
    obtain ⟨⟨ret, s₂⟩, wrote, same⟩ := done
    cases same
    by_cases third : s₁.pending isFront (·.sendData) = true
    · rw [third] at wrote
      obtain ⟨wrote, frame'⟩ := writeIf_inv wrote
      have parked := (pending_iff here₁ (wrote₁.wellFormed _ _ here₁).2).mp third
      rcases Forward.writeData_ends wrote with ⟨-, same'⟩ | ⟨failed, finished, error⟩
      · have alive₂ : s₂.con.finished = false := same'.trans alive₁
        have flushed := settled.flush here₁ parked wrote alive₂
        have both := wrote₁.followed flushed.wrote
        rw [List.append_nil] at both
        refine Or.inl ⟨⟨flushed.settled, both⟩, alive₂, ?_⟩
        rw [frame', frame]
      · -- The rest of the block is written again, and fails.
        obtain ⟨part, others⟩ := Forward.writeData_fails wrote₁.wellFormed wrote failed
        have block₁ : (s₁.con.block isFront).remaining = [] := by
          rw [Forward.block, there₁, StringBuf.remaining, settled.empty _ _ there₁, List.drop_nil]
        rw [block₁, List.append_nil, wrote₁.turn.contents_eq] at part
        have others₁ := congrArg Pipe.accepted wrote₁.frame
        refine Or.inr ⟨finished, ⟨_, error⟩, part, others.trans others₁, ?_⟩
        rw [frame', arrived]
    · rw [Bool.not_eq_true] at third
      rw [third, if_neg (by decide)] at wrote
      cases wrote
      exact Or.inl ⟨⟨settled, wrote₁⟩, alive₁, frame⟩
  · rw [if_pos failed] at done
    cases done
    obtain ⟨part, others⟩ := Forward.writeData_fails wf wrote failed
    rw [blockIs] at part
    exact Or.inr ⟨finished, ⟨_, error⟩, part, others, arrived⟩

/-! ## What every call keeps -/

/-- A connection that is served, between two calls. -/
structure Sound (queue : Nat) (s : Relay) : Prop where
  settled : s.con.Settled
  order : ∀ front, (s.con.pipe front).contents = s.taken (!front)
  taken : ∀ front, s.taken front <+: s.arrived front
  waits : ∀ front, (s.waiting front).length ≤ queue
  held : ∀ front, (s.con.parked front).length ≤ queue
  retries : s.retries = 0

/-- What was taken and what waits are what has come in. -/
theorem taken_waiting {front : Bool} (taken : s.taken front <+: s.arrived front) :
    s.taken front ++ s.waiting front = s.arrived front := by
  obtain ⟨rest, same⟩ := taken
  rw [waiting, ← same, List.drop_left]

/-- What has been accepted on one side has come in on the other. -/
theorem Sound.accepted {queue : Nat} (sound : s.Sound queue) (front : Bool) :
    s.con.accepted front <+: s.arrived (!front) := by
  refine List.IsPrefix.trans ?_ (sound.taken (!front))
  rw [← sound.order front]
  exact List.prefix_append _ _

/-- A read, in the terms of the connection. -/
structure Reads (queue : Nat) (s t : Relay) (front : Bool) (taken : Bytes) : Prop where
  sound : s.Sound queue
  unparked : ∀ side, s.con.parked side = []
  part : taken <+: s.waiting front
  accepted : t.con.accepted = s.con.accepted
  parked : ∀ side, t.con.parked side = []
  arrived : t.arrived = s.arrived
  taken' : t.taken = Function.update s.taken front (s.taken front ++ taken)
  retries : t.retries = 0

variable {queue : Nat} {front : Bool} {taken : Bytes}

/-- A read takes from one side only. -/
theorem Reads.taken_eq (reads : Reads queue s t front taken) :
    t.taken front = s.taken front ++ taken ∧ t.taken (!front) = s.taken (!front) := by
  rw [reads.taken', Function.update_self, Function.update_of_ne (by cases front <;> decide)]
  exact ⟨rfl, rfl⟩

/-- What was read was still there, and the rest of it waits. -/
theorem Reads.streams (reads : Reads queue s t front taken) :
    (∀ side, t.taken side <+: t.arrived side) ∧ ∀ side, (t.waiting side).length ≤ queue := by
  obtain ⟨here, there⟩ := reads.taken_eq
  have whole := taken_waiting (reads.sound.taken front)
  -- What had waited is what was taken and what is left.
  obtain ⟨rest, parts⟩ := reads.part
  rw [← parts, ← List.append_assoc, ← here, ← reads.arrived] at whole
  constructor
  · refine Forward.socket_cases front ⟨rest, whole⟩ ?_
    rw [there, reads.arrived]
    exact reads.sound.taken _
  · refine Forward.socket_cases front ?_ ?_
    · have before := reads.sound.waits front
      rw [← parts, List.length_append] at before
      rw [waiting, ← whole, List.drop_left]
      omega
    · have before := reads.sound.waits (!front)
      rwa [waiting, there, reads.arrived]

/-- The pipes after a read: nothing has gone into them yet. -/
theorem Reads.contents (reads : Reads queue s t front taken) (side : Bool) :
    (t.con.pipe side).contents = s.taken (!side) := by
  have before := reads.sound.order side
  rw [Pipe.contents, Forward.pipe, reads.unparked side] at before
  rw [Pipe.contents, Forward.pipe, reads.accepted, reads.parked side]
  exact before

/-- Where nothing was taken, all stays as it is. -/
theorem Reads.nothing (reads : Reads queue s t front []) (settled : t.con.Settled) :
    t.Sound queue := by
  obtain ⟨here, there⟩ := reads.taken_eq
  obtain ⟨prefix_, waits⟩ := reads.streams
  refine ⟨settled, fun side => ?_, prefix_, waits, fun side => ?_, reads.retries⟩
  · rw [reads.contents side]
    refine @Forward.socket_cases (fun side => s.taken side = t.taken side) front ?_ ?_ (!side)
    · rw [here, List.append_nil]
    · exact there.symm
  · rw [reads.parked side]
    exact Nat.zero_le _

/-- What was taken is sent on. -/
theorem Reads.sent (reads : Reads queue s t front taken) {u : Relay}
    (sent : t.Sent u (!front) taken) : u.Sound queue := by
  obtain ⟨⟨settled, wrote⟩, alive, frame⟩ := sent
  obtain ⟨here, there⟩ := reads.taken_eq
  obtain ⟨prefix_, waits⟩ := reads.streams
  have same : u.taken = t.taken ∧ u.arrived = t.arrived ∧ u.retries = t.retries := by
    rw [frame]
    exact ⟨rfl, rfl, rfl⟩
  have waiting : ∀ side, u.waiting side = t.waiting side := fun side => by
    rw [Relay.waiting, same.1, same.2.1, Relay.waiting]
  refine ⟨settled, ?_, ?_, ?_, ?_, same.2.2.trans reads.retries⟩
  · refine Forward.socket_cases front ?_ ?_
    · have frame := wrote.frame
      rw [Bool.not_not] at frame
      rw [frame, reads.contents front, same.1, there]
    · rw [wrote.turn.contents_eq, reads.contents, Bool.not_not, same.1, here]
  · intro side
    rw [same.1, same.2.1]
    exact prefix_ side
  · intro side
    rw [waiting]
    exact waits side
  · refine Forward.socket_cases front ?_ ?_
    · have frame := congrArg Pipe.pending wrote.frame
      rw [Bool.not_not] at frame
      have nothing : u.con.parked front = [] := frame.trans (reads.parked front)
      rw [nothing]
      exact Nat.zero_le _
    · -- No more can be parked than was taken.
      have turn := wrote.turn.contents_eq
      rw [Pipe.contents, Pipe.contents] at turn
      have pending : (t.con.pipe (!front)).pending = [] := reads.parked _
      rw [pending, List.append_nil] at turn
      have lengths := congrArg List.length turn
      simp only [List.length_append] at lengths
      have keeps := wrote.turn.keeps.length_le
      have part := reads.part.length_le
      have before := reads.sound.waits front
      have held : (u.con.parked (!front)).length = (u.con.pipe (!front)).pending.length := rfl
      rw [held]
      omega

/-- What was taken is sent on in part. -/
theorem Reads.broken (reads : Reads queue s t front taken) {u : Relay}
    (broken : Broken turn t u (!front) taken) (side : Bool) :
    u.con.accepted side <+: u.arrived (!side) := by
  obtain ⟨here, there⟩ := reads.taken_eq
  obtain ⟨prefix_, -⟩ := reads.streams
  have others := broken.others
  rw [Bool.not_not] at others
  rw [broken.arrived]
  -- Only the pipe towards the other side has moved.
  refine @Forward.socket_cases (fun side => u.con.accepted side <+: t.arrived (!side)) front ?_ ?_
    side
  · rw [others, reads.accepted, reads.arrived]
    exact reads.sound.accepted front
  · have part := broken.part
    rw [reads.contents, Bool.not_not, ← here] at part
    rw [Bool.not_not]
    exact part.trans (prefix_ front)

/-- What is parked is flushed. -/
theorem Sound.flush (sound : s.Sound queue) (here : s.con.socket isFront = some des)
    (parked : des.sendData.remaining ≠ []) {m : Allocator UInt8} {answers : List SendAnswer}
    {ret : Int} (wrote : writeData m answers s.con isFront = some (ret, t.con))
    (frame : t = { s with con := t.con }) (alive : t.con.finished = false) : t.Sound queue := by
  obtain ⟨settled, wrote⟩ := sound.settled.flush here parked wrote alive
  have turn := wrote.turn.contents_eq
  rw [List.append_nil] at turn
  have same : t.taken = s.taken ∧ t.arrived = s.arrived ∧ t.retries = s.retries := by
    rw [frame]
    exact ⟨rfl, rfl, rfl⟩
  -- Nothing was read: the pipe of one side has moved, and the streams have not.
  refine ⟨settled, ?_, ?_, ?_, ?_, same.2.2.trans sound.retries⟩
  · rw [same.1]
    refine Forward.socket_cases isFront (turn.trans (sound.order _)) ?_
    rw [wrote.frame]
    exact sound.order _
  · rw [same.1, same.2.1]
    exact sound.taken
  · intro side
    rw [waiting, same.1, same.2.1]
    exact sound.waits side
  · refine Forward.socket_cases isFront ?_ ?_
    · have lengths := congrArg List.length turn
      rw [Pipe.contents, Pipe.contents, List.length_append, List.length_append] at lengths
      have keeps := wrote.turn.keeps.length_le
      have before : (s.con.pipe isFront).pending.length ≤ queue := sound.held isFront
      have held : (t.con.parked isFront).length = (t.con.pipe isFront).pending.length := rfl
      rw [held]
      omega
    · have frame := congrArg Pipe.pending wrote.frame
      have nothing : t.con.parked (!isFront) = s.con.parked (!isFront) := frame
      rw [nothing]
      exact sound.held _

/-- What is parked is flushed in part. -/
theorem Sound.cut {m : Allocator UInt8} {answers : List SendAnswer} {ret : Int}
    (sound : s.Sound queue) (there : s.con.socket (!isFront) = some src)
    (wrote : writeData m answers s.con isFront = some (ret, t.con))
    (frame : t = { s with con := t.con }) (failed : ret ≠ 0) (side : Bool) :
    t.con.accepted side <+: t.arrived (!side) := by
  obtain ⟨part, others⟩ := Forward.writeData_fails sound.settled.wf wrote failed
  have block : (s.con.block isFront).remaining = [] := by
    rw [Forward.block, there, StringBuf.remaining, sound.settled.empty _ _ there, List.drop_nil]
  have arrived : t.arrived = s.arrived := by rw [frame]
  rw [arrived]
  -- The side that is written to has a first part of what was parked for it.
  refine @Forward.socket_cases (fun side => t.con.accepted side <+: s.arrived (!side)) isFront
    ?_ ?_ side
  · rw [block, List.append_nil, sound.order] at part
    exact part.trans (sound.taken _)
  · rw [others]
    exact sound.accepted _

/-! ## Calls of the handlers -/

/-- Nothing is parked in an idle connection. -/
theorem parked_of_idle (idle : s.con.Idle) (side : Bool) : s.con.parked side = [] := by
  rw [Forward.parked]
  cases found : s.con.socket side with
  | none => rfl
  | some ns => exact (idle side ns found).1

section

variable {ns : NetworkSocket} {done : RecvResult}

/-- A read concerns the socket of one side. -/
theorem socket_read : (s.read front done).con.socket front = some done.ns ∧
    (s.read front done).con.socket (!front) = s.con.socket (!front) :=
  ⟨Forward.socket_setSocket _ _ _, Forward.socket_setSocket_not _ _ _⟩

/-- A read leaves the registrations. -/
theorem ioEvent_read : (s.read front done).con.ioEvent = s.con.ioEvent :=
  Forward.ioEvent_setSocket

/-- A read from an idle connection. -/
theorem Sound.reads (sound : s.Sound queue) (idle : s.con.Idle)
    (found : s.con.socket front = some ns) (received : Received (s.waiting front) ns done) :
    Reads queue s (s.read front done) front done.taken ∧ (s.read front done).con.WellFormed := by
  have send : done.ns.sendData = ns.sendData := by rw [received.ns']
  obtain ⟨here, there⟩ := @socket_read s front done
  -- Only the receive buffer of one socket has changed.
  refine ⟨⟨sound, parked_of_idle idle, received.taken, ?_, ?_, rfl, rfl, sound.retries⟩, ?_⟩
  · exact Forward.accepted_setSocket _ _ _
  · refine Forward.socket_cases front ?_ ?_
    · rw [Forward.parked, here]
      have unparked := (idle front ns found).1
      rwa [← send] at unparked
    · rw [Forward.parked, there]
      exact parked_of_idle idle (!front)
  · exact sound.settled.wf.setSocket front received.wf (send ▸ (sound.settled.wf _ _ found).2)

/-- A read that takes nothing settles at once. -/
theorem Sound.reads_nothing (sound : s.Sound queue) (idle : s.con.Idle)
    (found : s.con.socket front = some ns) (received : Received (s.waiting front) ns done)
    (nothing : done.taken = []) : (s.read front done).Sound queue := by
  obtain ⟨reads, wf⟩ := sound.reads idle found received
  obtain ⟨here, there⟩ := @socket_read s front done
  have fd : done.ns.fd = ns.fd := by rw [received.ns']
  rw [nothing] at reads
  -- The socket on that side keeps its descriptor and all but an empty buffer.
  refine reads.nothing ⟨wf, ?_, ?_, ?_, ?_, Or.inl ?_⟩
  · cases front
    · exact sound.settled.client
    · rfl
  · refine Forward.socket_cases front ?_ ?_
    · intro other found'
      obtain rfl := Option.some.inj (here.symm.trans found')
      exact received.bytes.trans nothing
    · intro other found'
      exact sound.settled.empty _ _ (there.symm.trans found')
  · refine Forward.socket_cases front ?_ ?_
    · intro des src found' other
      obtain rfl := Option.some.inj (here.symm.trans found')
      rw [fd]
      exact sound.settled.apart front ns src found (there.symm.trans other)
    · intro des src found' other
      rw [Bool.not_not] at other
      obtain rfl := Option.some.inj (here.symm.trans other)
      rw [fd]
      refine sound.settled.apart (!front) des ns (there.symm.trans found') ?_
      rw [Bool.not_not]
      exact found
  · intro fd' info registered
    rw [ioEvent_read] at registered
    obtain ⟨side, other, found', same⟩ := sound.settled.known fd' info registered
    refine @Forward.socket_cases (fun side => ∀ other, s.con.socket side = some other →
      other.fd = fd' → ∃ front' ns, (s.read front done).con.socket front' = some ns ∧
        ns.fd = fd') front ?_ ?_ side other found' same
    · rintro other found' rfl
      obtain rfl := Option.some.inj (found.symm.trans found')
      exact ⟨front, _, here, fd⟩
    · rintro other found' rfl
      exact ⟨!front, _, there.trans found', rfl⟩
  · refine Forward.socket_cases front ?_ ?_
    · intro other found'
      obtain rfl := Option.some.inj (here.symm.trans found')
      obtain ⟨unparked, watched⟩ := idle front ns found
      refine ⟨?_, ?_⟩
      · rw [received.ns']
        exact unparked
      · rw [Forward.Watches, ioEvent_read, fd]
        exact watched
    · intro other found'
      obtain ⟨unparked, watched⟩ := idle _ other (there.symm.trans found')
      refine ⟨unparked, ?_⟩
      rw [Forward.Watches, ioEvent_read]
      exact watched

/-- A read that takes something is ready to be sent on to a socket on the other side. -/
theorem Sound.ready (sound : s.Sound queue) (alive : s.con.finished = false) (idle : s.con.Idle)
    (found : s.con.socket (!isFront) = some ns) (other : s.con.socket isFront = some des)
    (received : Received (s.waiting (!isFront)) ns done) (some_ : done.taken ≠ []) :
    (s.read (!isFront) done).Ready isFront des done.ns := by
  obtain ⟨-, wf⟩ := sound.reads idle found received
  obtain ⟨here, there⟩ := @socket_read s (!isFront) done
  rw [Bool.not_not] at there
  have fd : done.ns.fd = ns.fd := by rw [received.ns']
  obtain ⟨unparked, watched⟩ := idle _ ns found
  -- All but the new block is as it was in the idle connection.
  refine ⟨?_, wf, there.trans other, here, ?_, sound.settled.empty _ _ other,
    (idle _ _ other).1, ?_, ?_, ?_, ?_⟩
  · exact (Forward.finished_setSocket _ _ _).trans alive
  · rw [fd]
    exact sound.settled.apart isFront des ns other found
  · rw [received.ns']
    exact unparked
  · rw [received.remaining]
    exact some_
  · rw [Forward.Watches, ioEvent_read, fd]
    exact watched
  · intro fd' info registered
    rw [ioEvent_read] at registered
    rw [fd]
    exact Forward.known_pair other found (sound.settled.known fd' info registered)

end

end Relay

/-- A new socket has nothing in its buffers. -/
theorem Alloc.buffers (alloc : Alloc) :
    alloc.socket.recvData = .new ∧ alloc.socket.sendData = .new := by
  cases alloc <;> exact ⟨rfl, rfl⟩

/-- There is memory, and a backend can be connected to where one is needed. -/
structure Turn.Served (turn : Turn) : Prop where
  malloc : turn.malloc.Succeeds
  connected : ∃ address port fd, turn.alloc = .connected address port fd

/-- No system call fails, and there is an active database. -/
structure Turn.Works (turn : Turn) : Prop where
  recv : turn.recv ≠ .closed ∧ turn.recv ≠ .error
  found : turn.found = true
  send : ∀ i, .error ∉ turn.send i

namespace Relay

variable {s t : Relay} {turn : Turn} {queue : Nat}

/-- How a call ends: the connection is served on, or it is finished. -/
def Ended (queue : Nat) (turn : Turn) (t : Relay) : Prop :=
  t.con.finished = false ∧ t.Sound queue ∨ t.con.finished = true ∧
    (∀ front, t.con.accepted front <+: t.arrived (!front)) ∧
    (turn.Works → ∃ front, t.con.accepted (!front) = t.arrived front)

/-- How a call ends that has read something and then sends it on. -/
theorem Reads.ended {u : Relay} {front : Bool} {taken : Bytes}
    (reads : Reads queue s t front taken)
    (sent : t.Sent u (!front) taken ∨ Broken turn t u (!front) taken) : u.Ended queue turn := by
  rcases sent with sent | broken
  · exact Or.inl ⟨sent.alive, reads.sent sent⟩
  · obtain ⟨i, error⟩ := broken.error
    exact Or.inr ⟨broken.finished, reads.broken broken, fun works => absurd error (works.send i)⟩

/-- After a call in which something failed, the connection may be given up. -/
theorem Sound.given_up (sound : s.Sound queue) (accepted : t.con.accepted = s.con.accepted)
    (arrived : t.arrived = s.arrived) (fails : ¬ turn.Works) : t.finish.Ended queue turn := by
  refine Or.inr ⟨rfl, fun side => ?_, fun works => absurd works fails⟩
  have before := sound.accepted side
  rw [← accepted, ← arrived] at before
  exact before

/-- A side from which nothing is read any more has had all that it has sent accepted. -/
theorem ended_of_closed {front : Bool} (sound : s.Sound queue) (idle : s.con.Idle)
    (nothing : s.waiting front = []) (ret : Int) (ns : NetworkSocket) :
    (s.read front ⟨ret, ns, []⟩).finish.Ended queue turn := by
  have accepted : (s.read front ⟨ret, ns, []⟩).finish.con.accepted = s.con.accepted :=
    Forward.accepted_setSocket _ _ _
  refine Or.inr ⟨rfl, fun side => ?_, fun _ => ⟨front, ?_⟩⟩
  · rw [accepted]
    exact sound.accepted side
  · have order := sound.order (!front)
    rw [Pipe.contents, Forward.pipe, parked_of_idle idle, List.append_nil, Bool.not_not] at order
    -- All that had come in was taken, and nothing of it is parked.
    have whole := taken_waiting (sound.taken front)
    rw [nothing, List.append_nil] at whole
    rw [accepted]
    exact order.trans whole

/-- A read of what the backend has sent. -/
theorem Sound.handleReadBackendData (sound : s.Sound queue) (alive : s.con.finished = false)
    (idle : s.con.Idle) (served : turn.Served) (fits : queue ≤ StringBuf.maxSize)
    (done : s.handleReadBackendData turn = some t) : t.Ended queue turn := by
  rw [Relay.handleReadBackendData] at done
  cases found : s.con.servns with
  | none =>
    rw [found] at done
    cases done
    exact Or.inl ⟨alive, sound⟩
  | some sns =>
    simp only [found, Option.bind_eq_bind, Option.bind_eq_some_iff] at done
    obtain ⟨result, read, done⟩ := done
    have there : s.con.socket false = some sns := found
    obtain ⟨received, failed, closed⟩ := readNosslData_spec served.malloc
      (sound.settled.wf _ _ there).1 (sound.settled.empty _ _ there)
      (Nat.le_trans (sound.waits false) fits) read
    split at done
    · next negative =>
      cases done
      refine sound.given_up (Forward.accepted_setSocket _ _ _) rfl fun works => ?_
      rcases failed negative with same | same
      · exact absurd same works.recv.1
      · exact absurd same works.recv.2
    · split at done
      · next two =>
        cases done
        obtain ⟨-, nothing⟩ := closed.mp two
        have none_ : result.taken = [] := List.prefix_nil.mp (nothing ▸ received.taken)
        obtain ⟨ret, ns, taken⟩ := result
        cases none_
        exact ended_of_closed sound idle nothing ret ns
      · split at done
        · next zero =>
          -- `recv` was refused, and the next event reads.
          cases done
          have none_ := received.taken_nil zero
          exact Or.inl ⟨(Forward.finished_setSocket _ _ _).trans alive,
            sound.reads_nothing idle there received none_⟩
        · next some_ =>
          have taken := received.taken_ne_nil some_
          obtain ⟨cns, client⟩ := Option.isSome_iff_exists.mp sound.settled.client
          have ready := @Sound.ready s true cns queue sns result sound alive idle there client
            received taken
          have sent := ready.sendData done
          rw [received.remaining] at sent
          exact (sound.reads idle there received).1.ended sent

/-- Where there is an active database, a protocol is chosen. -/
theorem parseFrontDataPacket_works (found : turn.found = true) :
    (s.parseFrontDataPacket turn).1 = true := by
  rw [parseFrontDataPacket]
  split
  · rfl
  · exact found

/-- The choice of a protocol does not concern the sockets. -/
theorem parseFrontDataPacket_frame :
    (s.parseFrontDataPacket turn).2 =
      { s with protocolBase := (s.parseFrontDataPacket turn).2.protocolBase } := by
  rw [parseFrontDataPacket]
  split
  · rfl
  · rfl

/-- A read is still one after a protocol has been chosen. -/
theorem Reads.parsed {front : Bool} {taken : Bytes} (reads : Reads queue s t front taken) :
    Reads queue s (t.parseFrontDataPacket turn).2 front taken := by
  rw [parseFrontDataPacket_frame]
  exact ⟨reads.sound, reads.unparked, reads.part, reads.accepted, reads.parked, reads.arrived,
    reads.taken', reads.retries⟩

/-- What was read is still ready after a protocol has been chosen. -/
theorem Ready.parsed {isFront : Bool} {des src : NetworkSocket} (ready : t.Ready isFront des src) :
    (t.parseFrontDataPacket turn).2.Ready isFront des src := by
  rw [parseFrontDataPacket_frame]
  exact ⟨ready.alive, ready.wf, ready.here, ready.there, ready.apart, ready.received,
    ready.unparked, ready.unparked', ready.block, ready.watched, ready.known⟩

/-- The connection with the socket of a new backend. -/
def connect (t : Relay) (ns : NetworkSocket) : Relay :=
  { t with
    con := (t.con.setSocket false (some ns)).watch
      (t.con.ioEvent.addIoEventRead ns.fd .rwBackendData ()) }

/-- Where there is no backend yet, one is connected to. -/
theorem allocServer_none {times : Nat} (served : turn.Served) (noServer : t.con.servns = none) :
    t.allocServer times turn = (true, t.connect turn.alloc.socket) := by
  obtain ⟨address, port, fd, connected⟩ := served.connected
  rw [allocServer, noServer, connected]
  rfl

/-- Where there is a backend, it is kept. -/
theorem allocServer_some {times : Nat} {sns : NetworkSocket} (server : t.con.servns = some sns) :
    t.allocServer times turn = (true, t) := by
  rw [allocServer, server]

section

variable {ns src : NetworkSocket}

/-- A new backend has had nothing parked for it. -/
theorem Reads.connect {taken : Bytes} (reads : Reads queue s t true taken)
    (new : ns.sendData = .new) : Reads queue s (t.connect ns) true taken := by
  refine ⟨reads.sound, reads.unparked, reads.part, ?_, ?_, reads.arrived, reads.taken',
    reads.retries⟩
  · exact (Forward.accepted_setSocket _ _ _).trans reads.accepted
  · refine Forward.socket_cases true (reads.parked true) ?_
    show ns.sendData.remaining = []
    rw [new, StringBuf.remaining_new]

/-- What the client sent first is ready for the new backend. -/
theorem ready_connect (alive : t.con.finished = false) (wf : t.con.WellFormed)
    (client : t.con.clins = some src) (apart : ns.fd ≠ src.fd)
    (new : ns.recvData = .new ∧ ns.sendData = .new) (unparked : src.sendData.remaining = [])
    (block : src.recvData.remaining ≠ []) (watched : t.con.Watches true src.fd .read)
    (known : ∀ fd info, t.con.ioEvent fd = some info → fd = src.fd) :
    (t.connect ns).Ready false ns src := by
  refine ⟨alive, ?_, rfl, client, apart, ?_, ?_, unparked, block, ?_, ?_⟩
  · refine wf.setSocket false ?_ ?_
    · rw [new.1]
      exact StringBuf.new_wellFormed
    · rw [new.2]
      exact StringBuf.new_wellFormed
  · rw [new.1]
    rfl
  · rw [new.2, StringBuf.remaining_new]
  · exact (Function.update_of_ne apart.symm _ _).trans watched
  · intro fd info registered
    -- The descriptor is the new one or one that was watched before.
    by_cases same : fd = ns.fd
    · exact Or.inl same
    · exact Or.inr (known fd info ((Function.update_of_ne same _ _).symm.trans registered))

end

/-- What the client has sent is ready for a backend, which is there by then. -/
theorem Sound.ready_front {times : Nat} {cns : NetworkSocket} {done : RecvResult}
    (sound : s.Sound queue) (alive : s.con.finished = false)
    (idle : s.con.Idle) (served : turn.Served)
    (fresh : ∀ cns, s.con.clins = some cns → turn.alloc.socket.fd ≠ cns.fd)
    (client : s.con.clins = some cns) (received : Received (s.waiting true) cns done)
    (some_ : done.taken ≠ []) :
    ∃ u des, ((s.read true done).parseFrontDataPacket turn).2.allocServer times turn = (true, u) ∧
      u.Ready false des done.ns ∧ Reads queue s u true done.taken := by
  have there : s.con.socket true = some cns := client
  have reads := (sound.reads idle there received).1
  have frame := @parseFrontDataPacket_frame (s.read true done) turn
  cases server : s.con.servns with
  | some sns =>
    have ready := @Sound.ready s false sns queue cns done sound alive idle client server
      received some_
    have server' : ((s.read true done).parseFrontDataPacket turn).2.con.servns = some sns := by
      rw [frame]
      exact server
    exact ⟨_, sns, allocServer_some server', ready.parsed, reads.parsed⟩
  | none =>
    obtain ⟨unparked, watched⟩ := idle _ _ there
    have fd : done.ns.fd = cns.fd := by rw [received.ns']
    have server' : ((s.read true done).parseFrontDataPacket turn).2.con.servns = none := by
      rw [frame]
      exact server
    refine ⟨_, turn.alloc.socket, allocServer_none served server', ?_,
      reads.parsed.connect turn.alloc.buffers.2⟩
    rw [frame]
    refine ready_connect alive (sound.reads idle there received).2 rfl ?_
      turn.alloc.buffers ?_ (received.remaining ▸ some_) ?_ ?_
    · rw [fd]
      exact fresh cns client
    · rw [received.ns']
      exact unparked
    · rw [fd]
      exact watched
    · -- Only the client is watched as yet.
      intro other info registered
      obtain ⟨front, ns, found, rfl⟩ := sound.settled.known other info registered
      cases front
      · cases server.symm.trans found
      · rw [fd, Option.some.inj (client.symm.trans found)]

/-- A read of what the client has sent. -/
theorem Sound.handleReadFrontData {times : Nat} (sound : s.Sound queue)
    (alive : s.con.finished = false) (idle : s.con.Idle) (served : turn.Served)
    (fresh : ∀ cns, s.con.clins = some cns → turn.alloc.socket.fd ≠ cns.fd)
    (fits : queue ≤ StringBuf.maxSize) (done : s.handleReadFrontData times turn = some t) :
    t.Ended queue turn := by
  rw [Relay.handleReadFrontData] at done
  obtain ⟨cns, client⟩ := Option.isSome_iff_exists.mp sound.settled.client
  simp only [client, Option.bind_eq_bind, Option.bind_eq_some_iff] at done
  obtain ⟨result, read, done⟩ := done
  have there : s.con.socket true = some cns := client
  obtain ⟨received, failed, closed⟩ := readNosslData_spec served.malloc
    (sound.settled.wf _ _ there).1 (sound.settled.empty _ _ there)
    (Nat.le_trans (sound.waits true) fits) read
  split at done
  · next negative =>
    cases done
    refine sound.given_up (Forward.accepted_setSocket _ _ _) rfl fun works => ?_
    rcases failed negative with same | same
    · exact absurd same works.recv.1
    · exact absurd same works.recv.2
  split at done
  · next two =>
    cases done
    obtain ⟨-, nothing⟩ := closed.mp two.1
    have none_ : result.taken = [] := List.prefix_nil.mp (nothing ▸ received.taken)
    obtain ⟨ret, ns, taken⟩ := result
    cases none_
    exact ended_of_closed sound idle nothing ret ns
  split at done
  · next zero =>
    cases done
    have none_ := received.taken_nil zero
    exact Or.inl ⟨(Forward.finished_setSocket _ _ _).trans alive,
      sound.reads_nothing idle there received none_⟩
  · next some_ =>
    have taken := received.taken_ne_nil some_
    have more : result.ns.recvData.remailLength > 0 := by
      rw [remailLength_pos received.wf, received.remaining]
      exact List.length_pos_iff.mpr taken
    split at done
    · -- No database could be chosen.
      next unparsed =>
      cases done
      rw [parseFrontDataPacket_frame]
      refine sound.given_up (Forward.accepted_setSocket _ _ _) rfl fun works => ?_
      rw [parseFrontDataPacket_works works.found] at unparsed
      cases unparsed
    · -- What was read goes on to the backend, to a new one where there is none.
      obtain ⟨u, des, there', ready, reads⟩ := @Sound.ready_front s turn queue times cns result
        sound alive idle served fresh client received taken
      simp only [there'] at done
      rw [← received.remaining] at reads
      exact reads.ended (ready.sendData done)

/-- What the event loop calls where a side is watched for room. -/
theorem callBack_write {times : Nat} {front : Bool} :
    s.callBack times turn ⟨.write, Forward.callback front, ()⟩ =
      (s.writeIf true turn.malloc (turn.send 0) front).map (·.2) := by
  cases front <;> rfl

/-- An event: something is read where nothing is parked, and what is parked is flushed. -/
theorem Sound.callBack {times : Nat} {fd : UInt32} {info : EventInfo Unit} (sound : s.Sound queue)
    (alive : s.con.finished = false) (served : turn.Served)
    (fresh : ∀ cns, s.con.clins = some cns → turn.alloc.socket.fd ≠ cns.fd)
    (fits : queue ≤ StringBuf.maxSize) (registered : s.con.ioEvent fd = some info)
    (done : s.callBack times turn info = some t) : t.Ended queue turn := by
  have known := sound.settled.known fd info registered
  rcases sound.settled.watched with idle | ⟨side, waits⟩
  · obtain ⟨front, ns, found, rfl⟩ := known
    obtain ⟨-, watched⟩ := idle front ns found
    obtain rfl := Option.some.inj (registered.symm.trans watched)
    cases front
    · exact sound.handleReadBackendData alive idle served fits done
    · exact sound.handleReadFrontData alive idle served fresh fits done
  · obtain ⟨des, src, here, there, parked, -, watched, stopped⟩ := waits
    rcases Forward.known_pair here there known with rfl | rfl
    · -- There is room on the side that something is parked for.
      obtain rfl := Option.some.inj (registered.symm.trans watched)
      rw [callBack_write, Option.map_eq_some_iff] at done
      obtain ⟨result, wrote, rfl⟩ := done
      obtain ⟨ret, u⟩ := result
      obtain ⟨wrote, frame⟩ := writeIf_inv wrote
      rcases Forward.writeData_ends wrote with ⟨-, same⟩ | ⟨failed, finished, error⟩
      · have alive' := same.trans alive
        exact Or.inl ⟨alive', sound.flush here parked wrote frame alive'⟩
      · refine Or.inr ⟨finished, sound.cut there wrote frame failed, fun works => ?_⟩
        exact absurd error (works.send 0)
    · -- From the other side nothing is read meanwhile.
      cases stopped.symm.trans registered

/-! ## All that can happen -/

/-- Bytes that come in wait to be read. -/
theorem Sound.arrive {front : Bool} {bytes : Bytes} (sound : s.Sound queue)
    (fits : (s.waiting front).length + bytes.length ≤ queue) :
    { s with arrived := Function.update s.arrived front (s.arrived front ++ bytes) }.Sound
      queue := by
  have other : (!front) ≠ front := by cases front <;> decide
  refine ⟨sound.settled, sound.order, ?_, ?_, sound.held, sound.retries⟩
  · refine Forward.socket_cases front ?_ ?_
    · show s.taken front <+: Function.update s.arrived front _ front
      rw [Function.update_self]
      exact (sound.taken front).trans (List.prefix_append _ _)
    · show s.taken (!front) <+: Function.update s.arrived front _ (!front)
      rw [Function.update_of_ne other]
      exact sound.taken _
  · refine Forward.socket_cases front ?_ ?_
    · -- What was taken comes before the new bytes.
      show ((Function.update s.arrived front _ front).drop _).length ≤ queue
      rw [Function.update_self, List.drop_append_of_le_length (sound.taken front).length_le,
        List.length_append]
      exact fits
    · show ((Function.update s.arrived front _ (!front)).drop _).length ≤ queue
      rw [Function.update_of_ne other]
      exact sound.waits _

/-- A client that has just been accepted. -/
theorem Fresh.sound (fresh : s.Fresh) : s.Sound queue := by
  obtain ⟨alive, client, noServer, accepted, retries, nothing⟩ := fresh
  obtain ⟨cns, there, recv, send, watched⟩ := client
  have only : ∀ front ns, s.con.socket front = some ns → front = true ∧ ns = cns := by
    intro front ns found
    cases front
    · cases noServer.symm.trans found
    · exact ⟨rfl, Option.some.inj (found.symm.trans there)⟩
  have idle : s.con.Idle := by
    intro front ns found
    obtain ⟨rfl, rfl⟩ := only front ns found
    refine ⟨?_, ?_⟩
    · rw [send, StringBuf.remaining_new]
    · rw [Forward.Watches, watched, IoEvent.addIoEventRead, IoEvent.addIoEvent,
        Function.update_self]
      rfl
  refine ⟨⟨?_, ?_, ?_, ?_, ?_, Or.inl idle⟩, ?_, ?_, ?_, ?_, retries⟩
  · intro front ns found
    obtain ⟨-, rfl⟩ := only front ns found
    rw [recv, send]
    exact ⟨StringBuf.new_wellFormed, StringBuf.new_wellFormed⟩
  · rw [there]
    rfl
  · intro front ns found
    obtain ⟨-, rfl⟩ := only front ns found
    rw [recv]
    rfl
  · intro front des src found found'
    -- Only one of the two sides has a socket.
    have here := (only front des found).1
    have other := (only _ src found').1
    rw [here] at other
    cases other
  · intro fd info registered
    rw [watched, IoEvent.addIoEventRead, IoEvent.addIoEvent] at registered
    by_cases same : fd = cns.fd
    · exact ⟨true, cns, there, same.symm⟩
    · rw [Function.update_of_ne same] at registered
      cases registered
  · intro front
    rw [Pipe.contents, Forward.pipe, accepted, parked_of_idle idle, (nothing _).2]
    rfl
  · intro front
    rw [(nothing front).2]
    exact List.nil_prefix
  · intro front
    rw [waiting, (nothing front).1, List.drop_nil]
    exact Nat.zero_le _
  · intro front
    rw [parked_of_idle idle]
    exact Nat.zero_le _

end Relay

/-- In the calls of handlers there is memory, and a backend can be connected to. -/
def RelayLabel.Served : RelayLabel → Prop
  | .event _ turn | .retry turn => turn.Served
  | .arrive _ _ | .timeout => True

/-- Nothing fails, and the connection is not idle for too long. -/
def RelayLabel.Works : RelayLabel → Prop
  | .event _ turn | .retry turn => turn.Works
  | .arrive _ _ => True
  | .timeout => False

namespace Relay

variable {s t : Relay} {queue times : Nat} {l : RelayLabel}

/-- One step, from a connection that is served. -/
theorem Sound.step (sound : s.Sound queue) (served : l.Served) (fits : queue ≤ StringBuf.maxSize)
    (done : relayStep times queue s l = some t) :
    t.con.finished = false ∧ t.Sound queue ∨ t.con.finished = true ∧
      (∀ front, t.con.accepted front <+: t.arrived (!front)) ∧
      (l.Works → ∃ front, t.con.accepted (!front) = t.arrived front) := by
  unfold relayStep at done
  split at done
  · cases done
  next alive =>
  rw [Bool.not_eq_true] at alive
  cases l with
  | arrive front bytes =>
    dsimp only at done
    split at done
    · next room =>
      cases done
      exact Or.inl ⟨alive, sound.arrive room.2⟩
    · cases done
  | event fd turn =>
    dsimp only at done
    split at done
    · cases done
    next fresh =>
    rw [Option.bind_eq_some_iff] at done
    obtain ⟨info, registered, done⟩ := done
    refine sound.callBack alive served (fun cns client same => fresh ?_) fits registered done
    rw [client, Option.any_some, decide_eq_true_eq]
    exact same.symm
  | retry turn =>
    -- No connection attempt has failed.
    dsimp only at done
    rw [if_pos (Or.inr sound.retries)] at done
    cases done
  | timeout =>
    cases done
    exact Or.inr ⟨rfl, sound.accepted, False.elim⟩

/-- With a connection that is finished nothing happens any more. -/
theorem relayStep_finished (gone : s.con.finished = true) : relayStep times queue s l = none := by
  unfold relayStep
  rw [if_pos gone]

/-- What holds in every state of such a run: all is kept, or the connection is over. -/
theorem sound_or_over (fits : queue ≤ StringBuf.maxSize)
    (reached : Reachable ((relaySystem times queue).restrict fun _ l => l.Served) s) :
    s.con.finished = false ∧ s.Sound queue ∨
      s.con.finished = true ∧ ∀ front, s.con.accepted front <+: s.arrived (!front) := by
  have start : ∀ s : Relay, s.Fresh → s.con.finished = false ∧ s.Sound queue ∨
      s.con.finished = true ∧ ∀ front, s.con.accepted front <+: s.arrived (!front) :=
    fun s begun => Or.inl ⟨begun.alive, begun.sound⟩
  refine reached.invariant start ?_
  intro s l t before step
  obtain ⟨served, done⟩ := step
  rcases before with ⟨-, sound⟩ | ⟨gone, -⟩
  · rcases sound.step served fits done with next | ⟨gone, accepted, -⟩
    · exact Or.inl next
    · exact Or.inr ⟨gone, accepted⟩
  · -- After the end there are no steps.
    cases (relayStep_finished gone).symm.trans done

/-- A connection over which everything is relayed. -/
structure Relays (queue : Nat) (s : Relay) : Prop where
  /-- What has been sent on, what is parked and what waits are, in order, all that has come in. -/
  order : ∀ front,
    s.con.accepted front ++ s.con.parked front ++ s.waiting (!front) = s.arrived (!front)
  held : ∀ front, (s.con.parked front).length ≤ queue
  /-- Either what comes in is read on both sides, or one side is watched for room. -/
  watched : s.con.Idle ∨ ∃ front, s.con.Waits front

/-- Between two calls all is kept. -/
theorem Sound.relays (sound : s.Sound queue) : s.Relays queue := by
  refine ⟨fun front => ?_, sound.held, sound.settled.watched⟩
  have order := sound.order front
  rw [Pipe.contents, Forward.pipe] at order
  rw [order]
  exact taken_waiting (sound.taken _)

/-- A list of labels that is executed is such a run. -/
theorem reachable_served {labels : List RelayLabel} (served : ∀ l ∈ labels, l.Served)
    (reached : Reachable ((relaySystem times queue).restrict fun _ l => l.Served) s)
    (done : exec (relayStep times queue) s labels = some t) :
    Reachable ((relaySystem times queue).restrict fun _ l => l.Served) t := by
  -- Each label is one step before the rest of the run.
  induction labels generalizing s with
  | nil =>
    obtain rfl := Option.some.inj done
    exact reached
  | cons l labels ih =>
    simp only [exec, Option.bind_eq_some_iff] at done
    obtain ⟨u, first, rest⟩ := done
    have met : l.Served := served l List.mem_cons_self
    have next := reached.next (show ((relaySystem times queue).restrict _).step s l u from
      ⟨met, first⟩)
    exact ih (fun l member => served l (List.mem_cons_of_mem _ member)) next rest

/-- A client with descriptor 5. -/
def oneClient : Relay where
  con :=
    { clins := some { NetworkSocket.new [] 0 with fd := 5 }
      servns := none
      ioEvent := IoEvent.addIoEventRead (fun _ => none) 5 .rwFrontData ()
      finished := false
      handed := fun _ => []
      accepted := fun _ => [] }
  protocolBase := false
  retries := 0
  arrived _ := []
  taken _ := []

/-- The backend gets descriptor 9, and takes one byte only. -/
def oneByteTurn : Turn where
  malloc := .filled 0
  recv := .bytes 1
  found := true
  alloc := .connected [] 0 9
  send i := if i.val = 0 then [.accept 0, .again] else [.again]

/-- Of three bytes one is sent on, one is parked, and one waits. -/
theorem oneClient_reaches : ∃ s : Relay,
    Reachable ((relaySystem 3 8).restrict fun _ l => l.Served) s ∧ s.con.finished = false ∧
      (s.con.accepted false, s.con.parked false, s.waiting true) = ([1], [2], [3]) ∧
        s.arrived true = [1, 2, 3] := by
  let labels : List RelayLabel := [.arrive true [1, 2], .event 5 oneByteTurn, .arrive true [3]]
  have fresh : oneClient.Fresh :=
    ⟨rfl, ⟨_, rfl, rfl, rfl, rfl⟩, rfl, fun _ => rfl, rfl, fun _ => ⟨rfl, rfl⟩⟩
  have served : ∀ l ∈ labels, l.Served := by
    intro l member
    simp only [labels, List.mem_cons, List.not_mem_nil, or_false] at member
    rcases member with rfl | rfl | rfl
    · trivial
    · exact ⟨Allocator.filled_succeeds 0, _, _, _, rfl⟩
    · trivial
  have seen : (exec (relayStep 3 8) oneClient labels).map (fun s => (s.con.finished,
      (s.con.accepted false, s.con.parked false, s.waiting true), s.arrived true)) =
        some (false, ([1], [2], [3]), [1, 2, 3]) := by decide +kernel
  obtain ⟨s, done, same⟩ := Option.map_eq_some_iff.mp seen
  have start : Reachable ((relaySystem 3 8).restrict fun _ l => l.Served) oneClient :=
    Reachable.start fresh
  obtain ⟨alive, same⟩ := Prod.mk.inj same
  obtain ⟨held, whole⟩ := Prod.mk.inj same
  exact ⟨s, reachable_served served start done, alive, held, whole⟩

end Relay

end OneProxy
