import OneProxy.Lib.Runs
import OneProxy.Iomultiplex.IoEvent
import OneProxy.NetworkSocket

/-! Writing a block on to the other side of a connection, and parking what cannot be written. -/

namespace OneProxy

open Memory Runs

/-- What one `send` does: it takes some bytes, at least one, or it fails. -/
inductive SendAnswer
  | accept (count : Nat)
  | again
  | error
  deriving DecidableEq

/-- The bytes a `send` of `n` bytes takes, never more than one call of the kernel can move. -/
def sendLen (count n : Nat) : Nat := min (count + 1) (min n 0x7ffff000)

/-- How a `write_nosslData` ends. -/
structure WriteResult where
  ret : Int
  buf : StringBuf
  /-- The bytes that `send` took. -/
  accepted : Bytes
  /-- The answers that are left for later calls of `send`. -/
  answers : List SendAnswer

/-- The loop of `write_nosslData`, which has no result while an answer of `send` is missing. -/
def writeLoop : List SendAnswer → StringBuf → Option WriteResult
  | answers, buf =>
    if buf.remailLength > 0 then
      match answers with
      | [] => none
      | .again :: answers => some ⟨1, buf, [], answers⟩
      | .error :: answers => some ⟨-1, buf, [], answers⟩
      | .accept count :: answers => do
        let len := sendLen count buf.remailLength.toNat
        let sent ← buf.buf.read buf.offset.toNat len
        let done ← writeLoop answers (buf.setOffset (buf.offset + UInt32.ofNat len))
        some { done with accepted := sent ++ done.accepted }
    else some ⟨0, buf, [], answers⟩

/-- `write_nosslData`: 0 when everything was taken, 1 when the rest has to wait, -1 on an error. -/
def writeNosslData (answers : List SendAnswer) (buf : StringBuf) : Option WriteResult :=
  if buf.remailLength ≤ 0 then some ⟨0, buf, [], answers⟩ else writeLoop answers buf

/-- `save_data`: parks what remains of a block behind what is already parked. -/
def saveData (m : Allocator UInt8) (ns : NetworkSocket) (buf : StringBuf) : Option NetworkSocket :=
  do
    let sendData ← ns.sendData.erase 0 ns.sendData.offset
    let sendData := sendData.setOffset 0
    let data ← buf.buf.read buf.offset.toNat buf.remailLength.toNat
    let sendData ← sendData.append m data
    some { ns with sendData := sendData }

/-- The two sockets of a connection, and the history of what went through. -/
structure Forward where
  clins : Option NetworkSocket
  servns : Option NetworkSocket
  ioEvent : IoEvent Unit
  /-- The connection was finished after an error. -/
  finished : Bool
  /-- The bytes handed to `write_data`, towards the client (`true`) and towards the backend. -/
  handed : Bool → Bytes
  /-- The bytes taken by `send`, towards the client (`true`) and towards the backend. -/
  accepted : Bool → Bytes

namespace Forward

/-- The socket on one side: the client's (`true`) or the backend's. -/
def socket (con : Forward) (front : Bool) : Option NetworkSocket :=
  if front then con.clins else con.servns

/-- Puts a socket on one side. -/
def setSocket (con : Forward) (front : Bool) (ns : Option NetworkSocket) : Forward :=
  if front then { con with clins := ns } else { con with servns := ns }

/-- The callback for events of the socket on one side. -/
def callback (front : Bool) : IoCallback := if front then .rwFrontData else .rwBackendData

/-- The bytes parked for the socket on one side. -/
def parked (con : Forward) (front : Bool) : Bytes :=
  match con.socket front with
  | some ns => ns.sendData.remaining
  | none => []

/-- The received block that a write towards one side is about: that of the socket on the other. -/
def block (con : Forward) (isFront : Bool) : StringBuf :=
  match con.socket !isFront with
  | some ns => ns.recvData
  | none => .new

/-- Empties the received block after a write. -/
def clearBlock (m : Allocator UInt8) (con : Forward) (isFront : Bool) : Forward :=
  con.setSocket (!isFront)
    ((con.socket !isFront).map fun ns => { ns with recvData := ns.recvData.clear m })

/-- Replaces the registrations. -/
def watch (con : Forward) (ioEvent : IoEvent Unit) : Forward := { con with ioEvent := ioEvent }

/-- Records bytes that `send` took. -/
def take (con : Forward) (isFront : Bool) (bytes : Bytes) : Forward :=
  { con with accepted := Function.update con.accepted isFront (con.accepted isFront ++ bytes) }

end Forward

/--
`save_data_toSendData`: parks the block, waits for room and stops reading from the other side.
-/
def saveDataToSendData (m : Allocator UInt8) (con : Forward) (isFront : Bool)
    (desSocket : NetworkSocket) (data : StringBuf) : Option Forward := do
  let desSocket ← saveData m desSocket data
  let con := con.setSocket isFront (some desSocket)
  let ioEvent := con.ioEvent.addIoEventWrite desSocket.fd (Forward.callback isFront) ()
  match con.socket !isFront with
  | some sSocket => some (con.watch (ioEvent.delIoEvent sSocket.fd))
  | none => some (con.watch ioEvent)

/-- The second half of `write_data`: the received block itself. -/
def writeBlock (m : Allocator UInt8) (answers : List SendAnswer) (con : Forward) (isFront : Bool)
    (desSocket : NetworkSocket) : Option (Int × Forward) := do
  let done ← writeNosslData answers (con.block isFront)
  let con := con.take isFront done.accepted
  if done.ret = 1 then
    let con ← saveDataToSendData m con isFront desSocket done.buf
    some (0, con.clearBlock m isFront)
  else if done.ret ≠ 0 then some (-1, { con with finished := true })
  else
    let con := con.watch (con.ioEvent.addIoEventRead desSocket.fd (Forward.callback isFront) ())
    some (0, con.clearBlock m isFront)

/-- `write_data`: first the bytes parked for the destination, then the received block. -/
def writeData (m : Allocator UInt8) (answers : List SendAnswer) (con : Forward) (isFront : Bool) :
    Option (Int × Forward) := do
  let desSocket ← con.socket isFront
  let sendData := desSocket.sendData
  let data := con.block isFront
  if sendData.remailLength ≤ 0 ∧ data.remailLength ≤ 0 then
    let con := con.clearBlock m isFront
    some (0, con.setSocket isFront (some { desSocket with sendData := sendData.clear m }))
  else if sendData.remailLength > 0 then
    let done ← writeNosslData answers sendData
    let con := con.take isFront done.accepted
    let desSocket := { desSocket with sendData := done.buf }
    if done.ret = 1 then
      let con ← saveDataToSendData m con isFront desSocket data
      some (0, con.clearBlock m isFront)
    else if done.ret ≠ 0 then some (-1, { con with finished := true })
    else
      let desSocket := { desSocket with sendData := done.buf.clear m }
      let con := con.setSocket isFront (some desSocket)
      -- Everything parked is gone, so the other side may be read from again.
      let con := match con.socket !isFront with
        | some sSocket =>
          con.watch (con.ioEvent.addIoEventRead sSocket.fd (Forward.callback !isFront) ())
        | none => con
      writeBlock m done.answers con isFront desSocket
  else writeBlock m answers con isFront desSocket

/-- What happens to a connection. -/
inductive ForwardLabel
  /-- Reading and the protocol leave a block in a socket's receive buffer. -/
  | receive (front : Bool) (recvData : StringBuf)
  /-- `write_data` is called, with a block or from a write event. -/
  | write (isFront : Bool) (malloc : Allocator UInt8) (answers : List SendAnswer)

/-- One call, undefined where the code leaves its buffers or the connection is gone. -/
def forwardStep (con : Forward) : ForwardLabel → Option Forward
  | .receive front recvData => do
    let ns ← con.socket front
    if con.finished ∨ ¬ recvData.WellFormed then none
    some (con.setSocket front (some { ns with recvData := recvData }))
  | .write isFront m answers => do
    if con.finished then none
    let handed := con.handed isFront ++ (con.block isFront).remaining
    let (_, after) ← writeData m answers con isFront
    some { after with handed := Function.update con.handed isFront handed }

/-- A connection whose sockets have nothing parked and well-formed receive buffers. -/
structure Forward.Fresh (con : Forward) : Prop where
  alive : con.finished = false
  handed : ∀ front, con.handed front = []
  accepted : ∀ front, con.accepted front = []
  sockets : ∀ front ns, con.socket front = some ns → ns.recvData.WellFormed ∧ ns.sendData = .new

/-- All sequences of calls on a connection. -/
def forwardSystem : System Forward ForwardLabel := .ofStep Forward.Fresh forwardStep

end OneProxy
