import OneProxy.Forward.WriteData

/-! A connection of `FakeProtocol`: what its client and its backend send, and what reaches them. -/

namespace OneProxy

open Memory Runs

/-! ## Reading -/

/-- How the kernel answers a `read_nosslData`. -/
inductive RecvAnswer
  /-- `FIONREAD` fails. -/
  | closed
  /-- `recv` says `EAGAIN` or `EINTR`. -/
  | again
  | error
  /-- `recv` takes some bytes, at least one. -/
  | bytes (count : Nat)
  deriving DecidableEq

/-- How a `read_nosslData` ends, with the bytes that it took from the socket. -/
structure RecvResult where
  ret : Int
  ns : NetworkSocket
  taken : Bytes

/-- `read_nosslData`, with the bytes that wait in the socket: 2 where there are none. -/
def readNosslData (m : Allocator UInt8) (answer : RecvAnswer) (waiting : Bytes)
    (ns : NetworkSocket) : Option RecvResult :=
  let dataLen := UInt32.ofNat waiting.length
  if answer = .closed then some ⟨-1, ns, []⟩
  else if dataLen = 0 then some ⟨2, ns, []⟩
  else do
    -- Whether there was memory is not checked.
    let (_, recvData) ← ns.recvData.reallocMem m (ns.recvData.length + dataLen)
    match answer with
    | .again => some ⟨1, { ns with recvData := recvData }, []⟩
    | .bytes count =>
      let taken := waiting.take (min (count + 1) dataLen.toNat)
      let recvData ← recvData.recvInto taken
      some ⟨0, { ns with recvData := recvData }, taken⟩
    | .closed | .error => some ⟨-1, { ns with recvData := recvData }, []⟩

/-! ## The connection -/

/-- A connection, with what has come in on either side and what of it has been read. -/
structure Relay where
  con : Forward
  /-- The protocol has been chosen. -/
  protocolBase : Bool
  /-- The timers of `add_FailConnQueue`. -/
  retries : Nat
  /-- What the client (`true`) and the backend have sent. -/
  arrived : Bool → Bytes
  /-- What has been read of it. -/
  taken : Bool → Bytes

/-- How a connection to a backend turns out, and the new socket. -/
inductive Alloc
  | connected (address : Bytes) (port fd : UInt32)
  | failed (address : Bytes) (port fd : UInt32)

/-- The socket of `protocol_createBackendConnect`, connected or not. -/
def Alloc.socket : Alloc → NetworkSocket
  | .connected address port fd | .failed address port fd =>
    { NetworkSocket.new address port with fd := fd }

/-- What the system calls and the configuration make of one call of a handler. -/
structure Turn where
  malloc : Allocator UInt8
  recv : RecvAnswer
  /-- There is a database group, and an active database in it. -/
  found : Bool
  alloc : Alloc
  /-- The answers to `send`, for each call of `write_data`. -/
  send : Fin 3 → List SendAnswer

namespace Relay

/-- What waits in the socket of one side. -/
def waiting (s : Relay) (front : Bool) : Bytes := (s.arrived front).drop (s.taken front).length

/-- `finished_connection`, as far as the connection is no longer served. -/
def finish (s : Relay) : Relay := { s with con := { s.con with finished := true } }

/-- What a `read_data` does. -/
def read (s : Relay) (front : Bool) (done : RecvResult) : Relay :=
  { s with
    con := s.con.setSocket front (some done.ns)
    taken := Function.update s.taken front (s.taken front ++ done.taken) }

/-- `write_data`, where there is something to write. -/
def writeIf (s : Relay) (some_ : Bool) (m : Allocator UInt8) (answers : List SendAnswer)
    (isFront : Bool) : Option (Int × Relay) :=
  if some_ then
    (writeData m answers s.con isFront).map fun (ret, con) => (ret, { s with con := con })
  else some (0, s)

/-- Whether a buffer of the socket on one side has something in it. -/
def pending (s : Relay) (front : Bool) (buffer : NetworkSocket → StringBuf) : Bool :=
  (s.con.socket front).any fun ns => (buffer ns).remailLength > 0

/-- `send_data`: what one side has sent, what is parked for that side, and for the other one. -/
def sendData (s : Relay) (turn : Turn) (sendToClient : Bool) : Option Relay := do
  let (ret, s) ← s.writeIf (s.pending (!sendToClient) (·.recvData)) turn.malloc (turn.send 0)
    sendToClient
  if ret ≠ 0 then some s
  else do
    let (ret, s) ← s.writeIf (s.pending (!sendToClient) (·.sendData)) turn.malloc (turn.send 1)
      (!sendToClient)
    if ret ≠ 0 then some s
    else do
      let (_, s) ← s.writeIf (s.pending sendToClient (·.sendData)) turn.malloc (turn.send 2)
        sendToClient
      some s

/-- `parse_frontDataPacket`: `FakeProtocol` leaves every packet as it is. -/
def parseFrontDataPacket (s : Relay) (turn : Turn) : Bool × Relay :=
  if s.protocolBase then (true, s) else (turn.found, { s with protocolBase := turn.found })

/-- `get_serverFailed`: another attempt is made later, or none any more. -/
def getServerFailed (s : Relay) (tryConnServerTimes : Nat) : Relay :=
  let clins := s.con.clins.map fun cns => { cns with connServerFailed := cns.connServerFailed + 1 }
  let s := { s with con := s.con.setSocket true clins }
  if clins.any fun cns => tryConnServerTimes ≤ cns.connServerFailed then s.finish
  else { s with protocolBase := false, retries := s.retries + 1 }

/-- `alloc_server`, and whether there is a socket to a backend now. -/
def allocServer (s : Relay) (tryConnServerTimes : Nat) (turn : Turn) : Bool × Relay :=
  match s.con.servns, turn.alloc with
  | some _, _ => (true, s)
  | none, .connected .. =>
    let con := s.con.setSocket false (some turn.alloc.socket)
    (true, { s with
      con := con.watch (con.ioEvent.addIoEventRead turn.alloc.socket.fd .rwBackendData ()) })
  | none, .failed .. =>
    -- The socket that could not be connected stays with the connection.
    let s := { s with con := s.con.setSocket false (some turn.alloc.socket) }
    (false, s.getServerFailed tryConnServerTimes)

/-- `handle_readFrontData`. -/
def handleReadFrontData (s : Relay) (tryConnServerTimes : Nat) (turn : Turn) : Option Relay :=
  match s.con.clins with
  | none => some s
  | some cns => do
    let done ← readNosslData turn.malloc turn.recv (s.waiting true) cns
    let s := s.read true done
    if done.ret < 0 then some s.finish
    else if done.ret = 2 ∧ done.ns.recvData.remailLength ≤ 0 then some s.finish
    else if done.ns.recvData.length = 0 then some s
    else
      let (parsed, s) := s.parseFrontDataPacket turn
      if !parsed then some s.finish
      else if done.ns.recvData.remailLength > 0 then
        let (served, s) := s.allocServer tryConnServerTimes turn
        if served then s.sendData turn false else some s
      else s.sendData turn false

/-- `handle_readBackendData`. -/
def handleReadBackendData (s : Relay) (turn : Turn) : Option Relay :=
  match s.con.servns with
  | none => some s
  | some sns => do
    let done ← readNosslData turn.malloc turn.recv (s.waiting false) sns
    let s := s.read false done
    if done.ret < 0 then some s.finish
    else if done.ret = 2 then some s.finish
    else if done.ns.recvData.length = 0 then some s
    else s.sendData turn true

end Relay

/-! ## Events -/

/-- What happens to a connection. -/
inductive RelayLabel
  /-- Bytes come in on one side. -/
  | arrive (front : Bool) (bytes : Bytes)
  /-- The event loop calls back for a descriptor. -/
  | event (fd : UInt32) (turn : Turn)
  /-- `retry_failedConnection`. -/
  | retry (turn : Turn)
  /-- `check_connectionTimeout`. -/
  | timeout

/-- What the event loop calls for a registration: `rw_frontData` or `rw_backendData`. -/
def Relay.callBack (s : Relay) (tryConnServerTimes : Nat) (turn : Turn) (info : EventInfo Unit) :
    Option Relay :=
  match info.event, info.fp with
  | .read, .rwFrontData => s.handleReadFrontData tryConnServerTimes turn
  | .read, .rwBackendData => s.handleReadBackendData turn
  | .write, .rwFrontData => (s.writeIf true turn.malloc (turn.send 0) true).map (·.2)
  | .write, .rwBackendData => (s.writeIf true turn.malloc (turn.send 0) false).map (·.2)

/--
One step. A socket queues so many bytes at most, and the kernel opens no descriptor that is open.
-/
def relayStep (tryConnServerTimes queue : Nat) (s : Relay) (label : RelayLabel) : Option Relay :=
  if s.con.finished then none
  else
    match label with
    | .arrive front bytes =>
      if (s.con.socket front).isSome ∧ (s.waiting front).length + bytes.length ≤ queue then
        some { s with arrived := Function.update s.arrived front (s.arrived front ++ bytes) }
      else none
    | .event fd turn =>
      if s.con.clins.any (·.fd = turn.alloc.socket.fd) then none
      else (s.con.ioEvent fd).bind fun info => s.callBack tryConnServerTimes turn info
    | .retry turn =>
      if s.con.clins.any (·.fd = turn.alloc.socket.fd) ∨ s.retries = 0 then none
      else { s with retries := s.retries - 1 }.handleReadFrontData tryConnServerTimes turn
    | .timeout => some s.finish

/-- A client that `add_task` has begun to serve. -/
structure Relay.Fresh (s : Relay) : Prop where
  alive : s.con.finished = false
  client : ∃ cns, s.con.clins = some cns ∧ cns.recvData = .new ∧ cns.sendData = .new ∧
    s.con.ioEvent = IoEvent.addIoEventRead (fun _ => none) cns.fd .rwFrontData ()
  noServer : s.con.servns = none
  accepted : ∀ front, s.con.accepted front = []
  retries : s.retries = 0
  nothing : ∀ front, s.arrived front = [] ∧ s.taken front = []

/-- All that can happen to a client that is served. -/
def relaySystem (tryConnServerTimes queue : Nat) : System Relay RelayLabel :=
  .ofStep Relay.Fresh (relayStep tryConnServerTimes queue)

end OneProxy
