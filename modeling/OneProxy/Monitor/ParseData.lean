import OneProxy.Monitor.SuperMonitor

/-! The thread that keeps a `Connection` for each captured session and feeds its protocol. -/

namespace OneProxy.Monitor

/-- The side of a connection a packet is data for: of the client, or of the server. -/
inductive Side
  | client
  | server
  deriving DecidableEq

/-- What `ParseData` keeps for a session: two receive buffers, and the protocol object if any. -/
structure Connection (σ : Type) where
  /-- `sock.curclins->get_recvData()`. -/
  curclins : Bytes
  /-- `sock.curservs->get_recvData()`. -/
  curservs : Bytes
  protocolBase : Option σ

namespace Connection

variable {σ : Type}

/-- The receive buffer of a side. -/
def recvData (conn : Connection σ) : Side → Bytes
  | .client => conn.curclins
  | .server => conn.curservs

/-- Replaces the receive buffer of a side. -/
def setRecvData (conn : Connection σ) (side : Side) (bytes : Bytes) : Connection σ :=
  match side with
  | .client => { conn with curclins := bytes }
  | .server => { conn with curservs := bytes }

end Connection

/--
The protocol classes, and the tables that choose one.

A protocol object is of a type `σ`; its handlers see it together with the two receive buffers.
-/
structure ParseConfig (σ : Type) where
  /-- The class names of `portHandleMap`. -/
  portHandleMap : Int → Option Bytes
  /-- The class names of `nameHandleMap`. -/
  nameHandleMap : Bytes → Option Bytes
  /-- `get_monitorAutoGetDesIp`. -/
  monitorAutoGetDesIp : Bool
  /-- `get_processName` of a port, for TCP or not. -/
  getProcessName : Nat → Bool → Bytes
  /-- `ProtocolFactory::getClassByName`: a new object of the class, if it is registered. -/
  getClassByName : Bytes → Option σ
  /-- `protocol_init`, which leaves the buffers alone as its default does. -/
  protocolInit : σ → σ
  /-- `protocol_front` and `protocol_backend`. -/
  protocolFront : σ → Bytes → Bytes → σ × Bytes × Bytes
  protocolBackend : σ → Bytes → Bytes → σ × Bytes × Bytes

/-- A class name that is not empty. -/
def nonEmpty (className : Option Bytes) : Option Bytes := className.filter (· ≠ [])

/-- `get_protocolBase`: by the port, then by the process name, then the default class. -/
def getProtocolBase {σ : Type} (cfg : ParseConfig σ) (pi : ProgressInfo) : Option σ :=
  let byPort := if pi.port > 0 then nonEmpty (cfg.portHandleMap pi.port) else none
  let byName := if pi.name ≠ [] then nonEmpty (cfg.nameHandleMap pi.name) else none
  match byPort.or (byName.or (nonEmpty (cfg.portHandleMap (-1)))) with
  | none => none
  | some className => cfg.getClassByName className

/-- The connection table, and the `Connection` objects by the order of their allocation. -/
structure ParseData (σ : Type) where
  taskDataConnMap : Bytes → Option Nat
  /-- An object that is not allocated, or freed, is absent. -/
  conns : Nat → Option (Connection σ)
  made : Nat

/--
What became of the bytes of a packet: the object and buffer they were appended to, and, if the
protocol was called, the buffer it was called with.
-/
structure Handled where
  conn : Nat
  side : Side
  passed : Option Bytes
  deriving DecidableEq

namespace ParseData

variable {σ : Type}

/-- A `ParseData` as its constructor leaves it. -/
def new : ParseData σ := ⟨fun _ => none, fun _ => none, 0⟩

/-- Assigns or erases an entry of `taskDataConnMap`. -/
def setEntry (pd : ParseData σ) (key : Bytes) (conn : Option Nat) : ParseData σ :=
  { pd with taskDataConnMap := fun other => if other = key then conn else pd.taskDataConnMap other }

/-- Writes an object, or frees it. -/
def setConn (pd : ParseData σ) (id : Nat) (conn : Option (Connection σ)) : ParseData σ :=
  { pd with conns := fun other => if other = id then conn else pd.conns other }

/-- `new_connection`: an object with two empty buffers and no protocol. -/
def newConnection (pd : ParseData σ) : Nat × ParseData σ :=
  (pd.made, { pd.setConn pd.made (some ⟨[], [], none⟩) with made := pd.made + 1 })

/-- The object to use for a packet: the one that was found, or else a new one. -/
def getConnection (pd : ParseData σ) (it : Option Nat) : Nat × ParseData σ :=
  match it with
  | none => pd.newConnection
  | some id => (id, pd)

/-- `free_connection`; freeing an object twice has no defined outcome. -/
def freeConnection (pd : ParseData σ) (id : Nat) : Option (ParseData σ) :=
  (pd.conns id).map fun _ => pd.setConn id none

end ParseData

/-- The connection with its protocol object, which is made and initialized if there is none yet. -/
def withProtocol {σ : Type} (cfg : ParseConfig σ) (conn : Connection σ) (pi : ProgressInfo) :
    Option (Connection σ × σ) :=
  match conn.protocolBase with
  | some base => some (conn, base)
  | none =>
    (getProtocolBase cfg pi).map fun base =>
      let base := cfg.protocolInit base
      ({ conn with protocolBase := some base }, base)

/-- The call of the protocol with the data of a side. -/
def callProtocol {σ : Type} (cfg : ParseConfig σ) (conn : Connection σ) (base : σ) (side : Side) :
    Connection σ :=
  let call := match side with
    | .client => cfg.protocolFront
    | .server => cfg.protocolBackend
  let (base, curclins, curservs) := call base conn.curclins conn.curservs
  ⟨curclins, curservs, some base⟩

/-- Whether the data is for the client's buffer: it goes to the local port. -/
def TaskDataT.side (taskData : TaskDataT) : Side :=
  if taskData.key.desPort = taskData.pi.port then .client else .server

/--
The last part of `handle_protocolData`, once the object has its data and its protocol.

A packet whose flags are exactly `TH_ACK | TH_FIN` has its data cleared away.
-/
def handleData {σ : Type} (cfg : ParseConfig σ) (pd : ParseData σ) (tdt : TaskDataT) (id : Nat)
    (conn : Connection σ) (base : σ) : Option (ParseData σ × Option Handled) :=
  -- save connection when in tcp.
  let pd := if tdt.protocol ≠ ipprotoUdp then pd.setEntry tdt.key.cmpKey (some id) else pd
  let sb := conn.recvData tdt.side
  let calls : Bool := tdt.tcpFlags ≠ (thAck ||| thFin) ∧ sb.length > 0
  let conn := if calls then callProtocol cfg conn base tdt.side else conn.setRecvData tdt.side []
  let pd := pd.setConn id (some conn)
  let handled : Handled := ⟨id, tdt.side, if calls then some sb else none⟩
  -- close connection
  let pd := if tdt.has thFin then pd.setEntry tdt.key.cmpKey none else pd
  if tdt.protocol = ipprotoUdp ∨ tdt.has thFin then
    (pd.freeConnection id).map fun pd => (pd, some handled)
  else some (pd, some handled)

/-- The middle part: the data is appended, and an object without a protocol gets one or is freed. -/
def saveData {σ : Type} (cfg : ParseConfig σ) (pd : ParseData σ) (tdt : TaskDataT) (id : Nat) :
    Option (ParseData σ × Option Handled) :=
  (pd.conns id).bind fun conn =>
    let conn := conn.setRecvData tdt.side (conn.recvData tdt.side ++ tdt.data)
    match withProtocol cfg conn tdt.pi with
    | none => (pd.freeConnection id).map fun pd => (pd, none)
    | some (conn, base) => handleData cfg pd tdt id conn base

/--
`handle_protocolData`.

`none` is the use of an object after it was freed.
-/
def handleProtocolData {σ : Type} (cfg : ParseConfig σ) (pd : ParseData σ) (tdt : TaskDataT) :
    Option (ParseData σ × Option Handled) :=
  -- no port, no handler.
  if tdt.pi.port = 0 then some (pd, none)
  else
    let it := pd.taskDataConnMap tdt.key.cmpKey
    if tdt.has thFin ∧ tdt.data.length = 0 then
      -- conn closed.
      match it with
      | none => some (pd, none)
      | some id => ((pd.setEntry tdt.key.cmpKey none).freeConnection id).map fun pd => (pd, none)
    else if tdt.has thSyn ∧ tdt.data.length = 0 then some (pd, none)
    else
      let (id, pd) := pd.getConnection it
      saveData cfg pd tdt id

/-- The task as `handle_taskData` completes it: with its key, and with the process name. -/
def completeTask {σ : Type} (cfg : ParseConfig σ) (taskData : TaskDataT) : TaskDataT :=
  let name :=
    if taskData.pi.port > 0 ∧ cfg.monitorAutoGetDesIp then
      cfg.getProcessName taskData.pi.port (taskData.protocol = ipprotoTcp)
    else taskData.pi.name
  { taskData with key := taskData.key.genCmpKey, pi := { taskData.pi with name := name } }

/-- `handle_taskData`. -/
def handleTaskData {σ : Type} (cfg : ParseConfig σ) (pd : ParseData σ) (taskData : TaskDataT) :
    Option (ParseData σ × Option Handled) :=
  let taskData := completeTask cfg taskData
  if taskData.data.length > 0 ∨ taskData.protocol = ipprotoTcp then
    handleProtocolData cfg pd taskData
  else some (pd, none)

end OneProxy.Monitor
