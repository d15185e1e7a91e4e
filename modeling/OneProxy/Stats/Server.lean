import OneProxy.Lib.Runs
import OneProxy.Stats.Serving

/-! The server as the statistics see it: connections come in, are served, and end. -/

namespace OneProxy.Record

/-- A client's socket between its accept and the worker that takes it. -/
structure ClientSocket where
  address : Bytes
  port : UInt32
  addressHashCode : UInt32
  connTime : UInt64
  connHashCode : UInt32

/-- The statistics, the connections, and the events for the database with their connections. -/
structure Server where
  record : Record
  /-- The number of connections so far. -/
  made : Nat
  accepted : Nat → Option ClientSocket
  conns : Nat → Option Conn
  dbData : List (Nat × DBDataT)

/-- A connection of a client, before anything is recorded on it. -/
def Conn.new (address : Bytes) (addressHashCode connectionHashcode : UInt32)
    (clientInfo : Option UInt32) : Conn where
  toConnection := Connection.new
  clientInfo := clientInfo
  address := address
  addressHashCode := addressHashCode
  connectionHashcode := connectionHashcode
  currExecSqlHash := 0

/-- What happens to the server. -/
inductive Step
  /-- `accept_clientRequest` of a client. -/
  | accept (env : Env) (address : Bytes) (port : UInt32) (listenAddr : Bytes) (listenPort : UInt32)
  /-- `add_task`: a worker takes an accepted socket. -/
  | addTask (id : Nat)
  /-- `new_connection` of the monitor, at a time of the system's clock. -/
  | newConnection (env : Env) (time : UInt64) (address : Bytes) (port : UInt32) (saddress : Bytes)
      (sport : UInt32)
  /-- A protocol reports something about a connection. -/
  | call (id : Nat) (env : Env) (call : Call)
  /-- No backend could be had for a connection. -/
  | allocServerFail (id : Nat)
  /-- A connection ends, which has been on line for a time if it had a backend. -/
  | finish (id : Nat) (onLineTime : Option UInt64)
  /-- `record_clear`. -/
  | clear

namespace Server

/-- A server that has seen no client. -/
def new : Server := ⟨.new, 0, fun _ => none, fun _ => none, []⟩

/-- Keeps what a function of `Record` leaves, and its event, for a connection. -/
def recorded (s : Server) (id : Nat) (result : Record × Option DBDataT) : Server :=
  { s with record := result.1, dbData := s.dbData ++ (result.2.toList.map fun data => (id, data)) }

/-- `accept_clientRequest`. -/
def acceptClientRequest (s : Server) (env : Env) (address : Bytes) (port : UInt32)
    (listenAddr : Bytes) (listenPort : UInt32) : Server :=
  let clientHashCode := Tool.quickHashCode address
  let connTime := env.millisecondTime
  let connHashCode := Tool.quickConnHashCode address port listenAddr listenPort connTime
  let socket : ClientSocket := ⟨address, port, clientHashCode, connTime, connHashCode⟩
  let s := { s with
    made := s.made + 1, accepted := Function.update s.accepted s.made (some socket) }
  s.recorded (s.made - 1) (s.record.recordClientQueryAddNewClient env connHashCode clientHashCode
    address port listenAddr listenPort)

/-- `add_task`: the connection takes over the hashes of its socket. -/
def addTask (s : Server) (id : Nat) : Option Server :=
  (s.accepted id).map fun ns =>
    { s with
      accepted := Function.update s.accepted id none
      conns := Function.update s.conns id (some (.new ns.address ns.addressHashCode ns.connHashCode
        (s.record.recordGetClientQueryInfo ns.addressHashCode))) }

/-- `new_connection`: the row gets the time of the connection in the place of its hash. -/
def newConnection (s : Server) (env : Env) (time : UInt64) (address : Bytes) (port : UInt32)
    (saddress : Bytes) (sport : UInt32) : Server :=
  let clientHashCode := Tool.quickHashCode address
  let conn := Conn.new address clientHashCode
    (Tool.quickConnHashCode address port saddress sport time) none
  let s := { s with made := s.made + 1, conns := Function.update s.conns s.made (some conn) }
  s.recorded (s.made - 1) (s.record.recordClientQueryAddNewClient env time.toUInt32 clientHashCode
    address port saddress sport)

/-- A protocol's call on a connection. -/
def serve (s : Server) (id : Nat) (env : Env) (call : Call) : Option Server := do
  let conn ← s.conns id
  let serving ← call.run env ⟨s.record, conn, []⟩
  some { s with
    record := serving.record
    conns := Function.update s.conns id (some serving.conn)
    dbData := s.dbData ++ serving.dbData.map fun data => (id, data) }

/-- No backend could be had. -/
def allocServerFail (s : Server) (id : Nat) : Option Server :=
  (s.conns id).map fun conn =>
    { s with
      record := s.record.recordClientQueryAllocServerFail conn.addressHashCode conn.clientInfo }

/-- What `finished_connection` records of the client, and the end of the connection. -/
def finish (s : Server) (id : Nat) (onLineTime : Option UInt64) : Option Server :=
  (s.conns id).map fun conn =>
    let record := match onLineTime with
      | some time => s.record.recordClientQueryOnLineTime conn.addressHashCode time conn.clientInfo
      | none => s.record
    { s with
      record := record.recordClientQueryOffLine conn.addressHashCode conn.clientInfo
      conns := Function.update s.conns id none }

/-- What a step leaves. -/
def next (s : Server) : Step → Option Server
  | .accept env address port listenAddr listenPort =>
    some (s.acceptClientRequest env address port listenAddr listenPort)
  | .addTask id => s.addTask id
  | .newConnection env time address port saddress sport =>
    some (s.newConnection env time address port saddress sport)
  | .call id env call => s.serve id env call
  | .allocServerFail id => s.allocServerFail id
  | .finish id onLineTime => s.finish id onLineTime
  | .clear => some { s with record := s.record.recordClear }

/-- The server from its start on. -/
def system : Runs.System Server Step := .ofStep (· = .new) next

end Server

end OneProxy.Record
