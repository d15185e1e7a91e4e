import OneProxy.Util.KVStringMap
import OneProxy.Util.Tool

/-! The sockets of clients and of backends. -/

namespace OneProxy

/-- `SocketStatusT`. -/
inductive SocketStatus
  | cleanup
  | working
  deriving DecidableEq

/-- The key of a `DataBase` of the configuration. -/
abbrev DataBaseId := Nat

/-- A `NetworkSocket` object: the members used here, in the order they are declared. -/
structure NetworkSocket where
  fd : UInt32
  port : UInt32
  address : Bytes
  recvData : StringBuf
  sendData : StringBuf
  /-- `m_socketRecord`: how often no backend could be had for this client. -/
  connServerFailed : Nat
  dataBase : Option DataBaseId
  connArgsMap : KVStringMap
  status : SocketStatus

namespace NetworkSocket

/-- A socket as its constructors leave it. -/
def new (address : Bytes) (port : UInt32) : NetworkSocket where
  fd := 0
  port := port
  address := address
  recvData := .new
  sendData := .new
  connServerFailed := 0
  dataBase := none
  connArgsMap := .empty
  status := .working

/-- The arguments of a login as one string, `key:value;` for each in the order of the keys. -/
def renderArgs (args : KVStringMap) : Bytes :=
  args.entries.flatMap fun (key, value) => Tool.cStr key ++ [58] ++ Tool.cStr value ++ [59]

/-- `connArgsMap2String`. -/
def connArgsMap2String (ns : NetworkSocket) : Bytes := renderArgs ns.connArgsMap

/-- `add_connArgs`. -/
def addConnArgs (ns : NetworkSocket) (key value : Bytes) : NetworkSocket :=
  { ns with connArgsMap := ns.connArgsMap.set key value }

end NetworkSocket

end OneProxy
