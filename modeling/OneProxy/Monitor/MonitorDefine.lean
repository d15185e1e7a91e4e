import OneProxy.Util.Tool

/-! The headers of a captured frame, and the tasks the capture threads hand to one another. -/

namespace OneProxy.Monitor

/-- `TH_FIN`. -/
def thFin : UInt8 := 0x01

/-- `TH_SYN`. -/
def thSyn : UInt8 := 0x02

/-- `TH_RST`. -/
def thRst : UInt8 := 0x04

/-- `TH_ACK`. -/
def thAck : UInt8 := 0x10

/-- `ETHERTYPE_IP`. -/
def ethertypeIp : Nat := 0x0800

/-- `ETHERTYPE_8021Q`. -/
def ethertype8021Q : Nat := 0x8100

/-- `IPPROTO_TCP`. -/
def ipprotoTcp : UInt8 := 6

/-- `IPPROTO_UDP`. -/
def ipprotoUdp : UInt8 := 17

/--
A captured frame: `pkthdr->len`, and the memory from the first byte of its buffer on.

No header is checked to lie inside the frame, so the memory goes on behind its last byte.
-/
structure TaskT where
  len : Nat
  packet : Nat → UInt8

namespace TaskT

/-- `ntohs` of the two bytes at a position. -/
def ntohs (t : TaskT) (pos : Nat) : Nat := (t.packet pos).toNat * 256 + (t.packet (pos + 1)).toNat

/-- The `n` bytes from a position on. -/
def bytes (t : TaskT) (pos n : Nat) : Bytes := (List.range n).map fun i => t.packet (pos + i)

/-- `eptr->ether_type`, behind the two addresses. -/
def etherType (t : TaskT) : Nat := t.ntohs 12

/-- Where the IP header is: behind the Ethernet header, and the VLAN header where there is one. -/
def iptr (t : TaskT) : Nat := if t.etherType = ethertype8021Q then 14 + 4 else 14

/-- The type of what the frame carries, which a VLAN header gives anew. -/
def payloadType (t : TaskT) : Nat :=
  if t.etherType = ethertype8021Q then t.ntohs (14 + 2) else t.etherType

/-- `IP_HL(iptr) * 4`. -/
def ipHeaderLen (t : TaskT) : Nat := (t.packet t.iptr &&& 0x0f).toNat * 4

/-- `iptr->ip_len`. -/
def ipLen (t : TaskT) : Nat := t.ntohs (t.iptr + 2)

/-- `iptr->ip_p`. -/
def ipP (t : TaskT) : UInt8 := t.packet (t.iptr + 9)

/-- `inet_ntoa` of the four bytes at a position. -/
def inetNtoa (t : TaskT) (pos : Nat) : Bytes :=
  Tool.digits (t.packet pos).toNat ++ [46] ++ Tool.digits (t.packet (pos + 1)).toNat ++ [46] ++
    Tool.digits (t.packet (pos + 2)).toNat ++ [46] ++ Tool.digits (t.packet (pos + 3)).toNat

/-- `srcIp`. -/
def srcIp (t : TaskT) : Bytes := t.inetNtoa (t.iptr + 12)

/-- `desIp`. -/
def desIp (t : TaskT) : Bytes := t.inetNtoa (t.iptr + 16)

/-- Where the transport header is. -/
def tcpHeader (t : TaskT) : Nat := t.iptr + t.ipHeaderLen

/-- `srcPort`. -/
def srcPort (t : TaskT) : Nat := t.ntohs t.tcpHeader

/-- `desPort`. -/
def desPort (t : TaskT) : Nat := t.ntohs (t.tcpHeader + 2)

/-- `TH_OFF(tcpHeader) * 4`. -/
def thOff (t : TaskT) : Nat := ((t.packet (t.tcpHeader + 12) &&& 0xf0) >>> 4).toNat * 4

/-- `tcpHeader->th_flags`, read at the same place whatever the protocol is. -/
def thFlags (t : TaskT) : UInt8 := t.packet (t.tcpHeader + 13)

/-- `thl`: the length of the transport header. -/
def thl (t : TaskT) : Nat :=
  if t.ipP = ipprotoTcp then t.thOff else if t.ipP = ipprotoUdp then 8 else 0

/-- Where `data` is. -/
def dataPos (t : TaskT) : Nat := t.tcpHeader + t.thl

end TaskT

/-- The endpoints of a packet in its own direction, and the text made of them. -/
structure TaskDataKeyT where
  srcIp : Bytes
  srcPort : Nat
  desIp : Bytes
  desPort : Nat
  cmpKey : Bytes

/-- `gen_cmpKey`. -/
def TaskDataKeyT.genCmpKey (key : TaskDataKeyT) : TaskDataKeyT :=
  { key with
    cmpKey := key.srcIp ++ Tool.digits key.srcPort ++ key.desIp ++ Tool.digits key.desPort }

/-- The local end of a packet: its port, and the name of the process behind it. -/
structure ProgressInfo where
  port : Nat
  name : Bytes

/-- A packet as it is handed to the thread that parses it. -/
structure TaskDataT where
  key : TaskDataKeyT
  pi : ProgressInfo
  data : Bytes
  tcpFlags : UInt8
  protocol : UInt8

namespace TaskDataT

/-- Whether a flag bit is set. -/
def has (taskData : TaskDataT) (flag : UInt8) : Prop := taskData.tcpFlags &&& flag ≠ 0

instance (taskData : TaskDataT) (flag : UInt8) : Decidable (taskData.has flag) :=
  inferInstanceAs (Decidable (taskData.tcpFlags &&& flag ≠ 0))

/-- The two ends of the connection a packet belongs to, in the packet's own direction. -/
def ends (taskData : TaskDataT) : (Bytes × Nat) × (Bytes × Nat) :=
  ((taskData.key.srcIp, taskData.key.srcPort), (taskData.key.desIp, taskData.key.desPort))

/-- Two packets of one connection run between the same two ends, whatever their direction. -/
def SameConnection (p q : TaskDataT) : Prop :=
  p.protocol = q.protocol ∧ (p.ends = q.ends ∨ p.ends = q.ends.swap)

instance (p q : TaskDataT) : Decidable (p.SameConnection q) :=
  inferInstanceAs (Decidable (p.protocol = q.protocol ∧ (p.ends = q.ends ∨ p.ends = q.ends.swap)))

end TaskDataT

end OneProxy.Monitor
