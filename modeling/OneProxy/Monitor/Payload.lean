import OneProxy.Monitor.ParseDataLaws

/-! When the payload of a captured packet reaches its protocol. -/

namespace OneProxy.Monitor

open Runs

variable {σ : Type}

namespace TaskT

/-- A whole IPv4 packet that is a TCP segment or a UDP datagram with a payload. -/
structure IsSegment (t : TaskT) : Prop where
  ip : t.payloadType = ethertypeIp
  version : t.packet t.iptr >>> 4 = 4
  header : 20 ≤ t.ipHeaderLen
  protocol : t.ipP = ipprotoTcp ∨ t.ipP = ipprotoUdp
  offset : t.ipP = ipprotoTcp → 20 ≤ t.thOff
  nonempty : t.ipHeaderLen + t.thl < t.ipLen
  captured : t.iptr + t.ipLen ≤ t.len

/-- The payload, which ends where the IP header says that the packet ends. -/
def payload (t : TaskT) : Bytes := t.bytes t.dataPos (t.ipLen - t.ipHeaderLen - t.thl)

@[simp] theorem length_bytes (t : TaskT) (pos n : Nat) : (t.bytes pos n).length = n := by
  simp [bytes]

/-- The payload of a segment is not empty. -/
theorem IsSegment.payload_ne_nil {t : TaskT} (segment : t.IsSegment) : t.payload ≠ [] := by
  have := segment.nonempty
  apply List.ne_nil_of_length_pos
  simp only [payload, length_bytes]
  omega

end TaskT

/-- The port `handle_task` takes for the local one, when one of the two addresses is local. -/
def CaptureConfig.localPort (cfg : CaptureConfig) (t : TaskT) : Nat :=
  if cfg.isLocalIp t.srcIp then t.srcPort else t.desPort

/-- The other port, by which the packet is given to a thread. -/
def CaptureConfig.remotePort (cfg : CaptureConfig) (t : TaskT) : Nat :=
  if cfg.isLocalIp t.srcIp then t.desPort else t.srcPort

/-- Whether a port is that of a local end of a packet. -/
def CaptureConfig.LocalEnd (cfg : CaptureConfig) (t : TaskT) (port : Nat) : Prop :=
  (cfg.isLocalIp t.srcIp ∧ port = t.srcPort) ∨ (cfg.isLocalIp t.desIp ∧ port = t.desPort)

/--
Whether `handle_protocolData` has a protocol for a packet: that of its connection, or a class.
-/
def ParseConfig.Known (cfg : ParseConfig σ) (pd : ParseData σ) (tdt : TaskDataT) : Prop :=
  (pd.taskDataConnMap tdt.key.cmpKey).isSome ∨ (getProtocolBase cfg tdt.pi).isSome

/-- What becomes of a segment: without any check it would be the last case. -/
theorem handleTask_segment {cfg : CaptureConfig} {t : TaskT} {port : Nat} (segment : t.IsSegment)
    (notBroadcast : t.desIp ≠ broadAddr) (local' : cfg.LocalEnd t port) :
    handleTask cfg t =
      if t.thFlags = thAck ∨ cfg.parseDataSize = 0 then .freed
      else .queued (cfg.remotePort t % cfg.parseDataSize)
        (t.taskData (cfg.localPort t) (t.len - t.dataPos)) := by
  -- The headers of a segment lie inside the frame, and a local address keeps the list from being
  -- empty.
  have inside : ¬ t.len < t.dataPos := by
    have := segment.nonempty
    have := segment.captured
    simp only [TaskT.dataPos, TaskT.tcpHeader]
    omega
  have someIp : cfg.isEmptyLocalIp = false := by
    rcases local' with ⟨found, _⟩ | ⟨found, _⟩ <;>
    · simp only [CaptureConfig.isLocalIp, List.contains_iff_mem] at found
      simp [CaptureConfig.isEmptyLocalIp, List.ne_nil_of_mem found]
  simp only [handleTask, segment.ip, ne_eq, not_true_eq_false, if_false, if_neg notBroadcast,
    if_neg inside, someIp, Bool.false_eq_true]
  by_cases ack : t.thFlags = thAck
  · simp [ack]
  · by_cases none' : cfg.parseDataSize = 0
    · simp [none', ack]
    · have some' : cfg.parseDataSize > 0 := Nat.pos_of_ne_zero none'
      simp only [ack, none', if_false, or_self, addTaskData, CaptureConfig.getParseData,
        some', if_true,
        CaptureConfig.localPort, CaptureConfig.remotePort]
      by_cases source : cfg.isLocalIp t.srcIp = true
      · simp [source]
      · have destination : cfg.isLocalIp t.desIp = true := by
          rcases local' with ⟨found, _⟩ | ⟨found, _⟩
          · exact absurd found source
          · exact found
        simp [source, destination]

/-- The bytes that are queued are the payload exactly when the frame ends with the packet. -/
theorem taskData_data_iff {t : TaskT} (segment : t.IsSegment) (port : Nat) :
    (t.taskData port (t.len - t.dataPos)).data = t.payload ↔ t.len = t.iptr + t.ipLen := by
  have := segment.nonempty
  have := segment.captured
  constructor
  · intro same
    have lengths := congrArg List.length same
    simp only [TaskT.taskData, TaskT.payload, TaskT.length_bytes, TaskT.dataPos,
      TaskT.tcpHeader] at lengths
    omega
  · intro whole
    have lengths : t.len - t.dataPos = t.ipLen - t.ipHeaderLen - t.thl := by
      simp only [TaskT.dataPos, TaskT.tcpHeader]
      omega
    simp only [TaskT.taskData, TaskT.payload, lengths]

/-- Whether handling a task calls the protocol with a buffer that ends in the task's data. -/
def Delivered (cfg : ParseConfig σ) (pd : ParseData σ) (taskData : TaskDataT) : Prop :=
  ∃ pd' handled sb, handleTaskData cfg pd taskData = some (pd', some handled) ∧
    handled.passed = some sb ∧ taskData.data <:+ sb

/-- Data reaches its protocol unless the flags clear it away, or no protocol is there for it. -/
theorem reaches_protocol_iff {cfg : ParseConfig σ} {pd : ParseData σ} (inv : pd.Inv)
    {taskData : TaskDataT} (nonempty : taskData.data ≠ []) :
    Delivered cfg pd taskData ↔
      taskData.tcpFlags ≠ (thAck ||| thFin) ∧ taskData.pi.port ≠ 0 ∧
        pd.Live (completeTask cfg taskData).key.cmpKey ∧
        cfg.Known pd (completeTask cfg taskData) := by
  have hasData : taskData.data.length > 0 := List.length_pos_iff.mpr nonempty
  have direct : handleTaskData cfg pd taskData =
      handleProtocolData cfg pd (completeTask cfg taskData) := by
    simp [handleTaskData, completeTask, nonempty]
  have sameData : (completeTask cfg taskData).data = taskData.data := rfl
  have uses : taskData.pi.port ≠ 0 → (completeTask cfg taskData).Uses := by
    intro port
    refine ⟨port, ?_, ?_⟩
    · rw [sameData]
      omega
    · rw [sameData]
      omega
  constructor
  · intro delivered
    obtain ⟨pd', handled, sb, done, passed, ends⟩ := delivered
    rw [direct] at done
    by_cases port : taskData.pi.port = 0
    · have none' : handleProtocolData cfg pd (completeTask cfg taskData) = some (pd, none) := by
        simp [handleProtocolData, completeTask, port]
      simp [none'] at done
    · by_cases live : pd.Live (completeTask cfg taskData).key.cmpKey
      · by_cases known : cfg.Known pd (completeTask cfg taskData)
        · obtain ⟨next, buffer, served, _, _⟩ :=
            handleProtocolData_served inv (uses port) live known
          simp only [served, Option.some.injEq, Prod.mk.injEq] at done
          -- Under the two flags together nothing would have been passed on.
          have flags : taskData.tcpFlags ≠ (thAck ||| thFin) := by
            intro both
            rw [← done.2] at passed
            simp [handledAs, completeTask, both] at passed
          exact ⟨flags, port, live, known⟩
        · simp only [ParseConfig.Known, not_or, Option.not_isSome_iff_eq_none] at known
          rw [handleProtocolData_unknown (uses port) known.1 known.2] at done
          simp at done
      · simp [handleProtocolData_dangling (uses port) live] at done
  · intro conditions
    obtain ⟨flags, port, live, known⟩ := conditions
    obtain ⟨next, buffer, served, ends, _⟩ := handleProtocolData_served inv (uses port) live known
    rw [sameData] at ends
    have filled : buffer ≠ [] := by
      intro empty
      exact nonempty (List.suffix_nil.mp (empty ▸ ends))
    refine ⟨next, _, buffer, direct.trans served, ?_, ends⟩
    simp [handledAs, completeTask, flags, filled]

/--
What is asked for a payload: it is queued, and reaches the protocol of its server's port.

The server's port is that of a local end of the packet.
-/
def PayloadHandled (cfg : CaptureConfig) (parse : ParseConfig σ) (pd : ParseData σ) (t : TaskT)
    (serverPort : Nat) : Prop :=
  ∃ n taskData, handleTask cfg t = .queued n taskData ∧ taskData.data = t.payload ∧
    (parse.Registered serverPort → Delivered parse pd taskData)

/--
When a payload is not lost: under four conditions on the frame, and on the connection it belongs to.

The flags are read from the same byte in a datagram, where they are part of the payload.
-/
theorem payloadHandled_iff (cfg : CaptureConfig) (parse : ParseConfig σ) (pd : ParseData σ)
    (t : TaskT) (serverPort : Nat) (reached : Reachable (parseRuns parse) pd)
    (segment : t.IsSegment) (notBroadcast : t.desIp ≠ broadAddr)
    (server : cfg.LocalEnd t serverPort) :
    PayloadHandled cfg parse pd t serverPort ↔
      0 < cfg.parseDataSize ∧ t.thFlags ≠ thAck ∧ t.len = t.iptr + t.ipLen ∧
        (parse.Registered serverPort →
          t.thFlags ≠ (thAck ||| thFin) ∧ cfg.localPort t ≠ 0 ∧
            pd.Live (completeTask parse
              (t.taskData (cfg.localPort t) (t.len - t.dataPos))).key.cmpKey ∧
            parse.Known pd (completeTask parse
              (t.taskData (cfg.localPort t) (t.len - t.dataPos)))) := by
  have inv := inv_of_reachable reached
  have queued := handleTask_segment segment notBroadcast server
  constructor
  · intro ⟨n, taskData, done, same, delivered⟩
    -- The frame is handed on as it is, which fixes the data and leads to the protocol.
    rw [queued] at done
    split at done
    · simp at done
    · rename_i kept
      simp only [not_or] at kept
      simp only [TaskEnd.queued.injEq] at done
      obtain ⟨_, rfl⟩ := done
      refine ⟨Nat.pos_of_ne_zero kept.2, kept.1, (taskData_data_iff segment _).mp same, ?_⟩
      intro registered
      have nonempty : (t.taskData (cfg.localPort t) (t.len - t.dataPos)).data ≠ [] := by
        rw [same]
        exact segment.payload_ne_nil
      exact (reaches_protocol_iff inv nonempty).mp (delivered registered)
  · intro ⟨threads, ack, whole, rest⟩
    have kept : ¬ (t.thFlags = thAck ∨ cfg.parseDataSize = 0) := by
      simp only [not_or]
      exact ⟨ack, Nat.pos_iff_ne_zero.mp threads⟩
    have same := (taskData_data_iff segment (cfg.localPort t)).mpr whole
    rw [if_neg kept] at queued
    refine ⟨_, _, queued, same, ?_⟩
    intro registered
    have nonempty : (t.taskData (cfg.localPort t) (t.len - t.dataPos)).data ≠ [] := by
      rw [same]
      exact segment.payload_ne_nil
    exact (reaches_protocol_iff inv nonempty).mpr (rest registered)

/-- A frame of which nothing is read behind its last byte. -/
def TaskT.ofBytes (bytes : Bytes) : TaskT := ⟨bytes.length, fun pos => bytes.getD pos 0⟩

/-- One byte of data from 10.0.0.2 port 1000 to 10.0.0.1 port 3306, over TCP with some flags. -/
def oneByte (flags : UInt8) : TaskT :=
  .ofBytes ([0, 0, 0, 0, 0, 0, 0, 0, 0, 0, 0, 0, 8, 0] ++
    [0x45, 0, 0, 41, 0, 0, 0, 0, 64, 6, 0, 0, 10, 0, 0, 2, 10, 0, 0, 1] ++
    [3, 232, 12, 234, 0, 0, 0, 1, 0, 0, 0, 1, 0x50, flags, 0, 0, 0, 0, 0, 0] ++ [81])

/-- A host with the address 10.0.0.1 and one `ParseData`. -/
def oneHost : CaptureConfig := ⟨[[49, 48, 46, 48, 46, 48, 46, 49]], 1⟩

/-- A configuration with one protocol, for port 3306, that leaves its data where it is. -/
def oneProtocol : ParseConfig Unit where
  portHandleMap port := if port = 3306 then some [70] else none
  nameHandleMap _ := none
  monitorAutoGetDesIp := false
  getProcessName _ _ := []
  getClassByName className := if className = [70] then some () else none
  protocolInit base := base
  protocolFront base curclins curservs := (base, curclins, curservs)
  protocolBackend base curclins curservs := (base, curclins, curservs)

/-- The frame is a segment whatever its flags are. -/
theorem isSegment_oneByte (flags : UInt8) : (oneByte flags).IsSegment := by
  -- The header fields are computed one by one from the bytes.
  have noVlan : (oneByte flags).iptr = 14 := by
    simp [TaskT.iptr, TaskT.etherType, TaskT.ntohs, oneByte, TaskT.ofBytes, ethertype8021Q]
  have firstByte : (oneByte flags).packet 14 = 0x45 := by
    simp [oneByte, TaskT.ofBytes]
  have tcp : (oneByte flags).ipP = ipprotoTcp := by
    simp only [TaskT.ipP, noVlan]
    simp [oneByte, TaskT.ofBytes, ipprotoTcp]
  have headerLen : (oneByte flags).ipHeaderLen = 20 := by
    simp [TaskT.ipHeaderLen, noVlan, firstByte]
  have offset : (oneByte flags).thOff = 20 := by
    simp only [TaskT.thOff, TaskT.tcpHeader, headerLen, noVlan]
    simp [oneByte, TaskT.ofBytes]
  have total : (oneByte flags).ipLen = 41 := by
    simp only [TaskT.ipLen, noVlan, TaskT.ntohs]
    simp [oneByte, TaskT.ofBytes]
  constructor
  · simp [TaskT.payloadType, TaskT.etherType, TaskT.ntohs, oneByte, TaskT.ofBytes, ethertype8021Q,
      ethertypeIp]
  · rw [noVlan, firstByte]
    decide
  · omega
  · exact Or.inl tcp
  · omega
  · simp [TaskT.thl, tcp, offset, total, headerLen]
  · rw [noVlan, total]
    simp [oneByte, TaskT.ofBytes]

/-- With PSH and ACK the byte is handled. -/
theorem payloadHandled_pushed : PayloadHandled oneHost oneProtocol .new (oneByte 0x18) 3306 := by
  apply (payloadHandled_iff oneHost oneProtocol .new (oneByte 0x18) 3306 (Reachable.start rfl)
    (isSegment_oneByte 0x18) (by decide) (Or.inr ⟨by decide, rfl⟩)).mpr
  refine ⟨by decide, by decide, by decide, ?_⟩
  intro _
  refine ⟨by decide, by decide, ?_, Or.inr rfl⟩
  intro id found
  simp [ParseData.new] at found

/-- With ACK alone the frame is dropped, although it has the same byte of data. -/
theorem payload_lost_with_ack :
    (oneByte thAck).IsSegment ∧ (oneByte thAck).desIp ≠ broadAddr ∧
      oneHost.LocalEnd (oneByte thAck) 3306 ∧ oneProtocol.Registered 3306 ∧
      ¬ PayloadHandled oneHost oneProtocol .new (oneByte thAck) 3306 := by
  refine ⟨isSegment_oneByte thAck, by decide, Or.inr ⟨by decide, rfl⟩, ⟨[70], rfl, rfl⟩, ?_⟩
  intro ⟨n, taskData, queued, _⟩
  -- The flags are tested before the length of the data is known.
  have flags : (oneByte thAck).thFlags = thAck := by decide
  rw [@handleTask_segment oneHost (oneByte thAck) 3306 (isSegment_oneByte thAck) (by decide)
    (Or.inr ⟨by decide, by decide⟩), if_pos (Or.inl flags)] at queued
  simp at queued

end OneProxy.Monitor
