import OneProxy.Monitor.Payload

/-! Whether what is taken from a captured frame is the payload that its headers announce. -/

namespace OneProxy.Monitor

/--
What the capture library hands over: the bytes it captured of a frame, and the frame's length.
-/
structure Capture where
  caplen : Nat
  len : Nat
  packet : Nat → UInt8

/--
`monitorData`: the task made of a frame.

As many bytes are copied as the frame had on the wire, however many of them were captured.
-/
def monitorData (capture : Capture) : Option TaskT :=
  if capture.len ≤ 0 then none else some ⟨capture.len, capture.packet⟩

/-- The positions `handle_task` reads, each with the number of bytes, in the order of the source. -/
def TaskT.reads (cfg : CaptureConfig) (t : TaskT) : List (Nat × Nat) :=
  -- The type of the frame, and behind a VLAN header the type it gives.
  [(12, 2)] ++ (if t.etherType = ethertype8021Q then [(16, 2)] else []) ++
  if t.payloadType ≠ ethertypeIp then []
  else
    -- The length of the IP header, the addresses and the ports.
    [(t.iptr, 1), (t.iptr + 12, 4), (t.iptr + 16, 4), (t.tcpHeader, 2), (t.tcpHeader + 2, 2)] ++
    if t.desIp = broadAddr then []
    else
      [(t.tcpHeader + 13, 1)] ++
      if t.thFlags = thAck then []
      else
        [(t.iptr + 9, 1)] ++ (if t.ipP = ipprotoTcp then [(t.tcpHeader + 12, 1)] else []) ++
        [(t.iptr + 2, 2)] ++
        -- The data is copied before anyone asks whether an address is local.
        if cfg.parseDataSize = 0 then [] else [(t.dataPos, t.len - t.dataPos)]

/-- The bytes behind the transport header, as many as the lengths in the headers leave for them. -/
def TaskT.Announces (t : TaskT) (data : Bytes) : Prop :=
  ∃ n : Nat, (n : Int) = t.ipLen - t.ipHeaderLen - t.thl ∧ data = t.bytes t.dataPos n

/--
A frame is taken apart exactly.

Nothing is read that was not captured, no negative length is appended, and what is queued is the
payload.
-/
def Capture.Exact (cfg : CaptureConfig) (capture : Capture) : Prop :=
  ∀ task, monitorData capture = some task →
    task.len ≤ capture.caplen ∧ (∀ read ∈ task.reads cfg, read.1 + read.2 ≤ task.len) ∧
      match handleTask cfg task with
      | .freed => True
      | .queued _ taskData => task.Announces taskData.data
      | .overrun => False

/-- Whether the data of a packet is used: no local address is known, or one of the two is local. -/
def CaptureConfig.Uses (cfg : CaptureConfig) (t : TaskT) : Prop :=
  cfg.isEmptyLocalIp ∨ cfg.isLocalIp t.srcIp ∨ cfg.isLocalIp t.desIp

instance (cfg : CaptureConfig) (t : TaskT) : Decidable (cfg.Uses t) :=
  inferInstanceAs (Decidable (_ ∨ _))

/-- The transport header and the data of an IP packet lie where the frame has bytes. -/
structure TaskT.DataFits (cfg : CaptureConfig) (t : TaskT) : Prop where
  flags : t.tcpHeader + 14 ≤ t.len
  data : t.thFlags ≠ thAck → cfg.parseDataSize ≠ 0 → t.dataPos ≤ t.len
  /-- A frame whose data is used has no byte behind its IP packet. -/
  whole : t.thFlags ≠ thAck → cfg.parseDataSize ≠ 0 → cfg.Uses t → t.len = t.iptr + t.ipLen

/-- The headers that a frame has lie inside of it, and so does the data. -/
structure TaskT.Fits (cfg : CaptureConfig) (t : TaskT) : Prop where
  ethernet : 14 ≤ t.len
  vlan : t.etherType = ethertype8021Q → 18 ≤ t.len
  ip : t.payloadType = ethertypeIp → t.iptr + 20 ≤ t.len
  ports : t.payloadType = ethertypeIp → t.tcpHeader + 4 ≤ t.len
  rest : t.payloadType = ethertypeIp → t.desIp ≠ broadAddr → t.DataFits cfg

namespace TaskT

variable {cfg : CaptureConfig} {t : TaskT}

/-- What `handle_task` does with a packet that is neither broadcast nor a bare acknowledgement. -/
theorem handleTask_data (ip : t.payloadType = ethertypeIp) (notBroadcast : t.desIp ≠ broadAddr)
    (notAck : t.thFlags ≠ thAck) (threads : cfg.parseDataSize ≠ 0) (inside : t.dataPos ≤ t.len) :
    (cfg.Uses t → ∃ pd port, handleTask cfg t = .queued pd (t.taskData port (t.len - t.dataPos))) ∧
      (¬ cfg.Uses t → handleTask cfg t = .freed) := by
  -- Every port has a thread, so the three cases of the source are decided by the addresses.
  have positive : cfg.parseDataSize > 0 := Nat.pos_of_ne_zero threads
  have enough : ¬ t.len < t.dataPos := by omega
  simp only [handleTask, ip, ne_eq, not_true_eq_false, if_false, if_neg notBroadcast,
    if_neg notAck, if_neg threads, if_neg enough, addTaskData, CaptureConfig.getParseData,
    if_pos positive, CaptureConfig.Uses]
  by_cases empty : cfg.isEmptyLocalIp
  · simp only [empty, if_true, true_or, not_true_eq_false]
    exact ⟨fun _ => ⟨_, _, rfl⟩, False.elim⟩
  · by_cases source : cfg.isLocalIp t.srcIp
    · simp only [empty, source, if_true, Bool.false_eq_true, if_false, true_or, or_true,
        not_true_eq_false]
      exact ⟨fun _ => ⟨_, _, rfl⟩, False.elim⟩
    · by_cases destination : cfg.isLocalIp t.desIp
      · simp only [empty, source, destination, if_true, Bool.false_eq_true, if_false, or_true,
          not_true_eq_false]
        exact ⟨fun _ => ⟨_, _, rfl⟩, False.elim⟩
      · simp [empty, source, destination]

/-- The bytes up to the frame's end are the payload exactly where the IP packet ends there. -/
theorem announces_iff (inside : t.dataPos ≤ t.len) :
    t.Announces (t.bytes t.dataPos (t.len - t.dataPos)) ↔ t.len = t.iptr + t.ipLen := by
  have position : t.dataPos = t.iptr + t.ipHeaderLen + t.thl := rfl
  constructor
  · intro announced
    obtain ⟨n, size, same⟩ := announced
    have lengths := congrArg List.length same
    simp only [length_bytes] at lengths
    omega
  · intro whole
    refine ⟨t.len - t.dataPos, ?_, rfl⟩
    omega

/-- Of a frame that carries something else only the types are read. -/
theorem reads_other (other : t.payloadType ≠ ethertypeIp) :
    (∀ read ∈ t.reads cfg, read.1 + read.2 ≤ t.len) ↔
      14 ≤ t.len ∧ (t.etherType = ethertype8021Q → 18 ≤ t.len) := by
  simp only [reads, if_pos other, List.append_nil]
  by_cases vlan : t.etherType = ethertype8021Q <;> simp [vlan]

/-- Reads of the headers in front of the transport header's flags. -/
theorem reads_headers (ip : t.payloadType = ethertypeIp) (broadcast : t.desIp = broadAddr) :
    (∀ read ∈ t.reads cfg, read.1 + read.2 ≤ t.len) ↔
      14 ≤ t.len ∧ (t.etherType = ethertype8021Q → 18 ≤ t.len) ∧ t.iptr + 20 ≤ t.len ∧
        t.tcpHeader + 4 ≤ t.len := by
  simp only [reads, ip, ne_eq, not_true_eq_false, if_false, if_pos broadcast]
  by_cases vlan : t.etherType = ethertype8021Q
  · simp [vlan]
    intros
    omega
  · simp [vlan]
    omega

/--
Reads of a bare acknowledgement end with its flags, and so do those without a thread to parse.
-/
theorem reads_flags (ip : t.payloadType = ethertypeIp) (notBroadcast : t.desIp ≠ broadAddr)
    (ack : t.thFlags = thAck) :
    (∀ read ∈ t.reads cfg, read.1 + read.2 ≤ t.len) ↔
      14 ≤ t.len ∧ (t.etherType = ethertype8021Q → 18 ≤ t.len) ∧ t.iptr + 20 ≤ t.len ∧
        t.tcpHeader + 14 ≤ t.len := by
  simp only [reads, ip, ne_eq, not_true_eq_false, if_false, if_neg notBroadcast, if_pos ack]
  by_cases vlan : t.etherType = ethertype8021Q
  · simp [vlan]
    omega
  · simp [vlan]
    omega

/-- Reads of all other packets reach the end of the frame, if there is a thread to parse it. -/
theorem reads_data (ip : t.payloadType = ethertypeIp) (notBroadcast : t.desIp ≠ broadAddr)
    (notAck : t.thFlags ≠ thAck) :
    (∀ read ∈ t.reads cfg, read.1 + read.2 ≤ t.len) ↔
      14 ≤ t.len ∧ (t.etherType = ethertype8021Q → 18 ≤ t.len) ∧ t.iptr + 20 ≤ t.len ∧
        t.tcpHeader + 14 ≤ t.len ∧ (cfg.parseDataSize ≠ 0 → t.dataPos ≤ t.len) := by
  simp only [reads, ip, ne_eq, not_true_eq_false, if_false, if_neg notBroadcast, if_neg notAck]
  by_cases vlan : t.etherType = ethertype8021Q <;> by_cases tcp : t.ipP = ipprotoTcp <;>
    by_cases threads : cfg.parseDataSize = 0
  all_goals
    simp [vlan, tcp, threads]
    omega

/-- A task is taken apart exactly when all that is read of it lies where the frame has bytes. -/
theorem exact_iff_fits :
    ((∀ read ∈ t.reads cfg, read.1 + read.2 ≤ t.len) ∧
      match handleTask cfg t with
      | .freed => True
      | .queued _ taskData => t.Announces taskData.data
      | .overrun => False) ↔ t.Fits cfg := by
  -- The cases are those in which the source goes on to read more of the frame.
  by_cases ip : t.payloadType = ethertypeIp
  · by_cases broadcast : t.desIp = broadAddr
    · rw [reads_headers ip broadcast]
      simp only [handleTask, ip, ne_eq, not_true_eq_false, if_false, if_pos broadcast, and_true]
      constructor
      · intro inside
        obtain ⟨ethernet, vlan, headers, ports⟩ := inside
        exact ⟨ethernet, vlan, fun _ => headers, fun _ => ports,
          fun _ notBroadcast => absurd broadcast notBroadcast⟩
      · intro fits
        exact ⟨fits.ethernet, fits.vlan, fits.ip ip, fits.ports ip⟩
    · by_cases ack : t.thFlags = thAck
      · rw [reads_flags ip broadcast ack]
        simp only [handleTask, ip, ne_eq, not_true_eq_false, if_false, if_neg broadcast,
          if_pos ack, and_true]
        constructor
        · intro inside
          obtain ⟨ethernet, vlan, headers, flags⟩ := inside
          refine ⟨ethernet, vlan, fun _ => headers, fun _ => by omega, fun _ _ => ?_⟩
          exact ⟨flags, fun data => absurd ack data, fun data => absurd ack data⟩
        · intro fits
          exact ⟨fits.ethernet, fits.vlan, fits.ip ip, (fits.rest ip broadcast).flags⟩
      · rw [reads_data ip broadcast ack]
        by_cases threads : cfg.parseDataSize = 0
        · simp only [handleTask, ip, ne_eq, not_true_eq_false, if_false, if_neg broadcast,
            if_neg ack, threads, if_true, false_implies, and_true]
          constructor
          · intro inside
            obtain ⟨ethernet, vlan, headers, flags⟩ := inside
            refine ⟨ethernet, vlan, fun _ => headers, fun _ => by omega, fun _ _ => ?_⟩
            exact ⟨flags, fun _ some => absurd threads some, fun _ some => absurd threads some⟩
          · intro fits
            exact ⟨fits.ethernet, fits.vlan, fits.ip ip, (fits.rest ip broadcast).flags⟩
        · constructor
          · intro exact'
            obtain ⟨⟨ethernet, vlan, headers, flags, data⟩, taken⟩ := exact'
            have inside := data threads
            refine ⟨ethernet, vlan, fun _ => headers, fun _ => by omega, fun _ _ => ?_⟩
            refine ⟨flags, fun _ => data, fun _ _ uses => ?_⟩
            obtain ⟨pd, port, queued⟩ := (handleTask_data ip broadcast ack threads inside).1 uses
            rw [queued] at taken
            exact (announces_iff inside).mp taken
          · intro fits
            have rest := fits.rest ip broadcast
            have inside := rest.data ack threads
            refine ⟨⟨fits.ethernet, fits.vlan, fits.ip ip, rest.flags, fun _ => inside⟩, ?_⟩
            have outcome := handleTask_data ip broadcast ack threads inside
            by_cases uses : cfg.Uses t
            · obtain ⟨pd, port, queued⟩ := outcome.1 uses
              rw [queued]
              exact (announces_iff inside).mpr (rest.whole ack threads uses)
            · rw [outcome.2 uses]
              trivial
  · rw [reads_other ip]
    simp only [handleTask, ne_eq, if_pos ip, and_true]
    constructor
    · intro inside
      exact ⟨inside.1, inside.2, fun isIp => absurd isIp ip, fun isIp => absurd isIp ip,
        fun isIp => absurd isIp ip⟩
    · intro fits
      exact ⟨fits.ethernet, fits.vlan⟩

end TaskT

/-- The task made of a frame that has a length. -/
def Capture.task (capture : Capture) : TaskT := ⟨capture.len, capture.packet⟩

theorem Capture.exact_iff (cfg : CaptureConfig) (capture : Capture) :
    capture.Exact cfg ↔
      capture.len = 0 ∨ capture.len ≤ capture.caplen ∧ capture.task.Fits cfg := by
  by_cases empty : capture.len = 0
  · simp [Capture.Exact, monitorData, empty]
  · have made : monitorData capture = some capture.task := by
      simp [monitorData, empty, Capture.task]
    rw [← TaskT.exact_iff_fits]
    simp only [Capture.Exact, made, Option.some.injEq, forall_eq', empty, false_or]
    rfl

/--
Payload extraction is exact for a frame exactly when the frame has no byte, or all of it was
captured, its headers and its data lie inside of it, and a packet whose data is used ends the frame.
-/
theorem extracts_exactly_iff (cfg : CaptureConfig) (capture : Capture) :
    capture.Exact cfg ↔
      capture.len = 0 ∨ capture.len ≤ capture.caplen ∧ capture.task.Fits cfg :=
  capture.exact_iff cfg

/--
A TCP segment without data, from 10.0.0.1 to 10.0.0.2, padded to the 60 bytes Ethernet asks for.
-/
def paddedSegment : Capture where
  caplen := 60
  len := 60
  packet := fun i => (
    [0, 0, 0, 0, 0, 0, 0, 0, 0, 0, 0, 0, 8, 0,
     0x45, 0, 0, 40, 0, 0, 0, 0, 64, 6, 0, 0, 10, 0, 0, 1, 10, 0, 0, 2,
     0x1f, 0x90, 0x0c, 0xea, 0, 0, 0, 0, 0, 0, 0, 0, 0x50, 0x18, 0, 0, 0, 0, 0, 0]).getD i 0

/-- The six bytes of padding are taken for data. -/
theorem paddedSegment_not_exact : ¬ paddedSegment.Exact ⟨[], 1⟩ := by
  intro exact'
  obtain empty | ⟨_, fits⟩ := (Capture.exact_iff _ _).mp exact'
  · exact absurd empty (by decide)
  · have rest := fits.rest (by decide) (by decide)
    exact absurd (rest.whole (by decide) (by decide) (by decide)) (by decide)

end OneProxy.Monitor
