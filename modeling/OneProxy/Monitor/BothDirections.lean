import OneProxy.Monitor.Payload

/-! Which thread the two directions of one connection are given to, and under which local port. -/

namespace OneProxy.Monitor

/-- Two frames between the same two ends, one in each direction. -/
structure TaskT.Opposite (t u : TaskT) : Prop where
  src : u.srcIp = t.desIp
  srcPort : u.srcPort = t.desPort
  des : u.desIp = t.srcIp
  desPort : u.desPort = t.srcPort

/-- The checks a packet passes before anyone asks whose it is. -/
structure CaptureConfig.Passes (cfg : CaptureConfig) (t : TaskT) : Prop where
  ip : t.payloadType = ethertypeIp
  notBroadcast : t.desIp ≠ broadAddr
  notAck : t.thFlags ≠ thAck
  threads : cfg.parseDataSize ≠ 0
  inside : t.dataPos ≤ t.len

/-- Where local addresses are known, a packet of one is queued: the sender is looked at first. -/
theorem handleTask_passes {cfg : CaptureConfig} {t : TaskT} (known : ¬ cfg.isEmptyLocalIp)
    (passes : cfg.Passes t) :
    handleTask cfg t =
      if cfg.isLocalIp t.srcIp ∨ cfg.isLocalIp t.desIp then
        .queued (cfg.remotePort t % cfg.parseDataSize)
          (t.taskData (cfg.localPort t) (t.len - t.dataPos))
      else .freed := by
  have positive : cfg.parseDataSize > 0 := Nat.pos_of_ne_zero passes.threads
  have enough : ¬ t.len < t.dataPos := Nat.not_lt.mpr passes.inside
  simp only [handleTask, passes.ip, ne_eq, not_true_eq_false, if_false, if_neg passes.notBroadcast,
    if_neg passes.notAck, if_neg passes.threads, if_neg enough, if_neg known, addTaskData,
    CaptureConfig.getParseData, if_pos positive, CaptureConfig.remotePort, CaptureConfig.localPort]
  by_cases source : cfg.isLocalIp t.srcIp
  · simp [source]
  · by_cases destination : cfg.isLocalIp t.desIp
    · simp [source, destination]
    · simp [source, destination]

/-- No packet is queued that did not pass the checks. -/
theorem passes_of_queued {cfg : CaptureConfig} {t : TaskT} {pd : Nat} {taskData : TaskDataT}
    (queued : handleTask cfg t = .queued pd taskData) : cfg.Passes t := by
  simp only [handleTask] at queued
  split at queued
  · simp at queued
  rename_i ip
  split at queued
  · simp at queued
  rename_i notBroadcast
  split at queued
  · simp at queued
  rename_i notAck
  split at queued
  · simp at queued
  rename_i threads
  split at queued
  · simp at queued
  rename_i enough
  exact ⟨not_ne_iff.mp ip, notBroadcast, notAck, threads, Nat.not_lt.mp enough⟩

/-- What a queued packet was given, where local addresses are known. -/
theorem queued_ports {cfg : CaptureConfig} {t : TaskT} {pd : Nat} {taskData : TaskDataT}
    (known : ¬ cfg.isEmptyLocalIp) (queued : handleTask cfg t = .queued pd taskData) :
    (cfg.isLocalIp t.srcIp ∨ cfg.isLocalIp t.desIp) ∧
      pd = cfg.remotePort t % cfg.parseDataSize ∧ taskData.pi.port = cfg.localPort t := by
  rw [handleTask_passes known (passes_of_queued queued)] at queued
  split at queued
  · rename_i someLocal
    simp only [TaskEnd.queued.injEq] at queued
    obtain ⟨thread, data⟩ := queued
    exact ⟨someLocal, thread.symm, by rw [← data]; rfl⟩
  · simp at queued

/--
Both directions of a connection go to one thread and carry one local port, unless both of its ends
are local and have different ports.
-/
theorem oneThread_iff {cfg : CaptureConfig} {t u : TaskT} {pd pd' : Nat}
    {sent answered : TaskDataT} (known : ¬ cfg.isEmptyLocalIp) (opposite : t.Opposite u)
    (forth : handleTask cfg t = .queued pd sent) (back : handleTask cfg u = .queued pd' answered) :
    (pd = pd' ∧ sent.pi.port = answered.pi.port) ↔
      ¬ (cfg.isLocalIp t.srcIp ∧ cfg.isLocalIp t.desIp) ∨ t.srcPort = t.desPort := by
  obtain ⟨someLocal, thread, port⟩ := queued_ports known forth
  obtain ⟨_, thread', port'⟩ := queued_ports known back
  rw [thread, thread', port, port']
  simp only [CaptureConfig.remotePort, CaptureConfig.localPort, opposite.src, opposite.srcPort,
    opposite.desPort]
  -- With one local end, that end is found in both directions.
  by_cases source : cfg.isLocalIp t.srcIp
  · by_cases destination : cfg.isLocalIp t.desIp
    · -- With two, each direction takes its sender's end for the local one.
      simp only [source, destination, if_true, and_self, not_true_eq_false, false_or]
      constructor
      · intro same
        exact same.2
      · intro same
        simp [same]
    · simp [source, destination]
  · have destination : cfg.isLocalIp t.desIp := someLocal.resolve_left source
    simp [source, destination]

/--
The packets of a connection from `(a, p)` to `(b, q)` and those from `(b, q)` to `(a, p)` are given
to the same thread and carry the same local port exactly when not both of `a` and `b` are local, or
`p` and `q` are equal.
-/
theorem dispatched_alike_iff {cfg : CaptureConfig} {t u : TaskT} {pd pd' : Nat}
    {sent answered : TaskDataT} (known : ¬ cfg.isEmptyLocalIp) (opposite : t.Opposite u)
    (forth : handleTask cfg t = .queued pd sent) (back : handleTask cfg u = .queued pd' answered) :
    (pd = pd' ∧ sent.pi.port = answered.pi.port) ↔
      ¬ (cfg.isLocalIp t.srcIp ∧ cfg.isLocalIp t.desIp) ∨ t.srcPort = t.desPort :=
  oneThread_iff known opposite forth back

/-- A TCP segment without data, of a connection between ports 8080 and 3306. -/
def segmentBetween (src des : List UInt8) (ports : List UInt8) : TaskT where
  len := 54
  packet := fun i => (
    [0, 0, 0, 0, 0, 0, 0, 0, 0, 0, 0, 0, 8, 0,
     0x45, 0, 0, 40, 0, 0, 0, 0, 64, 6, 0, 0] ++ src ++ des ++ ports ++
     [0, 0, 0, 0, 0, 0, 0, 0, 0x50, 0x18, 0, 0, 0, 0, 0, 0]).getD i 0

/-- From 10.0.0.1, port 8080, to 10.0.0.2, port 3306. -/
def request : TaskT := segmentBetween [10, 0, 0, 1] [10, 0, 0, 2] [0x1f, 0x90, 0x0c, 0xea]

/-- Back again. -/
def response : TaskT := segmentBetween [10, 0, 0, 2] [10, 0, 0, 1] [0x0c, 0xea, 0x1f, 0x90]

/-- The host 10.0.0.2 with two threads. -/
def serverHost : CaptureConfig := ⟨[[49, 48, 46, 48, 46, 48, 46, 50]], 2⟩

theorem request_opposite : request.Opposite response := by
  constructor <;> decide +kernel

/-- With one local end, both directions belong to it. -/
theorem dispatched_alike_request :
    (0 = 0 ∧ (request.taskData 3306 0).pi.port = (response.taskData 3306 0).pi.port) ↔
      ¬ (serverHost.isLocalIp request.srcIp ∧ serverHost.isLocalIp request.desIp) ∨
        request.srcPort = request.desPort := by
  have known : ¬ serverHost.isEmptyLocalIp := by decide
  have forth : serverHost.Passes request := by constructor <;> decide +kernel
  have back : serverHost.Passes response := by constructor <;> decide +kernel
  apply dispatched_alike_iff known request_opposite
  · rw [handleTask_passes known forth, if_pos (by decide +kernel)]
    have thread : serverHost.remotePort request % serverHost.parseDataSize = 0 := by decide +kernel
    have port : serverHost.localPort request = 3306 := by decide +kernel
    have size : request.len - request.dataPos = 0 := by decide +kernel
    rw [thread, port, size]
  · rw [handleTask_passes known back, if_pos (by decide +kernel)]
    have thread : serverHost.remotePort response % serverHost.parseDataSize = 0 := by decide +kernel
    have port : serverHost.localPort response = 3306 := by decide +kernel
    have size : response.len - response.dataPos = 0 := by decide +kernel
    rw [thread, port, size]

/-- A host that has both of the addresses. -/
def bothHosts : CaptureConfig :=
  ⟨[[49, 48, 46, 48, 46, 48, 46, 49], [49, 48, 46, 48, 46, 48, 46, 50]], 2⟩

/-- Between two local addresses each direction is taken for the traffic of another port. -/
theorem not_dispatched_alike :
    ¬ ∀ (cfg : CaptureConfig) (t u : TaskT) (pd pd' : Nat) (sent answered : TaskDataT),
      ¬ cfg.isEmptyLocalIp → t.Opposite u → (cfg.isLocalIp t.srcIp ∨ cfg.isLocalIp t.desIp) →
      handleTask cfg t = .queued pd sent → handleTask cfg u = .queued pd' answered →
        pd = pd' ∧ sent.pi.port = answered.pi.port := by
  intro alike
  have known : ¬ bothHosts.isEmptyLocalIp := by decide
  have forth : bothHosts.Passes request := by constructor <;> decide +kernel
  have back : bothHosts.Passes response := by constructor <;> decide +kernel
  have sent := handleTask_passes known forth
  have answered := handleTask_passes known back
  rw [if_pos (by decide +kernel)] at sent answered
  have ports := (alike _ _ _ _ _ _ _ known request_opposite (by decide +kernel) sent answered).2
  have different : bothHosts.localPort request ≠ bothHosts.localPort response := by decide +kernel
  exact different ports

end OneProxy.Monitor
