import OneProxy.Monitor.MonitorDefine

/-! What a `SuperMonitor` thread does with one captured frame. -/

namespace OneProxy.Monitor

/-- What the capture threads read of the configuration and of each other, which never changes. -/
structure CaptureConfig where
  /-- `localIpList`. -/
  localIpList : List Bytes
  /-- `m_parseDataVec.size()`. -/
  parseDataSize : Nat

/-- `broadAddr`. -/
def broadAddr : Bytes := [50, 53, 53, 46, 50, 53, 53, 46, 50, 53, 53, 46, 50, 53, 53]

namespace CaptureConfig

/-- `isEmpty_localIp`. -/
def isEmptyLocalIp (cfg : CaptureConfig) : Bool := cfg.localIpList.isEmpty

/-- `is_localIp`. -/
def isLocalIp (cfg : CaptureConfig) (ip : Bytes) : Bool := cfg.localIpList.contains ip

/-- `MonitorManager::get_parseData`: the number of the thread a port belongs to. -/
def getParseData (cfg : CaptureConfig) (port : Nat) : Option Nat :=
  if cfg.parseDataSize > 0 then some (port % cfg.parseDataSize) else none

end CaptureConfig

/-- How `handle_task` ends. -/
inductive TaskEnd
  /-- The frame is dropped. -/
  | freed
  /-- A task is added to the list of a `ParseData`. -/
  | queued (pd : Nat) (taskData : TaskDataT)
  /-- The computed length is negative, and becomes a huge one where it is used. -/
  | overrun

namespace TaskEnd

/-- The task a frame is turned into, and the thread it goes to. -/
def queued? : TaskEnd → Option (Nat × TaskDataT)
  | queued pd taskData => some (pd, taskData)
  | _ => none

end TaskEnd

/-- The task made of a frame, for the local end it was found to have. -/
def TaskT.taskData (task : TaskT) (port : Nat) (dataLen : Nat) : TaskDataT where
  key := ⟨task.srcIp, task.srcPort, task.desIp, task.desPort, []⟩
  pi := ⟨port, []⟩
  data := task.bytes task.dataPos dataLen
  tcpFlags := task.thFlags
  protocol := task.ipP

/-- `add_taskData` on the `ParseData` a port belongs to, if there is one. -/
def addTaskData (cfg : CaptureConfig) (port : Nat) (taskData : TaskDataT) : TaskEnd :=
  match cfg.getParseData port with
  | none => .freed
  | some pd => .queued pd taskData

/--
`handle_task`.

The length computed from `ip_len` is overwritten by the number of bytes up to the frame's end.
-/
def handleTask (cfg : CaptureConfig) (task : TaskT) : TaskEnd :=
  if task.payloadType ≠ ethertypeIp then .freed
  -- remove broadcast packet.
  else if task.desIp = broadAddr then .freed
  else if task.thFlags = thAck then .freed
  else if cfg.parseDataSize = 0 then .freed
  else if task.len < task.dataPos then .overrun
  else
    let dataLen := task.len - task.dataPos
    if cfg.isEmptyLocalIp then addTaskData cfg 0 (task.taskData 0 dataLen)
    else if cfg.isLocalIp task.srcIp then
      addTaskData cfg task.desPort (task.taskData task.srcPort dataLen)
    else if cfg.isLocalIp task.desIp then
      addTaskData cfg task.srcPort (task.taskData task.desPort dataLen)
    else .freed

end OneProxy.Monitor
