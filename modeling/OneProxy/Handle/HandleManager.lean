import Mathlib
import OneProxy.Lib.Comparator

/-! `HandleManager`: which backend handle stands behind a handle that was given to a client. -/

namespace OneProxy

/-- `HandleData`: a prepared statement's handle and a cursor's handle, zero where there is none. -/
structure HandleData where
  preparedHandle : UInt32
  cursorHandle : UInt32
  deriving DecidableEq

namespace HandleData

/-- `HandleData::operator<`. -/
def less (a b : HandleData) : Bool :=
  if a.preparedHandle < b.preparedHandle ∧ a.cursorHandle ≤ b.cursorHandle then true
  else if a.cursorHandle < b.cursorHandle then true
  else false

/-- The ids that handle data carries. -/
def ids (handle : HandleData) : List UInt32 :=
  [handle.preparedHandle, handle.cursorHandle].filter (· ≠ 0)

/-- Handle data as its constructor leaves it. -/
def zero : HandleData := ⟨0, 0⟩

end HandleData

/-- The handle data a client knows. -/
abbrev FrontHandle := HandleData

/-- A packet that established a handle, and how it is freed. -/
structure DataPacket where
  dataPointer : Option Nat
  freeFunc : Option Nat
  deriving DecidableEq

/-- The handle data of a backend, the hash of its statement, and the server it is on. -/
structure BackendHandle where
  handle : HandleData
  hashCode : UInt32
  pointer : Option Nat
  dataPacketVec : List DataPacket
  deriving DecidableEq

/-- The handles in use, and the last one that was given out. -/
structure HandleManager where
  frontBackendHandleMap : Std.TreeMap FrontHandle BackendHandle (Comparator.ofLess HandleData.less)
  globalHandleUseFlag : Finset UInt32
  lastAllocHandle : UInt32

namespace HandleManager

/-- A manager without handles. -/
def new : HandleManager := ⟨∅, ∅, 1⟩

/-- The handle after a handle: zero is left out. -/
def nextHandle (last : UInt32) : UInt32 :=
  if last + 1 ≤ 0 then 1 else last + 1

/-- The number of handles. -/
def handleCount : Nat := 0xffffffff

/-- The loop of `get_globalHandleId`, which ends where it began. -/
def search (flags : Finset UInt32) (old : UInt32) : Nat → UInt32 → Option UInt32
  | 0, _ => none
  | turns + 1, last =>
    if nextHandle last = old then none
    else if nextHandle last ∈ flags then search flags old turns (nextHandle last)
    else some (nextHandle last)

/-- `get_globalHandleId`: a handle that is not in use; without one, all stays as it was. -/
def getGlobalHandleId (m : HandleManager) : Option (UInt32 × HandleManager) :=
  (search m.globalHandleUseFlag m.lastAllocHandle handleCount m.lastAllocHandle).map fun handle =>
    (handle, { m with
      globalHandleUseFlag := insert handle m.globalHandleUseFlag
      lastAllocHandle := handle })

/-- `close_globalHandleId`. -/
def closeGlobalHandleId (m : HandleManager) (handle : UInt32) : HandleManager :=
  { m with globalHandleUseFlag := m.globalHandleUseFlag.erase handle }

/-- A new front handle where the backend has one. -/
def giveHandle (m : HandleManager) (backendHandle frontHandle : UInt32) :
    Option (UInt32 × HandleManager) :=
  if backendHandle ≠ 0 then m.getGlobalHandleId else some (frontHandle, m)

/-- Files a backend handle under a front handle. -/
def save (m : HandleManager) (backendHandle : BackendHandle) (frontHandle : FrontHandle) :
    HandleManager :=
  { m with frontBackendHandleMap := m.frontBackendHandleMap.insert frontHandle backendHandle }

/-- `add_handle` of a `BackendHandle`: the cursor's handle is given out first. -/
def addBackendHandle (m : HandleManager) (backendHandle : BackendHandle) (frontHandle : FrontHandle)
    (useGlobalId : Bool) : Int × FrontHandle × HandleManager :=
  if useGlobalId then
    match m.giveHandle backendHandle.handle.cursorHandle frontHandle.cursorHandle with
    | none => (-1, frontHandle, m)
    | some (cursor, m) =>
      match m.giveHandle backendHandle.handle.preparedHandle frontHandle.preparedHandle with
      | none => (-1, { frontHandle with cursorHandle := cursor }, m)
      | some (prepared, m) => (0, ⟨prepared, cursor⟩, m.save backendHandle ⟨prepared, cursor⟩)
  else (0, frontHandle, m.save backendHandle frontHandle)

/-- `add_handle` of the handles of a backend. -/
def addHandle (m : HandleManager) (backendPreparedHandle backendCursorHandle hashCode : UInt32)
    (servns : Option Nat) (frontHandle : FrontHandle) : Int × FrontHandle × HandleManager :=
  m.addBackendHandle ⟨⟨backendPreparedHandle, backendCursorHandle⟩, hashCode, servns, []⟩
    frontHandle true

/-- `get_backendHandle`. -/
def getBackendHandle (m : HandleManager) (frontHandle : FrontHandle) : Option BackendHandle :=
  m.frontBackendHandleMap[frontHandle]?

/-- `get_backendHandleBaseCursor`. -/
def getBackendHandleBaseCursor (m : HandleManager) (cursorHandle : UInt32) : Option BackendHandle :=
  m.getBackendHandle ⟨0, cursorHandle⟩

/-- `get_backendHandleBasePrepared`. -/
def getBackendHandleBasePrepared (m : HandleManager) (preparedHandle : UInt32) :
    Option BackendHandle :=
  m.getBackendHandle ⟨preparedHandle, 0⟩

/-- `remove_handle`. -/
def removeHandle (m : HandleManager) (frontHandle : FrontHandle) : HandleManager :=
  let m := { m with frontBackendHandleMap := m.frontBackendHandleMap.erase frontHandle }
  let m := if frontHandle.cursorHandle ≠ 0 then m.closeGlobalHandleId
    frontHandle.cursorHandle else m
  if frontHandle.preparedHandle ≠ 0 then m.closeGlobalHandleId frontHandle.preparedHandle else m

/-- `remove_handleBaseCursor`, which also removes the handles that carry more than the cursor. -/
def removeHandleBaseCursor (m : HandleManager) (cursorHandle : UInt32) : HandleManager :=
  let m := m.removeHandle ⟨0, cursorHandle⟩
  { m with
    frontBackendHandleMap := m.frontBackendHandleMap.filter fun key _ =>
      key.cursorHandle ≠ cursorHandle }

/-- `remove_handleBasePrepared`. -/
def removeHandleBasePrepared (m : HandleManager) (preparedHandle : UInt32) : HandleManager :=
  m.removeHandle ⟨preparedHandle, 0⟩

/-- `set_backendServer`: the server of the backend handles that have none. -/
def setBackendServer (m : HandleManager) (ns : Option Nat) : HandleManager :=
  { m with
    frontBackendHandleMap := m.frontBackendHandleMap.map fun _ backendHandle =>
      if backendHandle.pointer = none then { backendHandle with pointer := ns } else backendHandle }

end HandleManager

end OneProxy
