import Mathlib

/-! The event loop's registrations: one interest and one callback for each descriptor. -/

namespace OneProxy

/-- What a descriptor is watched for. -/
inductive IoInterest
  | read
  | write
  deriving DecidableEq

/-- The callbacks that connections are registered with. -/
inductive IoCallback
  | rwFrontData
  | rwBackendData
  deriving DecidableEq

/-- A registration, with the argument its callback is called with. -/
structure EventInfo (α : Type) where
  event : IoInterest
  fp : IoCallback
  args : α
  deriving DecidableEq

/-- The registrations by descriptor. -/
abbrev IoEvent (α : Type) := UInt32 → Option (EventInfo α)

namespace IoEvent

variable {α : Type}

/-- Watches a descriptor for one thing only, replacing what it was watched for before. -/
def addIoEvent (ioEvent : IoEvent α) (fd : UInt32) (event : IoInterest) (fp : IoCallback)
    (args : α) : IoEvent α :=
  Function.update ioEvent fd (some ⟨event, fp, args⟩)

/-- Watches a descriptor for input. -/
def addIoEventRead (ioEvent : IoEvent α) (fd : UInt32) (fp : IoCallback) (args : α) : IoEvent α :=
  ioEvent.addIoEvent fd .read fp args

/-- Watches a descriptor for room to write. -/
def addIoEventWrite (ioEvent : IoEvent α) (fd : UInt32) (fp : IoCallback) (args : α) : IoEvent α :=
  ioEvent.addIoEvent fd .write fp args

/-- Stops watching a descriptor. -/
def delIoEvent (ioEvent : IoEvent α) (fd : UInt32) : IoEvent α :=
  Function.update ioEvent fd none

end IoEvent

end OneProxy
