import OneProxy.Lib.StdMap
import OneProxy.Util.Atoi

/-! The ports of each monitored protocol class, from `monitorportclass`. -/

namespace OneProxy.Config

open Tool

/-- The characters `;`, `:` and `,`. -/
def semicolon : UInt8 := 59
def colon : UInt8 := 58
def comma : UInt8 := 44

/-- `find_first_of` of one character, from a position; nothing stands for `npos`. -/
def findFirstOf (text : Bytes) (c : UInt8) (pos : Nat) : Option Nat :=
  ((text.drop pos).idxOf? c).map (pos + ·)

/-- `substr` from one position to another, or to the end where the other is `npos`. -/
def substr (text : Bytes) (pos : Nat) : Option Nat → Bytes
  | some stop => (text.drop pos).take (stop - pos)
  | none => text.drop pos

/-- The position behind another one: `npos + 1` is zero. -/
def behind : Option Nat → Nat
  | some pos => pos + 1
  | none => 0

/-- `monitorPortClass`: the class of each port. -/
abbrev PortMap := StdMap Int32 Bytes

/--
The loop over the ports of a class: whether it ends, rather than returns, and the map.

The fuel bounds the rounds.
-/
def scanPorts (value className : Bytes) (curPos : Nat) :
    Nat → Nat → PortMap → Option (Bool × PortMap)
  | 0, _, _ => none
  | fuel + 1, pPos, map =>
    if pPos < curPos then
      let curPPos := findFirstOf value comma pPos
      let port : UInt32 := (atoi (substr value pPos curPPos)).toUInt32
      if port = 0 then some (false, map)
      else
        scanPorts value className curPos fuel (behind curPPos)
          (Function.update map port.toInt32 (some className))
    else some (true, map)

/-- The loop over the classes. -/
def scanClasses (value : Bytes) : Nat → Nat → PortMap → Option PortMap
  | 0, _, _ => none
  | fuel + 1, pos, map =>
    let curPos := (findFirstOf value semicolon pos).getD value.length
    match findFirstOf value colon pos with
    | none => some map
    | some nPos =>
      if nPos ≥ curPos then some map
      else
        let className := substr value pos (some nPos)
        if className.length ≤ 0 then some map
        else
          match scanPorts value className curPos fuel (nPos + 1) map with
          | none => none
          | some (false, map) => some map
          | some (true, map) =>
            let pos := curPos + 1
            if pos < value.length then scanClasses value fuel pos map else some map

/-- `handle_monitorPortClass`, for a map that is still empty. -/
def handleMonitorPortClass (value : Bytes) (fuel : Nat) : Option PortMap :=
  if value.length ≤ 0 then some fun _ => none else scanClasses value fuel 0 fun _ => none

/-- The function comes to an end. -/
def Terminates (value : Bytes) : Prop := ∃ fuel, (handleMonitorPortClass value fuel).isSome

/-- The map that the function leaves. -/
def Leaves (value : Bytes) (map : PortMap) : Prop :=
  ∃ fuel, handleMonitorPortClass value fuel = some map

end OneProxy.Config
