import OneProxy.Conf.MonitorPortClass
import OneProxy.Lib.Separator

/-! Where the loops over classes and ports come to an end. -/

namespace OneProxy.Config

open Tool

variable {value className : Bytes} {curPos pos pPos fuel : Nat} {map : PortMap}

/-! ## Positions and pieces -/

/-- A character is found behind the part that has none. -/
theorem findFirstOf_of_mem {text before after : Bytes} {c : UInt8}
    (found : text.drop pos = before ++ c :: after) (fresh : c ∉ before) :
    findFirstOf text c pos = some (pos + before.length) := by
  have index : (before ++ c :: after).idxOf? c = some before.length := by
    clear found
    induction before with
    | nil => simp [List.idxOf?_cons]
    | cons x before ih =>
      simp only [List.mem_cons, not_or] at fresh
      simp [List.idxOf?_cons, Ne.symm fresh.1, ih fresh.2]
  rw [findFirstOf, found, index]
  rfl

theorem findFirstOf_of_notMem {text : Bytes} {c : UInt8} (fresh : c ∉ text.drop pos) :
    findFirstOf text c pos = none := by
  rw [findFirstOf, List.idxOf?_eq_none_iff.mpr fresh]
  rfl

/-- What follows a part. -/
theorem drop_behind {text before after : Bytes} {c : UInt8}
    (found : text.drop pos = before ++ c :: after) :
    text.drop (pos + before.length + 1) = after := by
  rw [Nat.add_assoc, ← List.drop_drop, found, ← List.drop_drop]
  simp

theorem substr_part {text before after : Bytes} (found : text.drop pos = before ++ after) :
    substr text pos (some (pos + before.length)) = before := by
  rw [substr, found]
  simp

/-! ## The rounds of the loops -/

/-- The loop over ports comes to an end. -/
def PortsEnd (value className : Bytes) (curPos pPos : Nat) (map : PortMap)
    (result : Bool × PortMap) : Prop :=
  ∃ fuel, scanPorts value className curPos fuel pPos map = some result

/-- The loop over classes comes to an end. -/
def ClassesEnd (value : Bytes) (pos : Nat) (map result : PortMap) : Prop :=
  ∃ fuel, scanClasses value fuel pos map = some result

/-- More fuel changes no result. -/
theorem scanPorts_mono {more : Nat} {result : Bool × PortMap} (le : fuel ≤ more)
    (done : scanPorts value className curPos fuel pPos map = some result) :
    scanPorts value className curPos more pPos map = some result := by
  induction fuel generalizing more pPos map with
  | zero => exact absurd done (by simp [scanPorts])
  | succ fuel ih =>
    obtain ⟨more, rfl⟩ : ∃ n, more = n + 1 := ⟨more - 1, by omega⟩
    simp only [scanPorts] at done ⊢
    split
    · next inside =>
      rw [if_pos inside] at done
      split
      · next zero => rwa [if_pos zero] at done
      · next nonzero =>
        rw [if_neg nonzero] at done
        exact ih (by omega) done
    · next outside => rwa [if_neg outside] at done

theorem scanClasses_mono {more : Nat} {result : PortMap} (le : fuel ≤ more)
    (done : scanClasses value fuel pos map = some result) :
    scanClasses value more pos map = some result := by
  -- The induction is on the fuel, in which each check has the same outcome.
  induction fuel generalizing more pos map with
  | zero => exact absurd done (by simp [scanClasses])
  | succ fuel ih =>
    obtain ⟨more, rfl⟩ : ∃ n, more = n + 1 := ⟨more - 1, by omega⟩
    simp only [scanClasses] at done ⊢
    split
    · next absent => rwa [absent] at done
    · next nPos there =>
      rw [there] at done
      simp only at done
      split
      · next outside => rwa [if_pos outside] at done
      · next inside =>
        rw [if_neg inside] at done
        split
        · next empty => rwa [if_pos empty] at done
        · next named =>
          rw [if_neg named] at done
          cases scanned : scanPorts value (substr value pos (some nPos))
              ((findFirstOf value semicolon pos).getD value.length) fuel (nPos + 1) map with
          | none =>
            rw [scanned] at done
            exact absurd done (by simp)
          | some result =>
            rw [scanned] at done
            rw [scanPorts_mono (by omega) scanned]
            obtain ⟨ended, map⟩ := result
            cases ended with
            | false => exact done
            | true =>
              simp only at done ⊢
              split
              · next further =>
                rw [if_pos further] at done
                exact ih (by omega) done
              · next last => rwa [if_neg last] at done

/-- The port that is read from a piece. -/
theorem port_of_piece (piece : Bytes) : ((atoi piece).toUInt32 = 0 ↔ atoi piece = 0) ∧
    (atoi piece).toUInt32.toInt32 = atoi piece := by
  refine ⟨⟨fun zero => ?_, fun zero => by rw [zero]; rfl⟩, Int32.toInt32_toUInt32 _⟩
  rw [← Int32.toInt32_toUInt32 (atoi piece), zero]
  rfl

/-- One round of the loop over ports, on the piece that starts at the position. -/
theorem portsEnd_iff {result : Bool × PortMap} (inside : pPos < curPos) {piece : Bytes}
    (read : substr value pPos (findFirstOf value comma pPos) = piece) :
    PortsEnd value className curPos pPos map result ↔
      if atoi piece = 0 then (false, map) = result
      else PortsEnd value className curPos (behind (findFirstOf value comma pPos))
        (Function.update map (atoi piece) (some className)) result := by
  -- A round takes one fuel.
  subst read
  obtain ⟨zero, key⟩ := port_of_piece (substr value pPos (findFirstOf value comma pPos))
  constructor
  · rintro ⟨fuel, done⟩
    cases fuel with
    | zero => exact absurd done (by simp [scanPorts])
    | succ fuel =>
      simp only [scanPorts, if_pos inside, zero, key] at done
      split
      · next no => exact Option.some.inj (by rwa [if_pos no] at done)
      · next yes =>
        rw [if_neg yes] at done
        exact ⟨fuel, done⟩
  · split
    · next no =>
      rintro rfl
      exact ⟨1, by simp only [scanPorts, if_pos inside, zero, if_pos no]⟩
    · next yes =>
      rintro ⟨fuel, done⟩
      exact ⟨fuel + 1, by simp only [scanPorts, if_pos inside, zero, key, if_neg yes, done]⟩

/-- Outside of its class the loop over ports ends. -/
theorem portsEnd_outside {result : Bool × PortMap} (outside : ¬ pPos < curPos) :
    PortsEnd value className curPos pPos map result ↔ (true, map) = result := by
  constructor
  · rintro ⟨fuel, done⟩
    cases fuel with
    | zero => exact absurd done (by simp [scanPorts])
    | succ fuel => exact Option.some.inj (by simpa [scanPorts, outside] using done)
  · rintro rfl
    exact ⟨1, by simp [scanPorts, outside]⟩

/-! ## One pass over the pieces -/

/--
How a pass over pieces ends: at a piece without a port, behind the class, or at the last piece.
-/
inductive Pass
  | returned (map : PortMap)
  | left (map : PortMap)
  | wrapped (map : PortMap)

/-- A pass over the pieces between commas, as far as the class goes. -/
def pass (className : Bytes) : Nat → List Bytes → PortMap → Pass
  | 0, _, map => .left map
  | _ + 1, [], map => .wrapped map
  | limit + 1, piece :: rest, map =>
    if atoi piece = 0 then .returned map
    else
      let map := Function.update map (atoi piece) (some className)
      if rest = [] then .wrapped map else pass className (limit - piece.length) rest map

/-- What the loop over ports does after a pass: behind the last piece it begins anew. -/
def Pass.Ends (value className : Bytes) (curPos : Nat) (result : Bool × PortMap) : Pass → Prop
  | .returned map => (false, map) = result
  | .left map => (true, map) = result
  | .wrapped map => PortsEnd value className curPos 0 map result

/-- The loop over ports is a pass, and what follows it. -/
theorem portsEnd_iff_pass {result : Bool × PortMap} {text : Bytes}
    (here : value.drop pPos = text) :
    PortsEnd value className curPos pPos map result ↔
      (pass className (curPos - pPos) (text.splitOn comma) map).Ends value className curPos
        result := by
  -- Every comma leaves a shorter text.
  induction length : text.length using Nat.strongRecOn generalizing pPos map text with
  | ind n ih =>
    by_cases inside : pPos < curPos
    · obtain ⟨limit, reach⟩ : ∃ limit, curPos - pPos = limit + 1 := ⟨curPos - pPos - 1, by omega⟩
      rcases Separator.split_cases comma text with
        ⟨fresh, split⟩ | ⟨piece, rest, same, fresh, split⟩
      · have absent : findFirstOf value comma pPos = none := findFirstOf_of_notMem (here ▸ fresh)
        have read : substr value pPos (findFirstOf value comma pPos) = text := by
          rw [absent, substr, here]
        rw [portsEnd_iff inside read, absent, split, reach, pass]
        split
        · rfl
        · rw [if_pos rfl]
          rfl
      · subst same
        have there := findFirstOf_of_mem here fresh
        have read : substr value pPos (findFirstOf value comma pPos) = piece := by
          rw [there]
          exact substr_part here
        have shorter : rest.length < n := by
          simp only [List.length_append, List.length_cons] at length
          omega
        have next : curPos - (pPos + piece.length + 1) = limit - piece.length := by omega
        rw [portsEnd_iff inside read, there, split, reach, pass]
        split
        · rfl
        · rw [if_neg (List.splitOn_ne_nil comma rest), ← next]
          exact ih rest.length shorter (drop_behind here) rfl
    · have outside : curPos - pPos = 0 := by omega
      rw [portsEnd_outside inside, outside]
      cases pieces : text.splitOn comma <;> rfl

/-- The first piece has to hold a port. -/
theorem pass_zero {limit : Nat} {piece : Bytes} {rest : List Bytes} (zero : atoi piece = 0)
    (some_ : 0 < limit) : pass className limit (piece :: rest) map = .returned map := by
  obtain ⟨limit, rfl⟩ : ∃ n, limit = n + 1 := ⟨limit - 1, by omega⟩
  rw [pass, if_pos zero]

/-- Why a pass ends as it does. -/
def Pass.Because (limit : Nat) (text : Bytes) : Pass → Prop
  | .returned _ => ∃ piece ∈ text.splitOn comma, atoi piece = 0
  | .left _ => comma ∈ text.drop (limit - 1)
  | .wrapped _ => comma ∉ text.drop (limit - 1) ∧ ∀ piece ∈ text.splitOn comma, atoi piece ≠ 0

/--
A pass returns at a piece without a port only. It leaves the class only if there is a comma from the
last character of the class on, and comes to the last piece only if there is none.
-/
theorem pass_because {limit : Nat} {text : Bytes} (some_ : 0 < limit)
    (within : limit ≤ text.length) :
    (pass className limit (text.splitOn comma) map).Because limit text := by
  induction length : text.length using Nat.strongRecOn generalizing limit map text with
  | ind n ih =>
    obtain ⟨limit, rfl⟩ : ∃ n, limit = n + 1 := ⟨limit - 1, by omega⟩
    rcases Separator.split_cases comma text with ⟨fresh, split⟩ | ⟨piece, rest, same, fresh, split⟩
    · rw [split, pass]
      by_cases zero : atoi text = 0
      · rw [if_pos zero]
        exact ⟨text, split ▸ List.mem_singleton_self _, zero⟩
      · rw [if_neg zero, if_pos rfl]
        refine ⟨fun found => fresh (List.mem_of_mem_drop found), fun piece member => ?_⟩
        rw [split] at member
        exact List.mem_singleton.mp member ▸ zero
    · subst same
      simp only [List.length_append, List.length_cons] at within length
      rw [split, pass]
      by_cases zero : atoi piece = 0
      · rw [if_pos zero]
        exact ⟨piece, split ▸ List.mem_cons_self, zero⟩
      · rw [if_neg zero, if_neg (List.splitOn_ne_nil comma rest)]
        by_cases reached : limit ≤ piece.length
        · -- The comma behind the piece ends the class, or it lies behind it.
          have found : comma ∈ (piece ++ comma :: rest).drop (limit + 1 - 1) := by
            rw [Nat.add_sub_cancel, List.drop_append_of_le_length reached]
            simp
          have none_ : limit - piece.length = 0 := by omega
          rw [none_]
          cases rest.splitOn comma <;> exact found
        · have same : (piece ++ comma :: rest).drop (limit + 1 - 1) =
              rest.drop (limit - piece.length - 1) := by
            have behind : limit + 1 - 1 = piece.length + 1 + (limit - piece.length - 1) := by omega
            rw [behind, ← List.drop_drop]
            congr 1
            rw [← List.drop_drop]
            simp
          have later : (pass className (limit - piece.length) (rest.splitOn comma)
              (Function.update map (atoi piece) (some className))).Because (limit - piece.length)
                rest := ih rest.length (by omega) (by omega) (by omega) rfl
          revert later
          cases pass className (limit - piece.length) (rest.splitOn comma)
              (Function.update map (atoi piece) (some className)) with
          | returned map' =>
            rintro ⟨other, member, no⟩
            exact ⟨other, split ▸ List.mem_cons_of_mem _ member, no⟩
          | left map' =>
            intro found
            show comma ∈ (piece ++ comma :: rest).drop (limit + 1 - 1)
            rw [same]
            exact found
          | wrapped map' =>
            rintro ⟨none_, ports⟩
            refine ⟨by rw [same]; exact none_, fun other member => ?_⟩
            rw [split] at member
            rcases List.mem_cons.mp member with rfl | member
            · exact zero
            · exact ports other member

/-! ## The loop that begins anew -/

/-- Every piece of the whole value holds a port. -/
def AllPorts (value : Bytes) : Prop := ∀ piece ∈ value.splitOn comma, atoi piece ≠ 0

/-- Where no comma leads out of the class and every piece holds a port, the loop never ends. -/
theorem scanPorts_circles (ports : AllPorts value) (none_ : comma ∉ value.drop (curPos - 1))
    (some_ : 0 < curPos) (inside : pPos < curPos)
    (here : ∀ piece ∈ (value.drop pPos).splitOn comma, atoi piece ≠ 0) :
    scanPorts value className curPos fuel pPos map = none := by
  induction fuel generalizing pPos map with
  | zero => rfl
  | succ fuel ih =>
    rcases Separator.split_cases comma (value.drop pPos) with
      ⟨fresh, split⟩ | ⟨piece, rest, same, fresh, split⟩
    · have absent : findFirstOf value comma pPos = none := findFirstOf_of_notMem fresh
      have nonzero : (atoi (value.drop pPos)).toUInt32 ≠ 0 := by
        rw [Ne, (port_of_piece _).1]
        exact here _ (split ▸ List.mem_singleton_self _)
      simp only [scanPorts, if_pos inside, absent, substr, if_neg nonzero]
      exact ih some_ ports
    · have there := findFirstOf_of_mem same fresh
      have read : substr value pPos (some (pPos + piece.length)) = piece := substr_part same
      have nonzero : (atoi piece).toUInt32 ≠ 0 := by
        rw [Ne, (port_of_piece _).1]
        exact here _ (split ▸ List.mem_cons_self)
      simp only [scanPorts, if_pos inside, there, read, if_neg nonzero]
      have rest_ := drop_behind same
      refine ih ?_ ?_
      · -- A comma from the last character on would be one that leads out.
        by_contra outside
        refine none_ ?_
        have behind : curPos - 1 ≤ pPos + piece.length := by
          simp only [behind] at outside
          omega
        have found : comma ∈ value.drop (pPos + piece.length) := by
          rw [← List.drop_drop, same, List.drop_left]
          exact List.mem_cons_self
        have split : pPos + piece.length = curPos - 1 + (pPos + piece.length - (curPos - 1)) := by
          omega
        rw [split, ← List.drop_drop] at found
        exact List.mem_of_mem_drop found
      · intro other member
        refine here other (split ▸ List.mem_cons_of_mem _ ?_)
        rwa [behind, rest_] at member

end OneProxy.Config
