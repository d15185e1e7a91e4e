import Mathlib

/-! A first-in first-out pipe: what its far end has accepted, and what is still inside. -/

/-- A pipe, seen from the end that is written to. -/
structure Pipe (α : Type*) where
  accepted : List α
  pending : List α

namespace Pipe

variable {α : Type*}

/-- Everything that was ever put in, in order. -/
def contents (p : Pipe α) : List α := p.accepted ++ p.pending

/--
A turn: a block is put in, and the far end accepts some of what is then inside.

Nothing accepted is taken back, and nothing is lost, doubled or reordered.
-/
structure Turn (p : Pipe α) (block : List α) (q : Pipe α) : Prop where
  keeps : p.accepted <+: q.accepted
  contents_eq : q.contents = p.contents ++ block

/-- Doing nothing is a turn with an empty block. -/
theorem Turn.refl (p : Pipe α) : Turn p [] p := ⟨List.prefix_rfl, by simp⟩

/-- Two turns put in the two blocks, in order. -/
theorem Turn.trans {p q r : Pipe α} {front back : List α} (first : Turn p front q)
    (second : Turn q back r) : Turn p (front ++ back) r := by
  refine ⟨first.keeps.trans second.keeps, ?_⟩
  calc r.contents = q.contents ++ back := second.contents_eq
    _ = p.contents ++ front ++ back := by rw [first.contents_eq]
    _ = p.contents ++ (front ++ back) := List.append_assoc _ _ _

/-- Accepting a first part of what is inside together with a new block is a turn. -/
theorem Turn.of_split {p : Pipe α} {block taken rest : List α}
    (split : p.pending ++ block = taken ++ rest) : Turn p block ⟨p.accepted ++ taken, rest⟩ := by
  refine ⟨List.prefix_append _ _, ?_⟩
  calc (p.accepted ++ taken) ++ rest = p.accepted ++ (taken ++ rest) := List.append_assoc _ _ _
    _ = p.accepted ++ (p.pending ++ block) := by rw [split]
    _ = p.accepted ++ p.pending ++ block := (List.append_assoc _ _ _).symm

end Pipe
