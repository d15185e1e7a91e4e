import Mathlib.Data.List.Basic

/-! Literals between quotes, within which a quote is written twice. -/

namespace DoubledQuotes

variable {α : Type*} [DecidableEq α] (quote : α)

/-- A text as it is written within a literal. -/
def double : List α → List α
  | [] => []
  | c :: text => if c = quote then quote :: quote :: double text else c :: double text

/-- What a literal denotes whose first quote has been read, and what stands behind it. -/
def read : List α → Option (List α × List α)
  | [] => none
  | [c] => if c = quote then some ([], []) else none
  | c :: next :: text =>
    if c = quote then
      if next = quote then (read text).map fun (denoted, rest) => (quote :: denoted, rest)
      else some ([], next :: text)
    else (read (next :: text)).map fun (denoted, rest) => (c :: denoted, rest)

variable {quote} {text denoted rest : List α}

theorem length_le_double : text.length ≤ (double quote text).length := by
  induction text with
  | nil => exact Nat.le_refl _
  | cons c text ih =>
    rw [double]
    split
    · simp only [List.length_cons]
      omega
    · simp only [List.length_cons]
      omega

/-- A text without quotes is written as it is, and no other one is. -/
theorem double_eq_self_iff : double quote text = text ↔ quote ∉ text := by
  induction text with
  | nil => simp [double]
  | cons c text ih =>
    rw [double]
    split
    · next same =>
      -- One character more has been written.
      refine ⟨fun equal => ?_, fun absent => absurd (same ▸ List.mem_cons_self) absent⟩
      have longer := congrArg List.length equal
      have le := @length_le_double _ _ quote text
      simp only [List.length_cons] at longer
      omega
    · next differ => simp [ih, Ne.symm differ]

/-- What is written within quotes, with no quote behind them, is read again. -/
theorem read_double (ends : rest.head? ≠ some quote) :
    read quote (double quote denoted ++ quote :: rest) = some (denoted, rest) := by
  induction denoted with
  | nil =>
    cases rest with
    | nil => simp [double, read]
    | cons c rest =>
      have differ : c ≠ quote := by simpa using ends
      simp [double, read, differ]
  | cons c denoted ih =>
    rw [double]
    split
    · next same => simp [read, ih, same]
    · next differ =>
      -- Something stands behind every character, at least the closing quote.
      obtain ⟨next, more, written⟩ := List.exists_cons_of_ne_nil
        (List.append_ne_nil_of_right_ne_nil (double quote denoted) (List.cons_ne_nil quote rest))
      rw [written] at ih
      rw [List.cons_append, written, read, if_neg differ, ih]
      rfl

/-- What is read was written within quotes, with no quote behind them. -/
theorem of_read (done : read quote text = some (denoted, rest)) :
    text = double quote denoted ++ quote :: rest ∧ rest.head? ≠ some quote := by
  -- The induction follows the reader: an end, a doubled quote, or a character.
  induction text using read.induct quote generalizing denoted with
  | case1 => simp [read] at done
  | case2 =>
    rw [read, if_pos rfl, Option.some.injEq, Prod.mk.injEq] at done
    obtain ⟨rfl, rfl⟩ := done
    exact ⟨rfl, by simp⟩
  | case3 c differ =>
    rw [read, if_neg differ] at done
    exact absurd done (by simp)
  | case4 text ih =>
    rw [read, if_pos rfl, if_pos rfl] at done
    obtain ⟨⟨inner, rest'⟩, found, equal⟩ := Option.map_eq_some_iff.mp done
    rw [Prod.mk.injEq] at equal
    obtain ⟨rfl, rfl⟩ := equal
    obtain ⟨written, ends⟩ := ih found
    refine ⟨?_, ends⟩
    rw [double, if_pos rfl, written]
    rfl
  | case5 next text once =>
    rw [read, if_pos rfl, if_neg once, Option.some.injEq, Prod.mk.injEq] at done
    obtain ⟨rfl, rfl⟩ := done
    exact ⟨rfl, by simpa using once⟩
  | case6 c next text differ ih =>
    rw [read, if_neg differ] at done
    obtain ⟨⟨inner, rest'⟩, found, equal⟩ := Option.map_eq_some_iff.mp done
    rw [Prod.mk.injEq] at equal
    obtain ⟨rfl, rfl⟩ := equal
    obtain ⟨written, ends⟩ := ih found
    refine ⟨?_, ends⟩
    rw [double, if_neg differ, written]
    rfl

/-- A literal denotes what is written within its quotes. -/
theorem read_eq_some_iff : read quote text = some (denoted, rest) ↔
    text = double quote denoted ++ quote :: rest ∧ rest.head? ≠ some quote := by
  constructor
  · exact of_read
  · rintro ⟨rfl, ends⟩
    exact read_double ends

end DoubledQuotes
