import OneProxy.Util.StringBuf

/-! The numbers that `atoi` reads. -/

namespace OneProxy.Tool

/-- `isspace`. -/
def isSpace (c : UInt8) : Bool := c = 32 || (9 ≤ c && c ≤ 13)

/-- `isdigit`. -/
def isDigit (c : UInt8) : Bool := 48 ≤ c && c ≤ 57

/-- The number that decimal digits stand for. -/
def ofDigits (digits : Bytes) : Nat := digits.foldl (fun n c => 10 * n + (c.toNat - 48)) 0

/-- A sign, and what follows it. -/
def signed : Bytes → Bool × Bytes
  | 45 :: rest => (true, rest)
  | 43 :: rest => (false, rest)
  | text => (false, text)

/-- `atoi`: blanks, a sign, and digits; zero where there is none. -/
def atoi (text : Bytes) : Int32 :=
  let (negative, text) := signed (text.dropWhile isSpace)
  let value : Int := ofDigits (text.takeWhile isDigit)
  let value := if negative then -value else value
  -- The result of `strtol`, which ends at the bounds of a `long`, is cut to an `int`.
  Int32.ofInt (max (-0x8000000000000000) (min 0x7FFFFFFFFFFFFFFF value))

/-- A character that neither is blank, a sign nor a digit. -/
structure Stops (c : UInt8) : Prop where
  space : isSpace c = false
  digit : isDigit c = false
  minus : c ≠ 45
  plus : c ≠ 43

/-- A part of which every character passes is passed over. -/
theorem dropWhile_append_stop {p : UInt8 → Bool} {text : Bytes} {c : UInt8} (stop : p c = false)
    (rest : Bytes) : (text ++ c :: rest).dropWhile p = text.dropWhile p ++ c :: rest := by
  induction text with
  | nil => simp [stop]
  | cons x text ih =>
    by_cases pass : p x
    · simpa [List.dropWhile_cons, pass] using ih
    · simp [pass]

theorem takeWhile_append_stop {p : UInt8 → Bool} {text : Bytes} {c : UInt8} (stop : p c = false)
    (rest : Bytes) : (text ++ c :: rest).takeWhile p = text.takeWhile p := by
  induction text with
  | nil => simp [stop]
  | cons x text ih =>
    by_cases pass : p x
    · simpa [List.takeWhile_cons, pass] using ih
    · simp [pass]

/-- Nothing is read beyond a character that stops. -/
theorem atoi_append_stop {c : UInt8} (stops : Stops c) (text rest : Bytes) :
    atoi (text ++ c :: rest) = atoi text := by
  have split : ∀ tail : Bytes, signed (tail ++ c :: rest) =
      ((signed tail).1, (signed tail).2 ++ c :: rest) := by
    intro tail
    match tail with
    | [] => simp [signed, stops.minus, stops.plus]
    | x :: tail =>
      by_cases minus : x = 45
      · simp [signed, minus]
      · by_cases plus : x = 43
        · simp [signed, plus]
        · simp [signed, minus, plus]
  simp only [atoi, dropWhile_append_stop stops.space, split, takeWhile_append_stop stops.digit]

/-- A number with a sign is read up to the first character that is no digit. -/
theorem atoi_number {digits rest : Bytes} (negative : Bool) (some_ : digits ≠ [])
    (plain : ∀ c ∈ digits, isDigit c) (ends : ∀ c ∈ rest.head?, isDigit c = false) :
    atoi ((if negative then [45] else []) ++ digits ++ rest) =
      Int32.ofInt (max (-0x8000000000000000) (min (0x7FFFFFFFFFFFFFFF)
        (if negative then -(ofDigits digits : Int) else ofDigits digits))) := by
  have whole : (digits ++ rest).takeWhile isDigit = digits := by
    rw [List.takeWhile_append_of_pos plain]
    cases rest with
    | nil => simp
    | cons c rest =>
      have no : isDigit c = false := ends c rfl
      simp [no]
  obtain ⟨first, more, rfl⟩ := List.exists_cons_of_ne_nil some_
  have digit := plain first List.mem_cons_self
  -- The first digit is neither blank nor a sign.
  have space : isSpace first = false := by
    simp only [isDigit, isSpace] at digit ⊢
    grind
  have minus : first ≠ 45 := by
    rintro rfl
    exact absurd digit (by decide)
  have plus : first ≠ 43 := by
    rintro rfl
    exact absurd digit (by decide)
  cases negative with
  | true =>
    have blank : isSpace 45 = false := by decide
    have read : signed (45 :: first :: (more ++ rest)) = (true, first :: (more ++ rest)) := rfl
    rw [List.cons_append] at whole
    simp [atoi, blank, read, whole]
  | false =>
    have read : signed (first :: (more ++ rest)) = (false, first :: (more ++ rest)) := by
      simp [signed, minus, plus]
    rw [List.cons_append] at whole
    simp [atoi, space, read, whole]

end OneProxy.Tool
