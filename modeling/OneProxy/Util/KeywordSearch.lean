import Mathlib.Data.List.Forall2
import Mathlib.Data.List.Induction
import Mathlib.Logic.Relation
import OneProxy.Sql.Keywords

/-! The search for a keyword in the text of a statement, outside of quoted text. -/

namespace OneProxy.Tool

open Sql (toLower)

/-- A text whose positions an `unsigned int` counts, such as a statement out of a buffer. -/
structure Text where
  chars : Bytes
  small : chars.length < 0x100000000

/-- A keyword to search for. -/
structure Keyword where
  chars : Bytes
  some_ : chars ≠ []
  noQuote : 39 ∉ chars
  noBlank : 32 ∉ chars

/-! ## The search -/

/-- `toupper` of one character. -/
def toUpper (c : UInt8) : UInt8 := if 97 ≤ c ∧ c ≤ 122 then c - 32 else c

/-- A character of `src` is compared with one of `dst` in up to three spellings. -/
def sameLetter (ignoreCase : Bool) (c d : UInt8) : Bool :=
  (ignoreCase && (c == toUpper d || c == toLower d)) || c == d

/-- An `unsigned int` as an `int`. -/
def toInt (i : Nat) : Int := if i < 0x80000000 then i else i - 0x100000000

/--
The loop from a position on, with the character before it. It gives nothing where it reads `dst`
past the NUL that ends it.
-/
def findSqlKeyWordLoop (dst : Bytes) (ignoreCase : Bool) (prev : Option UInt8) (i : Nat)
    (startCharacter : Bool) (findPos : Int) (di : Nat) : Bytes → Option Int
  | [] => some (-1)
  | c :: rest =>
    if c = 39 ∧ (i = 0 ∨ prev ≠ some 92) then
      findSqlKeyWordLoop dst ignoreCase (some c) (i + 1) (!startCharacter) findPos di rest
    else if startCharacter then
      findSqlKeyWordLoop dst ignoreCase (some c) (i + 1) startCharacter findPos di rest
    else
      match (dst ++ [0])[di]? with
      | none => none
      | some d =>
        if sameLetter ignoreCase c d then
          let findPos := if findPos = -1 then toInt i else findPos
          if di + 1 = dst.length ∧ (rest = [] ∨ rest.head? = some 32 ∨ rest.head? = some 59) then
            some findPos
          else
            findSqlKeyWordLoop dst ignoreCase (some c) (i + 1) startCharacter findPos (di + 1) rest
        else findSqlKeyWordLoop dst ignoreCase (some c) (i + 1) startCharacter (-1) 0 rest

/-- `find_sqlKeyWord`. -/
def findSqlKeyWord (src : Text) (dst : Keyword) (ignoreCase : Bool) : Option Int :=
  if src.chars.length < dst.chars.length then some (-1)
  else findSqlKeyWordLoop dst.chars ignoreCase none 0 false (-1) 0 src.chars

/-! ## What is searched for -/

/-- Two letters, of which the case may be ignored. -/
def SameLetter (ignoreCase : Bool) (c d : UInt8) : Prop :=
  if ignoreCase then toLower c = toLower d else c = d

instance (ignoreCase : Bool) (c d : UInt8) : Decidable (SameLetter ignoreCase c d) :=
  inferInstanceAs (Decidable (ite _ _ _))

/-- The character at a position. -/
def charAt (text : Bytes) (i : Nat) : UInt8 := text[i]?.getD 0

/-- A quote that no backslash precedes. -/
def Toggles (text : Bytes) (i : Nat) : Prop :=
  text[i]? = some 39 ∧ (i = 0 ∨ text[i - 1]? ≠ some 92)

instance (text : Bytes) (i : Nat) : Decidable (Toggles text i) :=
  inferInstanceAs (Decidable (_ ∧ _))

/-- An odd number of such quotes stands before a position. -/
def quoted (text : Bytes) : Nat → Bool
  | 0 => false
  | i + 1 => if Toggles text i then !quoted text i else quoted text i

/-- A position outside of quoted text. -/
def Outside (text : Bytes) (i : Nat) : Prop := ¬ Toggles text i ∧ quoted text i = false

instance (text : Bytes) (i : Nat) : Decidable (Outside text i) :=
  inferInstanceAs (Decidable (_ ∧ _))

/-- What has to follow a keyword: the end of the text, a blank or a semicolon. -/
def Ends (text : Bytes) (stop : Nat) : Prop :=
  stop = text.length ∨ text[stop]? = some 32 ∨ text[stop]? = some 59

instance (text : Bytes) (stop : Nat) : Decidable (Ends text stop) :=
  inferInstanceAs (Decidable (_ ∨ _))

/-- A keyword at a position. -/
structure Occurs (src : Text) (dst : Keyword) (ignoreCase : Bool) (p : Nat) : Prop where
  within : p + dst.chars.length ≤ src.chars.length
  letters : ∀ j, j < dst.chars.length →
    SameLetter ignoreCase (charAt src.chars (p + j)) (charAt dst.chars j)
  outside : ∀ j, j < dst.chars.length → Outside src.chars (p + j)
  ends : Ends src.chars (p + dst.chars.length)

/-- The first position of a keyword. -/
def First (src : Text) (dst : Keyword) (ignoreCase : Bool) (p : Nat) : Prop :=
  Occurs src dst ignoreCase p ∧ ∀ q, q < p → ¬ Occurs src dst ignoreCase q

/-- The result that a search has to have, within the bounds of the keyword. -/
structure Searched (src : Text) (dst : Keyword) (ignoreCase : Bool) (result : Option Int) :
    Prop where
  found : ∀ p, First src dst ignoreCase p → result = some (p : Int)
  missing : (∀ p, ¬ Occurs src dst ignoreCase p) → result = some (-1)

/-! ## The attempts -/

/-- The positions outside of quoted text, from one on. -/
def visibleFrom (text : Bytes) (i : Nat) : List Nat :=
  (List.range' i (text.length - i)).filter fun j => Outside text j

section Attempts

variable (src : Text) (dst : Keyword) (ignoreCase : Bool)

/-- The characters at some positions are those of a word. -/
def Agree (ps : List Nat) (word : Bytes) : Prop :=
  List.Forall₂ (fun p d => SameLetter ignoreCase (charAt src.chars p) d) ps word

/-- The last of some positions ends a keyword. -/
def EndsAt (ps : List Nat) : Prop := ∀ p, ps.getLast? = some p → Ends src.chars (p + 1)

/-- An attempt at the first of some positions succeeds, with or without quoted text in between. -/
def Succeeds (visible ps : List Nat) : Prop :=
  ps <+: visible ∧ Agree src ignoreCase ps dst.chars ∧ EndsAt src ps

/--
An attempt at the first of some positions fails, and the search goes on behind the character that it
failed at.
-/
inductive Fails : List Nat → List Nat → Prop
  | letter {ps word tail rest : List _} {p : Nat} {d : UInt8} (agree : Agree src ignoreCase ps word)
      (next : dst.chars = word ++ d :: tail)
      (differ : ¬ SameLetter ignoreCase (charAt src.chars p) d) : Fails (ps ++ p :: rest) rest
  | behind {ps rest : List Nat} {p : Nat} (agree : Agree src ignoreCase ps dst.chars)
      (goesOn : ¬ EndsAt src ps) (char : charAt src.chars p ≠ 0) : Fails (ps ++ p :: rest) rest

/--
An attempt goes past the NUL behind the keyword: a NUL of the text follows the letters of the
keyword, and another character follows it.
-/
inductive Overruns : List Nat → Prop
  | nul {ps rest : List Nat} {p q : Nat} (agree : Agree src ignoreCase ps dst.chars)
      (goesOn : ¬ EndsAt src ps) (char : charAt src.chars p = 0) : Overruns (ps ++ p :: q :: rest)

/-- The positions from which an attempt is made. -/
def Tried (visible : List Nat) : Prop :=
  Relation.ReflTransGen (Fails src dst ignoreCase) (visibleFrom src.chars 0) visible

end Attempts

/-! ## Letters -/

/-- The three spellings are those of the letter with its case ignored. -/
theorem sameLetter_iff {ignoreCase : Bool} {c d : UInt8} :
    sameLetter ignoreCase c d = true ↔ SameLetter ignoreCase c d := by
  cases ignoreCase with
  | false => simp [sameLetter, SameLetter]
  | true =>
    simp only [sameLetter, SameLetter, Bool.true_and, Bool.or_eq_true, beq_iff_eq, if_true, toUpper,
      toLower]
    -- The letters lie between fixed bounds, so that the numbers of the characters decide.
    simp only [UInt8.le_iff_toNat_le, ← UInt8.toNat_inj, apply_ite UInt8.toNat, UInt8.toNat_add,
      UInt8.toNat_sub]
    have small := c.toNat_lt
    have small' := d.toNat_lt
    split_ifs <;> simp_all <;> omega

/-- Only a NUL has the letter of a NUL. -/
theorem sameLetter_nul {ignoreCase : Bool} {c : UInt8} :
    sameLetter ignoreCase c 0 = true ↔ c = 0 := by
  cases ignoreCase with
  | false => simp [sameLetter]
  | true =>
    have upper : toUpper 0 = 0 := rfl
    have lower : toLower 0 = 0 := rfl
    simp [sameLetter, upper, lower]

/-! ## The visible positions -/

section Visible

variable {text : Bytes} {i : Nat}

/-- The visible positions from a visible one on. -/
theorem visibleFrom_outside (inside : i < text.length) (outside : Outside text i) :
    visibleFrom text i = i :: visibleFrom text (i + 1) := by
  have count : text.length - i = text.length - (i + 1) + 1 := by omega
  rw [visibleFrom, count, List.range'_succ, List.filter_cons, if_pos (by simpa using outside)]
  rfl

/-- A position that is not visible is skipped. -/
theorem visibleFrom_hidden (inside : i < text.length) (hidden : ¬ Outside text i) :
    visibleFrom text i = visibleFrom text (i + 1) := by
  have count : text.length - i = text.length - (i + 1) + 1 := by omega
  rw [visibleFrom, count, List.range'_succ, List.filter_cons, if_neg (by simpa using hidden)]
  rfl

/-- Behind the text nothing is visible. -/
theorem visibleFrom_end (behind : text.length ≤ i) : visibleFrom text i = [] := by
  have count : text.length - i = 0 := by omega
  rw [visibleFrom, count]
  rfl

/-- A visible position lies within the text. -/
theorem lt_of_mem_visibleFrom {p : Nat} (member : p ∈ visibleFrom text i) : p < text.length := by
  have within := List.mem_range'_1.mp (List.mem_filter.mp member).1
  omega

/-- What is left of the visible positions is what is visible from its first one on. -/
theorem visibleFrom_of_suffix {p : Nat} {rest : List Nat}
    (left : p :: rest <:+ visibleFrom text i) :
    Outside text p ∧ p :: rest = visibleFrom text p := by
  -- The induction is on the characters behind the position.
  induction count : text.length - i generalizing i with
  | zero =>
    rw [visibleFrom_end (by omega)] at left
    exact absurd (List.suffix_nil.mp left) (by simp)
  | succ count ih =>
    have inside : i < text.length := by omega
    by_cases outside : Outside text i
    · rw [visibleFrom_outside inside outside, List.suffix_cons_iff] at left
      rcases left with whole | later
      · obtain ⟨rfl, rfl⟩ := List.cons.inj whole
        exact ⟨outside, (visibleFrom_outside inside outside).symm⟩
      · exact ih later (by omega)
    · rw [visibleFrom_hidden inside outside] at left
      exact ih left (by omega)

/-- A stretch of visible positions. -/
theorem visibleFrom_stretch (count : Nat) (within : i + count ≤ text.length)
    (outside : ∀ j, j < count → Outside text (i + j)) :
    visibleFrom text i = List.range' i count ++ visibleFrom text (i + count) := by
  induction count generalizing i with
  | zero => rfl
  | succ count ih =>
    have first : Outside text i := outside 0 (by omega)
    have later := @ih (i + 1) (by omega) fun j small => by
      have next := outside (j + 1) (by omega)
      rwa [Nat.add_right_comm, ← Nat.add_assoc] at *
    have sum : i + 1 + count = i + (count + 1) := by omega
    rw [visibleFrom_outside (by omega) first, later, List.range'_succ, List.cons_append, sum]

/-- The text from a position on. -/
theorem drop_cons (inside : i < text.length) :
    text.drop i = charAt text i :: text.drop (i + 1) := by
  rw [List.drop_eq_getElem_cons inside, charAt, List.getElem?_eq_getElem inside, Option.getD_some]

end Visible

/-! ## The search in the visible characters -/

/-- The search, in the characters at the positions that are visible. -/
def scan (text dst : Bytes) (ignoreCase : Bool) : List Nat → Int → Nat → Option Int
  | [], _, _ => some (-1)
  | p :: rest, findPos, di =>
    match (dst ++ [0])[di]? with
    | none => none
    | some d =>
      if sameLetter ignoreCase (charAt text p) d then
        let findPos := if findPos = -1 then toInt p else findPos
        if di + 1 = dst.length ∧ Ends text (p + 1) then some findPos
        else scan text dst ignoreCase rest findPos (di + 1)
      else scan text dst ignoreCase rest (-1) 0

/-- The character before a position. -/
def before (text : Bytes) (i : Nat) : Option UInt8 := if i = 0 then none else text[i - 1]?

/-- The loop is the search in the visible characters from its position on. -/
theorem findSqlKeyWordLoop_eq (text dst : Bytes) (ignoreCase : Bool) (i : Nat) (findPos : Int)
    (di : Nat) :
    findSqlKeyWordLoop dst ignoreCase (before text i) i (quoted text i) findPos di (text.drop i) =
      scan text dst ignoreCase (visibleFrom text i) findPos di := by
  -- The induction is on the characters that are left, the state of the quotes going along.
  induction count : text.length - i generalizing i findPos di with
  | zero =>
    have behind : text.length ≤ i := by omega
    rw [List.drop_eq_nil_of_le behind, visibleFrom_end behind]
    rfl
  | succ count ih =>
    have inside : i < text.length := by omega
    have found : text[i]? = some (charAt text i) := by
      rw [charAt, List.getElem?_eq_getElem inside, Option.getD_some]
    have next : some (charAt text i) = before text (i + 1) := by
      rw [before, if_neg (by omega), Nat.add_sub_cancel, found]
    have toggles : (charAt text i = 39 ∧ (i = 0 ∨ before text i ≠ some 92)) ↔ Toggles text i := by
      rw [Toggles, found, Option.some.injEq, before]
      by_cases zero : i = 0
      · simp [zero]
      · simp [zero]
    have ih := fun findPos di => ih (i + 1) findPos di (by omega)
    rw [drop_cons inside, findSqlKeyWordLoop, next]
    simp only [toggles]
    by_cases toggle : Toggles text i
    · -- A quote, which is not visible itself.
      have hidden : ¬ Outside text i := fun outside => outside.1 toggle
      have flips : quoted text (i + 1) = !quoted text i := if_pos toggle
      rw [if_pos toggle, visibleFrom_hidden inside hidden, ← flips, ih]
    · have stays : quoted text (i + 1) = quoted text i := if_neg toggle
      rw [if_neg toggle, ← stays]
      by_cases inQuotes : quoted text i = true
      · -- A character of quoted text is passed.
        have hidden : ¬ Outside text i := fun outside => by simp [outside.2] at inQuotes
        rw [if_pos (stays.trans inQuotes), visibleFrom_hidden inside hidden, ih]
      · -- A visible character is compared.
        have outside : Outside text i := ⟨toggle, by simpa using inQuotes⟩
        have ends : (text.drop (i + 1) = [] ∨ (text.drop (i + 1)).head? = some 32 ∨
            (text.drop (i + 1)).head? = some 59) ↔ Ends text (i + 1) := by
          rw [List.head?_drop, List.drop_eq_nil_iff, Ends]
          have last : text.length ≤ i + 1 ↔ i + 1 = text.length := by omega
          rw [last]
        rw [if_neg (by rwa [stays]), visibleFrom_outside inside outside, scan]
        simp only [ends, ih]

/-! ## One attempt -/

/-- Where the attempt began that has come as far as some positions. -/
def startOf : List Nat → Int
  | [] => -1
  | p :: _ => toInt p

/-- Positions that an `unsigned int` counts, without the one that is -1 as an `int`. -/
def Counted (ps : List Nat) : Prop := ∀ p ∈ ps, p < 0xffffffff

section Steps

variable {text dst word tail : Bytes} {ignoreCase : Bool} {ps rest : List Nat} {p : Nat} {d : UInt8}
  {findPos : Int}

theorem toInt_ne {i : Nat} (counted : i < 0xffffffff) : toInt i ≠ -1 := by
  rw [toInt]
  split <;> omega

/-- The beginning of an attempt that goes one character further. -/
theorem startOf_snoc (counted : Counted ps) (p : Nat) :
    (if startOf ps = -1 then toInt p else startOf ps) = startOf (ps ++ [p]) := by
  cases ps with
  | nil => rfl
  | cons q ps => exact if_neg (toInt_ne (counted q List.mem_cons_self))

/-- One character more, within the keyword. -/
theorem scan_next (parts : dst = word ++ d :: tail) (count : ps.length = word.length)
    (counted : Counted ps) :
    scan text dst ignoreCase (p :: rest) (startOf ps) ps.length =
      if SameLetter ignoreCase (charAt text p) d then
        if tail = [] ∧ Ends text (p + 1) then some (startOf (ps ++ [p]))
        else scan text dst ignoreCase rest (startOf (ps ++ [p])) (ps ++ [p]).length
      else scan text dst ignoreCase rest (-1) 0 := by
  have letter : (dst ++ [0])[ps.length]? = some d := by
    rw [parts, count]
    simp
  have last : ps.length + 1 = dst.length ↔ tail = [] := by
    rw [parts, count, ← List.length_eq_zero_iff]
    simp
  rw [scan, letter]
  simp only [sameLetter_iff, startOf_snoc counted, last, List.length_append, List.length_singleton]

/-- One character more, behind the keyword. -/
theorem scan_behind :
    scan text dst ignoreCase (p :: rest) findPos dst.length =
      if charAt text p = 0 then
        scan text dst ignoreCase rest (if findPos = -1 then toInt p else findPos) (dst.length + 1)
      else scan text dst ignoreCase rest (-1) 0 := by
  have letter : (dst ++ [0])[dst.length]? = some 0 := by simp
  have beyond : ¬ (dst.length + 1 = dst.length ∧ Ends text (p + 1)) := by omega
  rw [scan, letter]
  simp only [sameLetter_nul, if_neg beyond]

/-- Behind the NUL of the keyword nothing can be read. -/
theorem scan_past :
    scan text dst ignoreCase (p :: rest) findPos (dst.length + 1) = none := by
  have beyond : (dst ++ [0])[dst.length + 1]? = none := by simp
  rw [scan, beyond]

end Steps

section Attempts

variable {src : Text} {dst : Keyword} {ignoreCase : Bool} {ps rest visible : List Nat} {p : Nat}
  {word tail : Bytes} {d : UInt8}

/-- The last one of some agreeing characters. -/
theorem agree_snoc (agree : Agree src ignoreCase (ps ++ [p]) word) :
    ∃ front d, word = front ++ [d] ∧ Agree src ignoreCase ps front ∧
      SameLetter ignoreCase (charAt src.chars p) d := by
  rw [Agree, ← List.forall₂_reverse_iff, List.reverse_append] at agree
  obtain ⟨d, back, same, agree, reversed⟩ := List.forall₂_cons_left_iff.mp agree
  refine ⟨back.reverse, d, ?_, ?_, same⟩
  · rw [← List.reverse_reverse word, reversed, List.reverse_cons]
  · rw [Agree, ← List.forall₂_reverse_iff, List.reverse_reverse]
    exact agree

/-- Agreeing characters and one more. -/
theorem Agree.snoc (agree : Agree src ignoreCase ps word)
    (same : SameLetter ignoreCase (charAt src.chars p) d) :
    Agree src ignoreCase (ps ++ [p]) (word ++ [d]) :=
  List.rel_append agree (List.Forall₂.cons same List.Forall₂.nil)

/-- The last position decides whether a keyword ends. -/
theorem endsAt_snoc : EndsAt src (ps ++ [p]) ↔ Ends src.chars (p + 1) := by
  simp [EndsAt]

/-- An attempt that has come through some characters, and has not succeeded. -/
theorem scan_agree (agree : Agree src ignoreCase ps word) (parts : dst.chars = word ++ tail)
    (goesOn : tail = [] → ¬ EndsAt src ps) (counted : Counted ps) :
    scan src.chars dst.chars ignoreCase (ps ++ rest) (-1) 0 =
      scan src.chars dst.chars ignoreCase rest (startOf ps) ps.length := by
  -- The induction adds the last character, the step being the one of the search.
  induction ps using List.reverseRecOn generalizing word tail rest with
  | nil => rfl
  | append_singleton ps p ih =>
    obtain ⟨front, d, rfl, agree, same⟩ := agree_snoc agree
    have parts : dst.chars = front ++ d :: tail := by simpa using parts
    have counted : Counted ps := fun q member => counted q (by simp [member])
    have open_ : ¬ (tail = [] ∧ Ends src.chars (p + 1)) := by
      rintro ⟨last, ends⟩
      exact goesOn last (endsAt_snoc.mpr ends)
    rw [List.append_assoc, List.singleton_append, ih agree parts (by simp) counted,
      scan_next parts agree.length_eq counted, if_pos same, if_neg open_]

/-- A failed attempt is followed by the next one. -/
theorem scan_fails {later : List Nat} (fails : Fails src dst ignoreCase visible later)
    (counted : Counted visible) :
    scan src.chars dst.chars ignoreCase visible (-1) 0 =
      scan src.chars dst.chars ignoreCase later (-1) 0 := by
  cases fails with
  | letter agree next differ =>
    have counted := fun q member => counted q (List.mem_append_left _ member)
    rw [scan_agree agree next (by simp) counted, scan_next next agree.length_eq counted,
      if_neg differ]
  | behind agree goesOn char =>
    have counted := fun q member => counted q (List.mem_append_left _ member)
    rw [scan_agree agree (List.append_nil _).symm (fun _ => goesOn) counted, agree.length_eq,
      scan_behind, if_neg char]

/-- A successful attempt ends the search. -/
theorem scan_succeeds (succeeds : Succeeds src dst ignoreCase visible ps)
    (counted : Counted visible) :
    scan src.chars dst.chars ignoreCase visible (-1) 0 = some (startOf ps) := by
  obtain ⟨⟨rest, rfl⟩, agree, ends⟩ := succeeds
  rcases List.eq_nil_or_concat' ps with rfl | ⟨front, p, rfl⟩
  · exact absurd (List.forall₂_nil_left_iff.mp agree) dst.some_
  · obtain ⟨word, d, parts, agree, same⟩ := agree_snoc agree
    have counted : Counted front := fun q member => counted q (by simp [member])
    rw [List.append_assoc, List.singleton_append, scan_agree agree parts (by simp) counted,
      scan_next parts agree.length_eq counted, if_pos same, if_pos ⟨rfl, endsAt_snoc.mp ends⟩]

/-- An attempt that goes past the NUL of the keyword. -/
theorem scan_overruns (overruns : Overruns src dst ignoreCase visible) (counted : Counted visible) :
    scan src.chars dst.chars ignoreCase visible (-1) 0 = none := by
  cases overruns with
  | nul agree goesOn char =>
    have counted := fun q member => counted q (List.mem_append_left _ member)
    rw [scan_agree agree (List.append_nil _).symm (fun _ => goesOn) counted, agree.length_eq,
      scan_behind, if_pos char, scan_past]

/-! ## All the attempts -/

/-- The attempts that follow one another. -/
abbrev From (src : Text) (dst : Keyword) (ignoreCase : Bool) : List Nat → List Nat → Prop :=
  Relation.ReflTransGen (Fails src dst ignoreCase)

/-- A later attempt is made at what is left of the visible positions. -/
theorem From.suffix {later : List Nat} (follows : From src dst ignoreCase visible later) :
    later <:+ visible := by
  induction follows with
  | refl => exact List.suffix_rfl
  | tail _ fails ih =>
    refine List.IsSuffix.trans ?_ ih
    cases fails with
    | letter | behind => exact (List.suffix_cons _ _).trans (List.suffix_append _ _)

/-- A later attempt decides the whole search. -/
theorem From.scan_eq {later : List Nat} (follows : From src dst ignoreCase visible later)
    (counted : Counted visible) :
    scan src.chars dst.chars ignoreCase visible (-1) 0 =
      scan src.chars dst.chars ignoreCase later (-1) 0 := by
  induction follows with
  | refl => rfl
  | tail before fails ih =>
    have counted : Counted _ := fun q member =>
      counted q ((From.suffix before).subset member)
    rw [ih, scan_fails fails counted]

/-- How a search ends that does not come to the end of the text. -/
structure Outcome (src : Text) (dst : Keyword) (ignoreCase : Bool) (visible : List Nat)
    (result : Option Int) : Prop where
  overruns : result = none →
    ∃ later, From src dst ignoreCase visible later ∧ Overruns src dst ignoreCase later
  succeeds : ∀ v, result = some v → v ≠ -1 →
    ∃ later ps, From src dst ignoreCase visible later ∧
      Succeeds src dst ignoreCase later ps ∧ v = startOf ps

/-- What follows a failed attempt is the outcome of all. -/
theorem Outcome.head {later : List Nat} {result : Option Int}
    (fails : Fails src dst ignoreCase visible later)
    (outcome : Outcome src dst ignoreCase later result) :
    Outcome src dst ignoreCase visible result where
  overruns := fun none_ => by
    obtain ⟨last, follows, overruns⟩ := outcome.overruns none_
    exact ⟨last, Relation.ReflTransGen.head fails follows, overruns⟩
  succeeds := fun v some_ differ => by
    obtain ⟨last, ps, follows, succeeds⟩ := outcome.succeeds v some_ differ
    exact ⟨last, ps, Relation.ReflTransGen.head fails follows, succeeds⟩

/-- The outcome of a search, from any point of an attempt on. -/
theorem scan_outcome (agree : Agree src ignoreCase ps word) (parts : dst.chars = word ++ tail)
    (goesOn : tail = [] → ¬ EndsAt src ps) (counted : Counted (ps ++ rest)) :
    Outcome src dst ignoreCase (ps ++ rest)
      (scan src.chars dst.chars ignoreCase rest (startOf ps) ps.length) := by
  induction rest generalizing ps word tail with
  | nil => exact ⟨by simp [scan], by simp [scan]⟩
  | cons p rest ih =>
    have before : Counted ps := fun q member => counted q (by simp [member])
    have after : Counted ([] ++ rest) := fun q member => counted q (by
      simp only [List.nil_append] at member
      simp [member])
    -- After a failure the next attempt begins with nothing matched.
    have again : Outcome src dst ignoreCase rest
        (scan src.chars dst.chars ignoreCase rest (-1) 0) :=
      @ih [] [] dst.chars List.Forall₂.nil rfl (fun none_ => absurd none_ dst.some_) after
    cases tail with
    | cons d tail =>
      rw [scan_next parts agree.length_eq before]
      by_cases same : SameLetter ignoreCase (charAt src.chars p) d
      · have longer := agree.snoc same
        rw [if_pos same]
        by_cases last : tail = [] ∧ Ends src.chars (p + 1)
        · obtain ⟨rfl, ends⟩ := last
          rw [if_pos ⟨rfl, ends⟩]
          refine ⟨by simp, ?_⟩
          intro v found _
          have succeeds : Succeeds src dst ignoreCase (ps ++ p :: rest) (ps ++ [p]) :=
            ⟨⟨rest, by simp⟩, parts ▸ longer, endsAt_snoc.mpr ends⟩
          exact ⟨_, _, Relation.ReflTransGen.refl, succeeds, (Option.some.inj found).symm⟩
        · have shape : ps ++ p :: rest = ps ++ [p] ++ rest := by simp
          have parts : dst.chars = word ++ [d] ++ tail := by simpa using parts
          have open_ : tail = [] → ¬ EndsAt src (ps ++ [p]) := fun none_ ends =>
            last ⟨none_, endsAt_snoc.mp ends⟩
          rw [if_neg last, shape]
          exact ih longer parts open_ (shape ▸ counted)
      · rw [if_neg same]
        exact again.head (Fails.letter agree parts same)
    | nil =>
      have whole : Agree src ignoreCase ps dst.chars := by
        rw [parts, List.append_nil]
        exact agree
      rw [whole.length_eq, scan_behind]
      by_cases char : charAt src.chars p = 0
      · rw [if_pos char]
        cases rest with
        | nil => exact ⟨by simp [scan], by simp [scan]⟩
        | cons q rest =>
          rw [scan_past]
          exact ⟨fun _ => ⟨_, Relation.ReflTransGen.refl, Overruns.nul whole (goesOn rfl) char⟩,
            by simp⟩
      · rw [if_neg char]
        exact again.head (Fails.behind whole (goesOn rfl) char)

/-! ## The whole text -/

/-- The positions of a text are counted. -/
theorem counted_visible (src : Text) (i : Nat) : Counted (visibleFrom src.chars i) := by
  intro p member
  have inside := lt_of_mem_visibleFrom member
  have small := src.small
  omega

/-- The outcome of the search in a whole text. -/
theorem scan_outcome_whole (src : Text) (dst : Keyword) (ignoreCase : Bool) :
    Outcome src dst ignoreCase (visibleFrom src.chars 0)
      (scan src.chars dst.chars ignoreCase (visibleFrom src.chars 0) (-1) 0) :=
  @scan_outcome src dst ignoreCase [] _ [] dst.chars List.Forall₂.nil rfl
    (fun none_ => absurd none_ dst.some_) (counted_visible src 0)

/-- A text that is shorter than the keyword has no attempt that reads all of it. -/
theorem not_agree_of_short {later : List Nat} (short : src.chars.length < dst.chars.length)
    (follows : From src dst ignoreCase (visibleFrom src.chars 0) later) (left : ps <+: later) :
    ¬ Agree src ignoreCase ps dst.chars := by
  intro agree
  have most := (left.sublist.trans follows.suffix.sublist).length_le
  have all : (visibleFrom src.chars 0).length ≤ src.chars.length := by
    have filtered := List.length_filter_le (fun j => decide (Outside src.chars j))
      (List.range' 0 (src.chars.length - 0))
    rwa [List.length_range'] at filtered
  have length := agree.length_eq
  omega

/-- The search of the source is the one in the visible characters. -/
theorem findSqlKeyWord_eq (src : Text) (dst : Keyword) (ignoreCase : Bool) :
    findSqlKeyWord src dst ignoreCase =
      scan src.chars dst.chars ignoreCase (visibleFrom src.chars 0) (-1) 0 := by
  by_cases short : src.chars.length < dst.chars.length
  · -- The early return is what the search would come to.
    rw [findSqlKeyWord, if_pos short]
    have outcome := scan_outcome_whole src dst ignoreCase
    cases result : scan src.chars dst.chars ignoreCase (visibleFrom src.chars 0) (-1) 0 with
    | none =>
      obtain ⟨later, follows, overruns⟩ := outcome.overruns result
      cases overruns with
      | nul agree _ _ =>
        exact absurd agree (not_agree_of_short short follows (List.prefix_append _ _))
    | some v =>
      by_cases missing : v = -1
      · rw [missing]
      · obtain ⟨later, ps, follows, succeeds, _⟩ := outcome.succeeds v result missing
        exact absurd succeeds.2.1 (not_agree_of_short short follows succeeds.1)
  · rw [findSqlKeyWord, if_neg short]
    exact findSqlKeyWordLoop_eq src.chars dst.chars ignoreCase 0 (-1) 0

/-- The letters of a keyword at a position are the characters at the positions from it on. -/
theorem agree_range'_iff (src : Text) (ignoreCase : Bool) (word : Bytes) (p : Nat) :
    Agree src ignoreCase (List.range' p word.length) word ↔
      ∀ j, j < word.length → SameLetter ignoreCase (charAt src.chars (p + j)) (charAt word j) := by
  -- The induction is on the letters of the keyword, while the position moves on.
  induction word generalizing p with
  | nil => simp [Agree]
  | cons d word ih =>
    rw [List.length_cons, List.range'_succ, Agree, List.forall₂_cons, ← Agree, ih]
    constructor
    · rintro ⟨same, later⟩ j small
      cases j with
      | zero => exact same
      | succ j =>
        have next := later j (by omega)
        rwa [Nat.add_assoc, Nat.add_comm 1 j] at next
    · intro letters
      refine ⟨letters 0 (by omega), ?_⟩
      intro j small
      have next := letters (j + 1) (by omega)
      rwa [← Nat.add_assoc, Nat.add_right_comm] at next

/-- The last of some positions that follow one another. -/
theorem endsAt_range' (some_ : dst.chars ≠ []) :
    EndsAt src (List.range' p dst.chars.length) ↔ Ends src.chars (p + dst.chars.length) := by
  obtain ⟨count, length⟩ := Nat.exists_eq_succ_of_ne_zero (mt List.length_eq_zero_iff.mp some_)
  rw [length, Nat.succ_eq_add_one, List.range'_concat, endsAt_snoc, Nat.one_mul, Nat.add_assoc]

/-- At a keyword an attempt succeeds. -/
theorem Occurs.succeeds (occurs : Occurs src dst ignoreCase p)
    (left : p :: rest <:+ visibleFrom src.chars 0) :
    Succeeds src dst ignoreCase (p :: rest) (List.range' p dst.chars.length) where
  left := by
    rw [(visibleFrom_of_suffix left).2,
      visibleFrom_stretch dst.chars.length occurs.within occurs.outside]
    exact List.prefix_append _ _
  right := ⟨(agree_range'_iff src ignoreCase dst.chars p).mpr occurs.letters,
    (endsAt_range' dst.some_).mpr occurs.ends⟩

/-- A successful attempt without quoted text in between is at a keyword. -/
theorem Succeeds.occurs (left : visible <:+ visibleFrom src.chars 0)
    (succeeds : Succeeds src dst ignoreCase visible (List.range' p dst.chars.length)) :
    Occurs src dst ignoreCase p := by
  have member : ∀ j, j < dst.chars.length → p + j ∈ visibleFrom src.chars 0 := fun j small =>
    left.subset (succeeds.1.subset (List.mem_range'_1.mpr (by omega)))
  have positive := List.length_pos_of_ne_nil dst.some_
  constructor
  · have last := lt_of_mem_visibleFrom (member (dst.chars.length - 1) (by omega))
    omega
  · exact (agree_range'_iff src ignoreCase dst.chars p).mp succeeds.2.1
  · intro j small
    simpa using (List.mem_filter.mp (member j small)).2
  · exact (endsAt_range' dst.some_).mp succeeds.2.2

/-- The beginning of positions that follow one another. -/
theorem startOf_range' (some_ : dst.chars ≠ []) (small : p < 0x80000000) :
    startOf (List.range' p dst.chars.length) = p := by
  obtain ⟨count, length⟩ := Nat.exists_eq_succ_of_ne_zero (mt List.length_eq_zero_iff.mp some_)
  rw [length, Nat.succ_eq_add_one, List.range'_succ, startOf, toInt, if_pos small]

/-- A successful attempt begins at the first of the positions. -/
theorem Succeeds.start (succeeds : Succeeds src dst ignoreCase visible ps) :
    ∃ p qs rest, ps = p :: qs ∧ visible = p :: rest := by
  obtain ⟨⟨rest, rfl⟩, agree, _⟩ := succeeds
  cases ps with
  | nil => exact absurd (List.forall₂_nil_left_iff.mp agree) dst.some_
  | cons p qs => exact ⟨p, qs, qs ++ rest, rfl, rfl⟩

/-- Successful attempts at the same positions are the same. -/
theorem Succeeds.unique {qs : List Nat} (one : Succeeds src dst ignoreCase visible ps)
    (other : Succeeds src dst ignoreCase visible qs) : ps = qs := by
  have length : ps.length = qs.length := one.2.1.length_eq.trans other.2.1.length_eq.symm
  exact (List.prefix_of_prefix_length_le one.1 other.1 (Nat.le_of_eq length)).eq_of_length length

/-- Where there is a keyword there is a first one. -/
theorem exists_first_keyword (occurs : Occurs src dst ignoreCase p) :
    ∃ q, First src dst ignoreCase q := by
  induction p using Nat.strongRecOn with
  | ind p ih =>
    by_cases earlier : ∃ q, q < p ∧ Occurs src dst ignoreCase q
    · obtain ⟨q, before, occurs⟩ := earlier
      exact ih q before occurs
    · exact ⟨p, occurs, fun q before there => earlier ⟨q, before, there⟩⟩

/-- A position that is the same number as an `int`. -/
theorem toInt_eq {q : Nat} (counted : p < 0xffffffff) (same : toInt p = q) :
    p = q ∧ p < 0x80000000 := by
  by_cases small : p < 0x80000000
  · rw [toInt, if_pos small] at same
    omega
  · rw [toInt, if_neg small] at same
    omega

/-- The result of a search in which an attempt succeeds. -/
theorem result_of_succeeds (tried : Tried src dst ignoreCase visible)
    (succeeds : Succeeds src dst ignoreCase visible ps) :
    findSqlKeyWord src dst ignoreCase = some (startOf ps) := by
  have counted := counted_visible src 0
  rw [findSqlKeyWord_eq, From.scan_eq tried counted]
  exact scan_succeeds succeeds fun q member => counted q ((From.suffix tried).subset member)

/-- The result of a search in which an attempt goes past the NUL of the keyword. -/
theorem result_of_overruns (tried : Tried src dst ignoreCase visible)
    (overruns : Overruns src dst ignoreCase visible) :
    findSqlKeyWord src dst ignoreCase = none := by
  have counted := counted_visible src 0
  rw [findSqlKeyWord_eq, From.scan_eq tried counted]
  exact scan_overruns overruns fun q member => counted q ((From.suffix tried).subset member)

/-- A search with the right result does not come to nothing. -/
theorem Searched.ne_none {result : Option Int} (searched : Searched src dst ignoreCase result) :
    result ≠ none := by
  intro none_
  by_cases there : ∃ p, Occurs src dst ignoreCase p
  · obtain ⟨p, occurs⟩ := there
    obtain ⟨q, first⟩ := exists_first_keyword occurs
    simpa [none_] using searched.found q first
  · simpa [none_] using searched.missing fun p occurs => there ⟨p, occurs⟩

/-- A search with the right result finds a keyword at the attempt that succeeds. -/
theorem Searched.contiguous
    (searched : Searched src dst ignoreCase (findSqlKeyWord src dst ignoreCase))
    (tried : Tried src dst ignoreCase visible)
    (succeeds : Succeeds src dst ignoreCase visible ps) :
    ∃ p, p < 0x80000000 ∧ ps = List.range' p dst.chars.length := by
  have result := result_of_succeeds tried succeeds
  have left := From.suffix tried
  obtain ⟨p, qs, rest, rfl, rfl⟩ := succeeds.start
  have counted := counted_visible src 0 p (left.subset List.mem_cons_self)
  by_cases there : ∃ q, Occurs src dst ignoreCase q
  · -- The attempt is at the first keyword, where one without quoted text in between succeeds.
    obtain ⟨q, occurs⟩ := there
    obtain ⟨q, first⟩ := exists_first_keyword occurs
    have same := Option.some.inj (result.symm.trans (searched.found q first))
    obtain ⟨rfl, small⟩ := toInt_eq counted same
    exact ⟨p, small, succeeds.unique (first.1.succeeds left)⟩
  · have missing := searched.missing fun q occurs => there ⟨q, occurs⟩
    have same := Option.some.inj (result.symm.trans missing)
    exact absurd same (toInt_ne counted)

variable (src dst ignoreCase)

/--
A search has the right result exactly if an attempt that succeeds does so without quoted text in
between and at a position that an `int` holds, if an attempt is made at the first keyword, and if no
attempt goes past the NUL behind the keyword.
-/
theorem findSqlKeyWord_iff :
    Searched src dst ignoreCase (findSqlKeyWord src dst ignoreCase) ↔
      (∀ visible ps, Tried src dst ignoreCase visible → Succeeds src dst ignoreCase visible ps →
        ∃ p, p < 0x80000000 ∧ ps = List.range' p dst.chars.length) ∧
      (∀ p, First src dst ignoreCase p → ∃ rest, Tried src dst ignoreCase (p :: rest)) ∧
      ∀ visible, Tried src dst ignoreCase visible → ¬ Overruns src dst ignoreCase visible := by
  have outcome := scan_outcome_whole src dst ignoreCase
  rw [← findSqlKeyWord_eq] at outcome
  constructor
  · intro searched
    refine ⟨fun visible ps tried succeeds => searched.contiguous tried succeeds, ?_, ?_⟩
    · -- The result is the position at which an attempt has succeeded.
      intro p first
      have found := searched.found p first
      obtain ⟨later, ps, tried, succeeds, same⟩ := outcome.succeeds p found (by omega)
      obtain ⟨q, qs, rest, rfl, rfl⟩ := succeeds.start
      have counted := counted_visible src 0 q ((From.suffix tried).subset List.mem_cons_self)
      obtain ⟨rfl, _⟩ := toInt_eq counted same.symm
      exact ⟨rest, tried⟩
    · intro visible tried overruns
      exact searched.ne_none (result_of_overruns tried overruns)
  · rintro ⟨contiguous, attempted, bounded⟩
    constructor
    · intro p first
      obtain ⟨rest, tried⟩ := attempted p first
      have succeeds := first.1.succeeds (From.suffix tried)
      obtain ⟨q, small, same⟩ := contiguous _ _ tried succeeds
      rw [result_of_succeeds tried succeeds, same, startOf_range' dst.some_ small]
      -- The position is the one that the attempt succeeded at.
      obtain ⟨_, _, _, begins, whole⟩ := succeeds.start
      obtain ⟨rfl, _⟩ := List.cons.inj whole
      have counted := counted_visible src 0 p ((From.suffix tried).subset List.mem_cons_self)
      have others := congrArg startOf (begins.symm.trans same)
      rw [startOf_range' dst.some_ small, startOf] at others
      rw [(toInt_eq counted others).1]
    · intro missing
      cases result : findSqlKeyWord src dst ignoreCase with
      | none =>
        obtain ⟨later, tried, overruns⟩ := outcome.overruns result
        exact absurd overruns (bounded later tried)
      | some v =>
        by_contra differ
        have other : v ≠ -1 := fun same => differ (by rw [same])
        obtain ⟨later, ps, tried, succeeds, _⟩ := outcome.succeeds v result other
        obtain ⟨p, _, rfl⟩ := contiguous later ps tried succeeds
        exact missing p (succeeds.occurs (From.suffix tried))

end Attempts

/-- `bbegin`. -/
def doubledLetter : Text := ⟨[98, 98, 101, 103, 105, 110], by decide⟩

/-- `begin`. -/
def beginWord : Keyword := ⟨[98, 101, 103, 105, 110], by decide, by decide, by decide⟩

/-- The letter at which an attempt fails is not tried as the first one of the next attempt. -/
theorem doubledLetter_missed :
    ¬ Searched doubledLetter beginWord false (findSqlKeyWord doubledLetter beginWord false) := by
  intro searched
  have result : findSqlKeyWord doubledLetter beginWord false = some (-1) := by decide
  have there : First doubledLetter beginWord false 1 := by
    refine ⟨⟨by decide, by decide, by decide, by decide⟩, ?_⟩
    intro q before occurs
    obtain rfl : q = 0 := by omega
    exact absurd (occurs.letters 1 (by decide)) (by decide)
  have found := searched.found 1 there
  rw [result] at found
  exact absurd (Option.some.inj found) (by decide)

end OneProxy.Tool
