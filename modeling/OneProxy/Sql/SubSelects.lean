import OneProxy.Sql.Windows

/-! Which statements `handleSubQuery` takes out of a range of tokens. -/

namespace OneProxy.Sql

variable (ts : List SqlToken)

/--
The SELECTs that follow the braces which open at the beginning of a range and close at its end.
-/
def peeled (startBrace : Nat) : Nat → List (Nat × Nat)
  | 0 => []
  | endBrace + 1 =>
    if tokenId ts startBrace = some .obrace ∧ tokenId ts endBrace = some .cbrace then
      if tokenId ts (startBrace + 1) = some .sqlSelect then
        (startBrace + 1, endBrace) :: peeled (startBrace + 1) endBrace
      else peeled (startBrace + 1) endBrace
    else []

/-- The SELECTs that a walk over a range finds, with the number of tokens to look at. -/
def subSelectsFrom : Nat → Nat → Nat → Int → List (Nat × Nat)
  | 0, _, _, _ => []
  | count + 1, i, startBrace, braceCount =>
    if tokenId ts i = some .obrace then
      subSelectsFrom count (i + 1) (if braceCount = 0 then i else startBrace) (braceCount + 1)
    else if tokenId ts i = some .cbrace then
      (if braceCount = 1 then peeled ts startBrace (i + 1) else []) ++
        subSelectsFrom count (i + 1) startBrace (braceCount - 1)
    else subSelectsFrom count (i + 1) startBrace braceCount

/-- The ranges of the SELECTs that `handleSubQuery` finds. -/
def subSelects (substart subend : Nat) : List (Nat × Nat) :=
  subSelectsFrom ts (subend - substart) substart 0 0

variable {ts}

/-- A SELECT in braces, between two places. -/
structure InBraces (ts : List SqlToken) (start stop : Nat) (range : Nat × Nat) : Prop where
  lower : start < range.1
  order : range.1 < range.2
  upper : range.2 < stop
  select : tokenId ts range.1 = some .sqlSelect
  closed : tokenId ts range.2 = some .cbrace

/-- A place further out. -/
theorem InBraces.mono {start stop start' stop' : Nat} {range : Nat × Nat}
    (inner : InBraces ts start stop range) (lower : start' ≤ start) (upper : stop ≤ stop') :
    InBraces ts start' stop' range :=
  ⟨by have := inner.lower; omega, inner.order, by have := inner.upper; omega, inner.select,
    inner.closed⟩

/-- What is peeled is a SELECT in braces. -/
theorem inBraces_of_peeled {startBrace stop : Nat} (order : startBrace < stop)
    {range : Nat × Nat} (member : range ∈ peeled ts startBrace stop) :
    InBraces ts startBrace stop range := by
  induction stop generalizing startBrace with
  | zero => simp [peeled] at member
  | succ endBrace ih =>
    simp only [peeled] at member
    split at member
    · rename_i braces
      obtain ⟨opens, closes⟩ := braces
      -- The two braces differ, so there is a token after the first.
      have apart : startBrace ≠ endBrace := by
        intro same
        subst same
        rw [opens] at closes
        cases closes
      have deeper : range ∈ peeled ts (startBrace + 1) endBrace →
          InBraces ts startBrace (endBrace + 1) range := by
        intro inside
        by_cases more : startBrace + 1 < endBrace
        · exact (ih more inside).mono (by omega) (by omega)
        · have last : startBrace + 1 = endBrace := by omega
          subst last
          simp only [peeled, closes] at inside
          simp at inside
      split at member
      · rename_i select
        obtain first | later := List.mem_cons.mp member
        · subst first
          have before : startBrace + 1 ≠ endBrace := by
            intro same
            rw [same, closes] at select
            cases select
          exact ⟨by simp, by show startBrace + 1 < endBrace; omega, by simp, select, closes⟩
        · exact deeper later
      · exact deeper member
    · simp at member

/-- What a walk finds is a SELECT in braces within the range. -/
theorem inBraces_of_subSelectsFrom {start : Nat} (count : Nat) :
    ∀ (i startBrace : Nat) (c : Int), start ≤ i → (1 ≤ c → start ≤ startBrace ∧ startBrace < i) →
      ∀ range ∈ subSelectsFrom ts count i startBrace c, InBraces ts start (i + count) range := by
  -- The induction is on the tokens that are left; the invariant is where the outermost brace was
  -- opened.
  induction count with
  | zero => simp [subSelectsFrom]
  | succ count ih =>
    intro i startBrace c lower opened range member
    have shift : i + 1 + count = i + (count + 1) := by omega
    simp only [subSelectsFrom] at member
    split at member
    · have found := ih (i + 1) _ (c + 1) (by omega) (by
        intro deep
        split
        · omega
        · have := opened (by omega)
          omega) range member
      exact shift ▸ found
    · split at member
      · obtain here | later := List.mem_append.mp member
        · split at here
          · obtain ⟨lowerBrace, upperBrace⟩ := opened (by omega)
            exact (inBraces_of_peeled (by omega) here).mono lowerBrace (by omega)
          · simp at here
        · have found := ih (i + 1) startBrace (c - 1) (by omega) (by
            intro deep
            have := opened (by omega)
            omega) range later
          exact shift ▸ found
      · have found := ih (i + 1) startBrace c (by omega) (by
          intro deep
          have := opened deep
          omega) range member
        exact shift ▸ found

/-- What is found in a range is a SELECT in braces within it. -/
theorem inBraces_of_subSelects {start stop : Nat} {range : Nat × Nat}
    (member : range ∈ subSelects ts start stop) : InBraces ts start stop range := by
  have found := @inBraces_of_subSelectsFrom ts _ (stop - start) start 0 0 (Nat.le_refl _) (by omega)
    range member
  by_cases order : start ≤ stop
  · have last : start + (stop - start) = stop := by omega
    exact last ▸ found
  · -- Nothing is found in an empty range.
    rw [subSelects, Nat.sub_eq_zero_of_le (Nat.le_of_not_le order)] at member
    exact absurd member List.not_mem_nil

section

variable {sub : Parsing → Nat → Nat → Option Parsing}

/-- Parsing statements one after the other. -/
def parseAll (sub : Parsing → Nat → Nat → Option Parsing) (s : Parsing)
    (ranges : List (Nat × Nat)) :
    Option Parsing :=
  ranges.foldlM (fun s range => sub s range.1 range.2) s

theorem parseAll_cons (s : Parsing) (range : Nat × Nat) (ranges : List (Nat × Nat)) :
    parseAll sub s (range :: ranges) =
      (sub s range.1 range.2).bind fun s => parseAll sub s ranges := rfl

theorem parseAll_append (s : Parsing) (first second : List (Nat × Nat)) :
    parseAll sub s (first ++ second) =
      (parseAll sub s first).bind fun s => parseAll sub s second := by
  simp [parseAll, List.foldlM_append]

/-- The inner loop parses what is peeled, and reads no token that is not there. -/
theorem peelBraces_eq {stop : Nat} (inside : stop ≤ ts.length) :
    ∀ (s : Parsing) (startBrace : Nat),
      (startBrace < stop ∨ ∃ id, tokenId ts startBrace = some id ∧ id ≠ .obrace) →
      peelBraces ts sub s startBrace stop = parseAll sub s (peeled ts startBrace stop) := by
  -- The induction is on the end of the range, which goes down by one with each pair of braces.
  induction stop with
  | zero =>
    intro s startBrace there
    obtain impossible | ⟨id, there, other⟩ := there
    · omega
    · simp [peelBraces, peeled, there, other, parseAll]
  | succ endBrace ih =>
    intro s startBrace there
    have first : ∃ id, tokenId ts startBrace = some id := by
      obtain order | ⟨id, there, _⟩ := there
      · obtain ⟨t, _, id⟩ := @tokenId_lt ts startBrace (by omega)
        exact ⟨_, id⟩
      · exact ⟨id, there⟩
    obtain ⟨firstId, opens⟩ := first
    obtain ⟨last, _, closes⟩ := @tokenId_lt ts endBrace (by omega)
    simp only [peelBraces, peeled, opens, closes, Option.bind_eq_bind, Option.bind_some,
      Option.some.injEq]
    by_cases isOpen : firstId = .obrace
    · by_cases isClose : last.tokenId = .cbrace
      · subst isOpen
        have order : startBrace < endBrace := by
          obtain order | ⟨id, there, other⟩ := there
          · have apart : startBrace ≠ endBrace := by
              intro same
              rw [same, closes, isClose] at opens
              cases opens
            omega
          · rw [opens] at there
            exact absurd (Option.some.inj there).symm other
        obtain ⟨next, _, nextId⟩ := @tokenId_lt ts (startBrace + 1) (by omega)
        have deeper : ∀ s', peelBraces ts sub s' (startBrace + 1) endBrace =
            parseAll sub s' (peeled ts (startBrace + 1) endBrace) := by
          intro s'
          apply ih (by omega)
          by_cases more : startBrace + 1 < endBrace
          · exact Or.inl more
          · have same : startBrace + 1 = endBrace := by omega
            exact Or.inr ⟨_, same ▸ closes, by simp [isClose]⟩
        simp only [isClose, if_true, and_self, nextId, Option.bind_some, Option.some.injEq]
        split
        · simp only [parseAll_cons, deeper]
        · exact deeper s
      · simp [isOpen, isClose, parseAll]
    · simp [isOpen, parseAll]

/-- The loop parses what the walk finds, and reads no token that is not there. -/
theorem handleSubQueryFrom_eq (count : Nat) :
    ∀ (i startBrace : Nat) (c : Int) (s : Parsing), i + count ≤ ts.length →
      (1 ≤ c → startBrace < i) →
      handleSubQueryFrom ts sub count i startBrace c s =
        parseAll sub s (subSelectsFrom ts count i startBrace c) := by
  -- The induction follows the walk; where a brace is open, it was opened before.
  induction count with
  | zero =>
    intro i startBrace c s _ _
    rfl
  | succ count ih =>
    intro i startBrace c s inside opened
    obtain ⟨t, _, id⟩ := @tokenId_lt ts i (by omega)
    simp only [handleSubQueryFrom, subSelectsFrom, id, Option.bind_eq_bind, Option.bind_some,
      Option.some.injEq]
    split
    · apply ih _ _ _ _ (by omega)
      intro deep
      split
      · omega
      · have := opened (by omega)
        omega
    · split
      · have goesOn : ∀ s', handleSubQueryFrom ts sub count (i + 1) startBrace (c - 1) s' =
            parseAll sub s' (subSelectsFrom ts count (i + 1) startBrace (c - 1)) := by
          intro s'
          apply ih _ _ _ _ (by omega)
          intro deep
          have := opened (by omega)
          omega
        by_cases last : c = 1
        · have zero : c - 1 = 0 := by omega
          have before := opened (by omega)
          have within : i + 1 ≤ ts.length := by omega
          have nonempty : startBrace < i + 1 := by omega
          have peel := @peelBraces_eq ts sub _ within s startBrace (Or.inl nonempty)
          simp only [goesOn, if_pos zero, if_pos last, parseAll_append, peel]
        · have notZero : c - 1 ≠ 0 := by omega
          simp only [goesOn, if_neg notZero, if_neg last, List.nil_append]
      · apply ih _ _ _ _ (by omega)
        intro deep
        have := opened deep
        omega

/-- `handleSubQuery` parses the SELECTs in braces of its range, one after the other. -/
theorem handleSubQuery_eq (s : Parsing) {substart subend : Nat} (inside : subend ≤ ts.length) :
    handleSubQuery ts sub s substart subend = parseAll sub s (subSelects ts substart subend) := by
  by_cases order : substart ≤ subend
  · exact handleSubQueryFrom_eq _ substart 0 0 s (by omega) (by omega)
  · have empty : subend - substart = 0 := by omega
    simp [handleSubQuery, subSelects, empty, handleSubQueryFrom, subSelectsFrom, parseAll]

end

end OneProxy.Sql
