import OneProxy.Sql.TokenizerLaws

/-! Where quoted texts end: at the first quote that is not doubled and not escaped, or elsewhere. -/

namespace OneProxy.Sql

open Lexing

/-! ## Where a quoted text should end -/

/-- What is behind the quote that ends a text: the first one not doubled and not escaped. -/
def behindQuote (q : UInt8) : Bytes → Option Bytes
  | [] => none
  | [c] => if c = q then some [] else none
  | c :: d :: rest =>
    if c = 92 then behindQuote q rest
    else if c = q then if d = q then behindQuote q rest else some (d :: rest)
    else behindQuote q (d :: rest)

/-- What stands directly before a place in a quoted text, as far as the scanner minds it. -/
inductive Before
  /-- An escaped single quote, that many times. -/
  | escapes (count : Nat)
  /-- A doubled single quote, of which the scanner has taken the first one for the end of a pair. -/
  | half

/--
The conditions under which the scanner ends a quoted text where it should.

The quote that ends it has no other quote directly behind it and no escaped single quote directly
before it. Between single quotes, an escaped one has no doubled quote directly behind it, and
several of them have no two quotes at all there. A doubled quote behind one escaped quote does no
harm only if the row of single quotes goes on in pairs up to a quote of another kind.
-/
def Clean (q : UInt8) : Before → Bytes → Bool
  | .escapes _, [] => true
  | .escapes count, [c] => c ≠ q || count = 0
  | .escapes count, c :: d :: rest =>
    if c = 92 then
      if d = 39 then Clean q (.escapes (count + 1)) rest else Clean q (.escapes 0) rest
    else if c = q then
      if d = q then
        if q ≠ 39 || count = 0 then Clean q (.escapes 0) rest
        else count = 1 && Clean q .half rest
      else count = 0 && !isQuote d
    else if isQuote c && isQuote d && q = 39 && 2 ≤ count then false
    else Clean q (.escapes 0) (d :: rest)
  | .half, [] => false
  | .half, [c] => isQuote c && c ≠ q
  | .half, c :: d :: rest =>
    if c = q then d = q && Clean q .half rest
    else isQuote c && Clean q (.escapes 0) (d :: rest)

variable {q c d x y : UInt8} {count : Nat} {chars body rest : Bytes}

/-- A character that is neither a quote nor a backslash. -/
def Plain (c : UInt8) : Prop := isQuote c = false ∧ c ≠ 92

theorem Plain.ne_quote (plain : Plain c) (quote : isQuote q = true) : c ≠ q := by
  rintro rfl
  exact absurd (quote.symm.trans plain.1) (by decide)

/-- A quote is no backslash. -/
theorem ne_backslash (quote : isQuote q = true) : q ≠ 92 := by
  rintro rfl
  exact absurd quote (by decide)

theorem noQuote_backslash : isQuote 92 = false := rfl

/-- What is behind the end is shorter than the text. -/
theorem length_behindQuote (found : behindQuote q body = some rest) :
    rest.length < body.length := by
  -- By the cases in which the end of the text is looked for.
  induction body using behindQuote.induct q generalizing rest with
  | case1 => cases found
  | case2 =>
    rw [behindQuote, if_pos rfl] at found
    cases found
    exact Nat.zero_lt_one
  | case3 c other =>
    rw [behindQuote, if_neg other] at found
    cases found
  | case4 d text ih =>
    rw [behindQuote, if_pos rfl] at found
    have shorter := ih found
    simp only [List.length_cons]
    omega
  | case5 text other ih =>
    rw [behindQuote, if_neg other, if_pos rfl, if_pos rfl] at found
    have shorter := ih found
    simp only [List.length_cons]
    omega
  | case6 d text other once =>
    rw [behindQuote, if_neg other, if_pos rfl, if_neg once] at found
    cases found
    exact Nat.lt_succ_self _
  | case7 c d text other inside ih =>
    rw [behindQuote, if_neg other, if_neg inside] at found
    have shorter := ih found
    simp only [List.length_cons] at shorter ⊢
    omega

/-- A character that is neither a backslash nor the quote does not matter. -/
theorem behindQuote_cons (other : c ≠ 92) (inside : c ≠ q) :
    behindQuote q (c :: rest) = behindQuote q rest := by
  cases rest with
  | nil => simp [behindQuote, inside]
  | cons d rest => rw [behindQuote, if_neg other, if_neg inside]

/-- Nor do several plain ones. -/
theorem behindQuote_run (quote : isQuote q = true) (plain : ∀ c ∈ chars, Plain c) :
    behindQuote q (chars ++ rest) = behindQuote q rest := by
  induction chars with
  | nil => rfl
  | cons c chars ih =>
    obtain ⟨here, later⟩ := List.forall_mem_cons.mp plain
    rw [List.cons_append, behindQuote_cons here.2 (here.ne_quote quote), ih later]

/-- A plain character ends what the scanner minds. -/
theorem clean_cons (quote : isQuote q = true) (plain : Plain c) :
    Clean q (.escapes count) (c :: rest) = Clean q (.escapes 0) rest := by
  have inside := plain.ne_quote quote
  cases rest with
  | nil => simp [Clean, inside]
  | cons d rest =>
    rw [Clean, if_neg plain.2, if_neg inside, plain.1]
    simp

/-- So do several of them. -/
theorem clean_run (quote : isQuote q = true) (plain : ∀ c ∈ chars, Plain c) (some_ : chars ≠ []) :
    Clean q (.escapes count) (chars ++ rest) = Clean q (.escapes 0) rest := by
  -- The induction is on the characters, none of which changes the count of escapes but to reset it.
  induction chars generalizing count with
  | nil => exact absurd rfl some_
  | cons c chars ih =>
    obtain ⟨here, later⟩ := List.forall_mem_cons.mp plain
    rw [List.cons_append, clean_cons quote here]
    cases chars with
    | nil => rfl
    | cons d chars => exact ih later (List.cons_ne_nil d chars)

namespace Scan

/-! ## Matches within quotes -/

section

attribute [local simp] pick longest ends rules quotedRules Pattern.text notNewline List.range
  List.range.loop noQuote_backslash

/-- An escaped single quote. -/
theorem pick_escapedQuote (rest : Bytes) :
    pick (rules .quoted) (92 :: 39 :: rest) = some (.more, 2) := by simp

/-- A backslash before any other character. -/
theorem pick_escape (other : c ≠ 39) (line : c ≠ 10) (rest : Bytes) :
    pick (rules .quoted) (92 :: c :: rest) = some (.toLast, 2) := by simp [other, line]

/-- A backslash at the end of a line. -/
theorem pick_backslash_newline (rest : Bytes) :
    pick (rules .quoted) (92 :: 10 :: rest) = some (.echo, 1) := by simp

/-- A backslash at the end of the text. -/
theorem pick_backslash : pick (rules .quoted) [92] = some (.echo, 1) := by simp

/-- Two quotes. -/
theorem pick_twoQuotes (first : isQuote x = true) (second : isQuote y = true) (rest : Bytes) :
    pick (rules .quoted) (x :: y :: rest) = some (.twoQuotes, 2) := by
  simp [first, second, ne_backslash first]

/-- One quote, with no other one behind it. -/
theorem pick_oneQuote (first : isQuote x = true) (alone : ∀ y ∈ rest.head?, isQuote y = false) :
    pick (rules .quoted) (x :: rest) = some (.oneQuote, 1) := by
  cases rest with
  | nil => simp [first, ne_backslash first]
  | cons y rest =>
    have second := alone y rfl
    simp [first, second, ne_backslash first]

attribute [local simp] initialRules Pattern.some_ Pattern.optional Rule.name Rule.dotted Rule.digits
  Rule.decimal Rule.scientific Rule.newline Rule.inName isDigit isAlpha isSpace in
/-- A quote that begins a quoted text. -/
theorem pick_quote (quote : isQuote q = true) (rest : Bytes) :
    pick (rules .initial) (q :: rest) = some (.quote, 1) := by
  have kinds : q = 34 ∨ q = 39 ∨ q = 96 := by simpa [isQuote, or_assoc] using quote
  rcases kinds with rfl | rfl | rfl
  · simp [isQuote]
  · simp [isQuote]
  · simp [isQuote]

end

/-- Plain characters, up to one that is not. -/
theorem pick_run (plain : ∀ c ∈ chars, Plain c) (some_ : chars ≠ [])
    (ends_ : ∀ c ∈ rest.head?, ¬ Plain c) :
    pick (rules .quoted) (chars ++ rest) = some (.toLast, chars.length) := by
  cases chars with
  | nil => exact absurd rfl some_
  | cons c chars =>
    have here := plain c List.mem_cons_self
    have taken : (c :: chars ++ rest).takeWhile (fun c => !isQuote c && c ≠ 92) = c :: chars := by
      rw [List.takeWhile_append_of_pos]
      · have stops : rest.takeWhile (fun c => !isQuote c && c ≠ 92) = [] := by
          cases rest with
          | nil => rfl
          | cons d rest =>
            have other := ends_ d rfl
            rw [List.takeWhile_cons_of_neg]
            simpa [Plain] using other
        rw [stops, List.append_nil]
      · intro d member
        have plainD := plain d member
        simp [plainD.1, plainD.2]
    -- The rule for plain characters takes all of them, and no other rule takes any.
    have many : longest (.many fun c => !isQuote c && c ≠ 92) (c :: chars ++ rest) =
        some (chars.length + 1) := by
      rw [longest, ends, taken]
      refine List.max?_eq_some_iff.mpr ⟨by simp, fun m member => ?_⟩
      exact Nat.le_of_lt_succ (List.mem_range.mp member)
    rw [List.cons_append] at many ⊢
    simp only [rules, quotedRules, List.cons_append, List.nil_append, pick, many]
    simp [longest, ends, Pattern.text, here.1, here.2]

/-! ## The end that the scanner finds -/

/-- A scanner within quotes comes to the match that leads back to `INITIAL`. -/
inductive Closes : Scan → Scan → Prop
  | last {s t : Scan} : s.rest ≠ [] → s.step = some t → t.state = .initial → Closes s t
  | more {s t u : Scan} : s.rest ≠ [] → s.step = some t → t.state = .quoted → Closes t u →
      Closes s u

/-- The scanner ends the quoted text with `found` behind it, or only with the text. -/
def EndsWith (s : Scan) (found : Option Bytes) : Prop :=
  ∀ rest, (∃ t, Closes s t ∧ t.rest = rest) ↔ found = some rest

variable {s t : Scan} {found : Option Bytes} {kept : Bytes} {store : TokenStore}

/-- A match within the quotes leaves open where they end. -/
theorem endsWith_more (some_ : s.rest ≠ []) (done : s.step = some t) (still : t.state = .quoted) :
    EndsWith s found ↔ EndsWith t found := by
  have same : ∀ u, Closes s u ↔ Closes t u := by
    intro u
    constructor
    · intro closes
      cases closes with
      | last _ done' initial =>
        obtain rfl := Option.some.inj (done.symm.trans done')
        exact absurd (still.symm.trans initial) (by decide)
      | more _ done' _ later =>
        obtain rfl := Option.some.inj (done.symm.trans done')
        exact later
    · exact Closes.more some_ done still
  simp only [EndsWith, same]

/-- The match that leads back to `INITIAL` is the end. -/
theorem endsWith_last (some_ : s.rest ≠ []) (done : s.step = some t)
    (initial : t.state = .initial) : EndsWith s found ↔ found = some t.rest := by
  have only : ∀ u, Closes s u → u = t := by
    intro u closes
    cases closes with
    | last _ done' _ => exact Option.some.inj (done'.symm.trans done)
    | more _ done' quoted _ =>
      obtain rfl := Option.some.inj (done.symm.trans done')
      exact absurd (quoted.symm.trans initial) (by decide)
  constructor
  · intro ends
    exact (ends t.rest).mp ⟨t, .last some_ done initial, rfl⟩
  · rintro rfl rest
    constructor
    · rintro ⟨u, closes, rfl⟩
      rw [only u closes]
    · intro same
      exact ⟨t, .last some_ done initial, Option.some.inj same⟩

/-- Where the text ends, no quote has ended the quoted text. -/
theorem endsWith_nil (empty : s.rest = []) : EndsWith s found ↔ found = none := by
  have never : ∀ t, ¬ Closes s t := by
    intro t closes
    cases closes with
    | last some_ => exact some_ empty
    | more some_ => exact some_ empty
  constructor
  · intro ends
    cases found with
    | none => rfl
    | some rest =>
      obtain ⟨t, closes, _⟩ := (ends rest).mpr rfl
      exact absurd closes (never t)
  · rintro rfl rest
    exact ⟨fun ⟨t, closes, _⟩ => absurd closes (never t), fun same => by cases same⟩

/-- What is behind the end is less than what was left. -/
theorem Closes.left_lt (closes : Closes s t) (quoted : s.state = .quoted) :
    t.rest.length < s.left := by
  -- What is left gets less with each step of the scanner, and with its last one too.
  induction closes with
  | @last s t some_ done initial =>
    rcases step_cases done with ⟨empty, -, -⟩ | ⟨action, n, p, -, -, -, positive, inside, rfl⟩
    · exact absurd empty some_
    · have length : (s.kept ++ s.rest.take n).length + (s.rest.drop n).length = s.left := by
        simp only [left, List.length_append, List.length_take, List.length_drop]
        omega
      have some_' : s.kept ++ s.rest.take n ≠ [] := by
        apply List.ne_nil_of_length_pos
        rw [List.length_append, List.length_take]
        omega
      rcases @left_act action s _ (s.rest.drop n) some_' with ⟨-, -, state, -⟩ | less
      · rw [state, quoted] at initial
        exact absurd initial (by decide)
      · rw [length] at less
        exact Nat.lt_of_le_of_lt (Nat.le_add_left _ _) less
  | @more s t u some_ done still later ih =>
    have fewer := (remaining_step done (Nat.le_refl s.left)).1
    have less := ih still
    omega

/-- Where no more is left than should be behind the end, the end has been missed. -/
theorem not_endsWith (quoted : s.state = .quoted) (missed : s.left ≤ rest.length) :
    ¬ EndsWith s (some rest) := by
  intro ends
  obtain ⟨t, closes, rfl⟩ := (ends rest).mpr rfl
  have less := closes.left_lt quoted
  omega

/-! ## One match -/

/-- A scanner within quotes. -/
abbrev within (q : UInt8) (kept rest : Bytes) (store : TokenStore) : Scan :=
  ⟨.quoted, q, kept, rest, store⟩

/-- The step of the match that is picked. -/
theorem step_within {action : Action} {n : Nat} (some_ : body ≠ [])
    (picked : pick (rules .quoted) body = some (action, n)) :
    (within q kept body store).step =
      some ((within q kept body store).act (kept ++ body.take n) (body.drop n) action) := by
  rw [step, if_neg some_, picked]
  rfl

/-- An escaped single quote is kept for the next match. -/
theorem endsWith_escapedQuote : EndsWith (within q kept (92 :: 39 :: rest) store) found ↔
    EndsWith (within q (kept ++ [92, 39]) rest store) found :=
  endsWith_more (List.cons_ne_nil _ _)
    (step_within (List.cons_ne_nil _ _) (pick_escapedQuote rest)) rfl

/-- Any other escaped character is taken as it is. -/
theorem endsWith_escape (other : c ≠ 39) (line : c ≠ 10) : ∃ store',
    (EndsWith (within q kept (92 :: c :: rest) store) found ↔
      EndsWith (within q [] rest store') found) :=
  ⟨_, endsWith_more (List.cons_ne_nil _ _)
    (step_within (List.cons_ne_nil _ _) (pick_escape other line rest)) rfl⟩

/-- A backslash at the end of a line is left out. -/
theorem endsWith_backslash_newline : EndsWith (within q kept (92 :: 10 :: rest) store) found ↔
    EndsWith (within q [] (10 :: rest) store) found :=
  endsWith_more (List.cons_ne_nil _ _)
    (step_within (List.cons_ne_nil _ _) (pick_backslash_newline rest)) rfl

/-- So is one at the end of the text. -/
theorem endsWith_backslash : EndsWith (within q kept [92] store) found ↔ found = none :=
  (endsWith_more (List.cons_ne_nil _ _)
    (step_within (List.cons_ne_nil _ _) pick_backslash) rfl).trans (endsWith_nil rfl)

/-- Plain characters are taken as they are. -/
theorem endsWith_run (plain : ∀ c ∈ chars, Plain c) (some_ : chars ≠ [])
    (ends_ : ∀ c ∈ rest.head?, ¬ Plain c) : ∃ store',
      (EndsWith (within q kept (chars ++ rest) store) found ↔
        EndsWith (within q [] rest store') found) := by
  have more : chars ++ rest ≠ [] := List.append_ne_nil_of_left_ne_nil some_ rest
  refine ⟨store.appendTokenToLast (kept ++ chars), ?_⟩
  rw [endsWith_more more (step_within more (pick_run plain some_ ends_)) rfl]
  simp [act]

/-- A single quote character that is no end: of another kind, or with something kept before it. -/
theorem endsWith_otherQuote (quote : isQuote x = true)
    (alone : ∀ y ∈ rest.head?, isQuote y = false) (other : (kept ++ [x]).head? ≠ some q) :
    ∃ store', (EndsWith (within q kept (x :: rest) store) found ↔
      EndsWith (within q [] rest store') found) := by
  have done : (within q kept (x :: rest) store).step =
      some ((within q kept (x :: rest) store).act (kept ++ [x]) rest .oneQuote) :=
    step_within (List.cons_ne_nil _ _) (pick_oneQuote quote alone)
  rw [act, if_neg other] at done
  exact ⟨_, endsWith_more (List.cons_ne_nil _ _) done rfl⟩

/-- A single quote character that is the end. -/
theorem endsWith_quote (quote : isQuote q = true) (alone : ∀ y ∈ rest.head?, isQuote y = false) :
    EndsWith (within q [] (q :: rest) store) found ↔ found = some rest := by
  have done : (within q [] (q :: rest) store).step =
      some ((within q [] (q :: rest) store).act [q] rest .oneQuote) :=
    step_within (List.cons_ne_nil _ _) (pick_oneQuote quote alone)
  have own : ([q] : Bytes).head? = some (within q [] (q :: rest) store).quoteChar := rfl
  rw [act, if_pos own] at done
  exact endsWith_last (List.cons_ne_nil _ _) done rfl

/-- A doubled quote is taken as it is. -/
theorem endsWith_doubled (quote : isQuote q = true) : ∃ store',
    (EndsWith (within q [] (q :: q :: rest) store) found ↔
      EndsWith (within q [] rest store') found) := by
  have done : (within q [] (q :: q :: rest) store).step =
      some ((within q [] (q :: q :: rest) store).act [q, q] rest .twoQuotes) :=
    step_within (List.cons_ne_nil _ _) (pick_twoQuotes quote quote rest)
  rw [act, if_pos ⟨rfl, rfl⟩] at done
  exact ⟨_, endsWith_more (List.cons_ne_nil _ _) done rfl⟩

/-- Of two quote characters that are no doubled quote, all but the first are scanned again. -/
theorem endsWith_twoQuotes (first : isQuote x = true) (second : isQuote y = true)
    (other : ¬ ((kept ++ [x, y])[0]? = (kept ++ [x, y])[1]? ∧ (kept ++ [x, y])[1]? = some q)) :
    ∃ store', (EndsWith (within q kept (x :: y :: rest) store) found ↔
      EndsWith (within q [] ((kept ++ [x, y]).drop 1 ++ rest) store') found) := by
  have done : (within q kept (x :: y :: rest) store).step =
      some ((within q kept (x :: y :: rest) store).act (kept ++ [x, y]) rest .twoQuotes) :=
    step_within (List.cons_ne_nil _ _) (pick_twoQuotes first second rest)
  rw [act, if_neg other] at done
  exact ⟨_, endsWith_more (List.cons_ne_nil _ _) done rfl⟩

/-! ## Escaped single quotes that are kept -/

/-- Escaped single quotes, that many times. -/
def escaped (count : Nat) : Bytes := (List.replicate count [92, 39]).flatten

theorem escaped_succ (count : Nat) : escaped (count + 1) = 92 :: 39 :: escaped count := rfl

theorem escaped_append (count : Nat) : escaped count ++ [92, 39] = escaped (count + 1) := by
  rw [escaped, escaped, List.replicate_succ', List.flatten_append, List.flatten_singleton]

/-- Escaped single quotes are kept, behind those that are. -/
theorem endsWith_escaped (before more : Nat) :
    EndsWith (within q (escaped before) (escaped more ++ rest) store) found ↔
      EndsWith (within q (escaped (before + more)) rest store) found := by
  induction more generalizing before with
  | zero => exact Iff.rfl
  | succ more ih =>
    rw [escaped_succ, List.cons_append, List.cons_append, endsWith_escapedQuote, escaped_append,
      ih, Nat.add_right_comm, Nat.add_assoc]

/-- Before two quote characters, all that is kept is scanned again but for the first backslash. -/
theorem endsWith_rescan (first : isQuote x = true) (second : isQuote y = true) (count : Nat) :
    ∃ store', (EndsWith (within q (escaped (count + 1)) (x :: y :: rest) store) found ↔
      EndsWith (within q [] (39 :: (escaped count ++ x :: y :: rest)) store') found) := by
  have other : ¬ ((escaped (count + 1) ++ [x, y])[0]? = (escaped (count + 1) ++ [x, y])[1]? ∧
      (escaped (count + 1) ++ [x, y])[1]? = some q) := by
    rw [escaped_succ]
    simp
  obtain ⟨store', same⟩ := @endsWith_twoQuotes q x y rest found _ store first second other
  refine ⟨store', same.trans ?_⟩
  rw [escaped_succ]
  simp

/-- Between other quotes the escaped ones are taken one by one, and the two characters remain. -/
theorem endsWith_taken (kind : q ≠ 39) (first : isQuote x = true) (second : isQuote y = true)
    (count : Nat) : ∃ store', (EndsWith (within q (escaped count) (x :: y :: rest) store) found ↔
      EndsWith (within q [] (x :: y :: rest) store') found) := by
  induction count generalizing store with
  | zero => exact ⟨store, Iff.rfl⟩
  | succ count ih =>
    obtain ⟨store₁, rescanned⟩ := @endsWith_rescan q x y rest found store first second count
    cases count with
    | zero =>
      -- The single quote and the first character are two quotes, and no doubled one.
      have other : ¬ (([] ++ [39, x])[0]? = ([] ++ [39, x])[1]? ∧
          ([] ++ [39, x])[1]? = some q) := by
        rintro ⟨same, own⟩
        simp only [List.nil_append, List.getElem?_cons_zero, List.getElem?_cons_succ] at same own
        exact kind (Option.some.inj (own.symm.trans same.symm))
      obtain ⟨store₂, pushed⟩ :=
        @endsWith_twoQuotes q 39 x (y :: rest) found [] store₁ rfl first other
      exact ⟨store₂, rescanned.trans pushed⟩
    | succ count =>
      -- The single quote stands alone, before the backslash of the next escaped one.
      have alone : ∀ z ∈ (escaped (count + 1) ++ x :: y :: rest).head?, isQuote z = false := by
        intro z head
        obtain rfl := Option.some.inj head
        rfl
      obtain ⟨store₂, single⟩ := @endsWith_otherQuote q 39 _ found [] store₁ rfl alone
        (fun same => kind (Option.some.inj same).symm)
      obtain ⟨store₃, later⟩ := @ih store₂
      refine ⟨store₃, rescanned.trans (single.trans (Iff.trans ?_ later))⟩
      have kept := @endsWith_escaped q (x :: y :: rest) found store₂ 0 (count + 1)
      rw [Nat.zero_add] at kept
      exact kept

/-! ## The two ends compared -/

/-- The scanner ends a text where it should exactly if the text is clean, in every situation. -/
structure Told (q : UInt8) (body : Bytes) : Prop where
  escapes : ∀ count store, EndsWith (within q (escaped count) body store) (behindQuote q body) ↔
    Clean q (.escapes count) body = true
  half : q = 39 → ∀ store, EndsWith (within q [] (39 :: body) store) (behindQuote q body) ↔
    Clean q .half body = true

/-- A backslash. -/
theorem escapes_backslash (quote : isQuote q = true)
    (shorter : ∀ body', body'.length < (92 :: body).length → Told q body') (count : Nat)
    (store : TokenStore) :
    EndsWith (within q (escaped count) (92 :: body) store) (behindQuote q (92 :: body)) ↔
      Clean q (.escapes count) (92 :: body) = true := by
  cases body with
  | nil =>
    have other := ne_backslash quote
    rw [endsWith_backslash]
    simp [behindQuote, Clean, other.symm]
  | cons c rest =>
    have skipped : behindQuote q (92 :: c :: rest) = behindQuote q rest := by
      rw [behindQuote, if_pos rfl]
    rw [skipped, Clean, if_pos rfl]
    have ih := shorter rest (by simp only [List.length_cons]; omega)
    by_cases single : c = 39
    · subst single
      rw [if_pos rfl, endsWith_escapedQuote, escaped_append]
      exact ih.escapes _ _
    · rw [if_neg single]
      by_cases newline : c = 10
      · subst newline
        -- The newline is scanned again, as the beginning of plain characters.
        have plain : Plain 10 := ⟨rfl, by decide⟩
        have ih' := shorter (10 :: rest) (Nat.lt_succ_self _)
        rw [endsWith_backslash_newline, ← behindQuote_cons plain.2 (plain.ne_quote quote),
          ← @clean_cons q 10 0 rest quote plain]
        exact ih'.escapes 0 store
      · obtain ⟨store', same⟩ := @endsWith_escape q c rest (behindQuote q rest) (escaped count)
          store single newline
        rw [same]
        exact ih.escapes 0 store'

/-- A plain character. -/
theorem escapes_plain (quote : isQuote q = true) (plain : Plain c)
    (shorter : ∀ body', body'.length < (c :: body).length → Told q body') (count : Nat)
    (store : TokenStore) :
    EndsWith (within q (escaped count) (c :: body) store) (behindQuote q (c :: body)) ↔
      Clean q (.escapes count) (c :: body) = true := by
  -- All plain characters up to the next one that is not are taken at once.
  have parts : body = body.takeWhile (fun c => !isQuote c && c ≠ 92) ++
      body.dropWhile fun c => !isQuote c && c ≠ 92 := List.takeWhile_append_dropWhile.symm
  have plains : ∀ d ∈ c :: body.takeWhile (fun c => !isQuote c && c ≠ 92), Plain d := by
    intro d member
    rcases List.mem_cons.mp member with rfl | later
    · exact plain
    · simpa [Plain] using List.all_eq_true.mp List.all_takeWhile d later
  have stops : ∀ d ∈ (body.dropWhile fun c => !isQuote c && c ≠ 92).head?, ¬ Plain d := by
    intro d head plainD
    have fails := List.head?_dropWhile_not (fun c => !isQuote c && c ≠ 92) body
    rw [Option.mem_def.mp head] at fails
    simp [plainD.1, plainD.2] at fails
  have fewer : (body.dropWhile fun c => !isQuote c && c ≠ 92).length < (c :: body).length :=
    Nat.lt_succ_of_le (List.dropWhile_sublist _).length_le
  have ih := shorter _ fewer
  rw [parts, ← List.cons_append, behindQuote_run quote plains,
    clean_run quote plains (List.cons_ne_nil _ _)]
  obtain ⟨store', same⟩ := @endsWith_run q _ _ (behindQuote q (body.dropWhile fun c =>
    !isQuote c && c ≠ 92)) (escaped count) store plains (List.cons_ne_nil _ _) stops
  rw [same]
  exact ih.escapes 0 store'

/-- A quote character with no other one behind it. -/
theorem escapes_single (quote : isQuote q = true) (first : isQuote x = true)
    (alone : ∀ y ∈ body.head?, isQuote y = false) (ih : Told q body) (count : Nat)
    (store : TokenStore) :
    EndsWith (within q (escaped count) (x :: body) store) (behindQuote q (x :: body)) ↔
      Clean q (.escapes count) (x :: body) = true := by
  by_cases own : x = q
  · subst own
    -- The text ends here, and is clean if nothing is kept.
    have ends : behindQuote x (x :: body) = some body := by
      cases body with
      | nil => simp [behindQuote]
      | cons d rest =>
        have differ : d ≠ x := by
          rintro rfl
          exact absurd (quote.symm.trans (alone d rfl)) (by decide)
        rw [behindQuote, if_neg (ne_backslash quote), if_pos rfl, if_neg differ]
    have clean : Clean x (.escapes count) (x :: body) = decide (count = 0) := by
      cases body with
      | nil => simp [Clean]
      | cons d rest =>
        have noQuote := alone d rfl
        have differ : d ≠ x := by
          rintro rfl
          exact absurd (quote.symm.trans noQuote) (by decide)
        rw [Clean, if_neg (ne_backslash quote), if_pos rfl, if_neg differ, noQuote]
        simp
    rw [ends, clean, decide_eq_true_iff]
    cases count with
    | zero => exact iff_of_true ((endsWith_quote quote alone).mpr rfl) rfl
    | succ count =>
      obtain ⟨store', same⟩ := @endsWith_otherQuote x x body (some body) (escaped (count + 1)) store
        quote alone (fun head => ne_backslash quote (Option.some.inj head).symm)
      rw [same]
      exact iff_of_false (not_endsWith rfl (by simp [left])) (Nat.succ_ne_zero count)
  · have other : (escaped count ++ [x]).head? ≠ some q := by
      cases count with
      | zero => exact fun same => own (Option.some.inj same)
      | succ count => exact fun head => ne_backslash quote (Option.some.inj head).symm
    obtain ⟨store', same⟩ := @endsWith_otherQuote q x body (behindQuote q body) (escaped count)
      store first alone other
    have clean : Clean q (.escapes count) (x :: body) = Clean q (.escapes 0) body := by
      cases body with
      | nil => simp [Clean, own]
      | cons d rest =>
        rw [Clean, if_neg (ne_backslash first), if_neg own, alone d rfl]
        simp
    rw [behindQuote_cons (ne_backslash first) own, clean, same]
    exact ih.escapes 0 store'

/-- Of two quote characters with nothing kept, the first one is taken, or both are if doubled. -/
theorem unkept_two (quote : isQuote q = true) (first : isQuote x = true) (second : isQuote y = true)
    (ih : Told q (y :: rest)) (ih' : Told q rest) (store : TokenStore) :
    EndsWith (within q [] (x :: y :: rest) store) (behindQuote q (x :: y :: rest)) ↔
      Clean q (.escapes 0) (x :: y :: rest) = true := by
  by_cases own : x = q
  · subst own
    by_cases double : y = x
    · subst double
      obtain ⟨store', same⟩ := @endsWith_doubled y rest (behindQuote y rest) store quote
      rw [behindQuote, if_neg (ne_backslash quote), if_pos rfl, if_pos rfl, same, Clean,
        if_neg (ne_backslash quote), if_pos rfl, if_pos rfl, if_pos (by simp)]
      exact ih'.escapes 0 store'
    · -- The text ends here, but the scanner takes the quote and goes on.
      have other : ¬ (([] ++ [x, y])[0]? = ([] ++ [x, y])[1]? ∧ ([] ++ [x, y])[1]? = some x) :=
        fun both => double (Option.some.inj both.2)
      obtain ⟨store', same⟩ := @endsWith_twoQuotes x x y rest (some (y :: rest)) [] store first
        second other
      rw [behindQuote, if_neg (ne_backslash quote), if_pos rfl, if_neg double, same, Clean,
        if_neg (ne_backslash quote), if_pos rfl, if_neg double, second]
      exact iff_of_false (not_endsWith rfl (by simp [left])) (by simp)
  · have other : ¬ (([] ++ [x, y])[0]? = ([] ++ [x, y])[1]? ∧ ([] ++ [x, y])[1]? = some q) := by
      rintro ⟨same, second⟩
      exact own (Option.some.inj (same.trans second))
    obtain ⟨store', same⟩ := @endsWith_twoQuotes q x y rest (behindQuote q (y :: rest)) [] store
      first second other
    have clean : Clean q (.escapes 0) (x :: y :: rest) = Clean q (.escapes 0) (y :: rest) := by
      rw [Clean, if_neg (ne_backslash first), if_neg own, if_neg (by simp)]
    rw [behindQuote_cons (ne_backslash first) own, same, clean]
    exact ih.escapes 0 store'

/-- Between other quotes than single ones, it makes no difference that something is kept. -/
theorem clean_two_of_ne (kind : q ≠ 39) (first : isQuote x = true) (second : isQuote y = true) :
    Clean q (.escapes count) (x :: y :: rest) = Clean q (.escapes 0) (x :: y :: rest) := by
  rw [Clean, Clean, if_neg (ne_backslash first), if_neg (ne_backslash first)]
  simp [kind, second]

/-- Two quote characters. -/
theorem escapes_two (quote : isQuote q = true) (first : isQuote x = true)
    (second : isQuote y = true) (ih : Told q (y :: rest)) (ih' : Told q rest) (count : Nat)
    (store : TokenStore) :
    EndsWith (within q (escaped count) (x :: y :: rest) store) (behindQuote q (x :: y :: rest)) ↔
      Clean q (.escapes count) (x :: y :: rest) = true := by
  by_cases kind : q = 39
  · subst kind
    cases count with
    | zero => exact unkept_two quote first second ih ih' store
    | succ count =>
      obtain ⟨store₁, rescanned⟩ := @endsWith_rescan 39 x y rest (behindQuote 39 (x :: y :: rest))
        store first second count
      rw [rescanned]
      cases count with
      | zero =>
        show EndsWith (within 39 [] (39 :: x :: y :: rest) store₁) _ ↔ _
        by_cases own : x = 39
        · subst own
          obtain ⟨store₂, doubled⟩ := @endsWith_doubled 39 (y :: rest)
            (behindQuote 39 (39 :: y :: rest)) store₁ rfl
          rw [doubled]
          by_cases double : y = 39
          · -- The scanner is one quote behind from here on.
            subst double
            exact ih'.half rfl store₂
          · rw [behindQuote, if_neg (by decide), if_pos rfl, if_neg double, Clean,
              if_neg (by decide), if_pos rfl, if_neg double]
            exact iff_of_false (not_endsWith rfl (by simp [left])) (by simp)
        · have other : ¬ (([] ++ [39, x])[0]? = ([] ++ [39, x])[1]? ∧
              ([] ++ [39, x])[1]? = some 39) :=
            fun both => own (Option.some.inj both.2)
          obtain ⟨store₂, pushed⟩ := @endsWith_twoQuotes 39 39 x (y :: rest)
            (behindQuote 39 (x :: y :: rest)) [] store₁ rfl first other
          have clean : Clean 39 (.escapes 1) (x :: y :: rest) =
              Clean 39 (.escapes 0) (x :: y :: rest) := by
            rw [Clean, Clean, if_neg (ne_backslash first), if_neg own, if_neg (ne_backslash first),
              if_neg own]
            simp
          rw [pushed, clean]
          exact unkept_two quote first second ih ih' store₂
      | succ count =>
        -- The first escaped quote is taken for the end.
        have alone : ∀ z ∈ (escaped (count + 1) ++ x :: y :: rest).head?, isQuote z = false := by
          intro z head
          obtain rfl := Option.some.inj head
          rfl
        rw [endsWith_quote quote alone]
        refine iff_of_false (fun found => ?_) ?_
        · have shorter := length_behindQuote found
          rw [List.length_append] at shorter
          omega
        · by_cases own : x = 39
          · simp [Clean, own]
          · simp [Clean, own, ne_backslash first, first, second]
  · obtain ⟨store', same⟩ := @endsWith_taken q x y rest (behindQuote q (x :: y :: rest)) store kind
      first second count
    rw [same, clean_two_of_ne kind first second]
    exact unkept_two quote first second ih ih' store'

/-- A quote character. -/
theorem escapes_quote (quote : isQuote q = true) (first : isQuote x = true)
    (shorter : ∀ body', body'.length < (x :: body).length → Told q body') (count : Nat)
    (store : TokenStore) :
    EndsWith (within q (escaped count) (x :: body) store) (behindQuote q (x :: body)) ↔
      Clean q (.escapes count) (x :: body) = true := by
  have ih := shorter body (Nat.lt_succ_self _)
  by_cases alone : ∀ y ∈ body.head?, isQuote y = false
  · exact escapes_single quote first alone ih count store
  · cases body with
    | nil => exact absurd (by simp) alone
    | cons y rest =>
      have second : isQuote y = true := by simpa using alone
      exact escapes_two quote first second ih
        (shorter rest (by simp only [List.length_cons]; omega)) count store

/-- A text that should go on, and that the scanner ends before it, is not clean. -/
theorem not_endsWith_early {clean : Bool} (alone : ∀ y ∈ body.head?, isQuote y = false)
    (unclean : clean = false) (store : TokenStore) :
    EndsWith (within 39 [] (39 :: body) store) (behindQuote 39 body) ↔ clean = true := by
  rw [endsWith_quote rfl alone, unclean]
  refine iff_of_false (fun found => ?_) (by decide)
  exact absurd (length_behindQuote found) (Nat.lt_irrefl _)

/-- The scanner is one single quote behind. -/
theorem half_quote (shorter : ∀ body', body'.length < body.length → Told 39 body')
    (store : TokenStore) :
    EndsWith (within 39 [] (39 :: body) store) (behindQuote 39 body) ↔
      Clean 39 .half body = true := by
  cases body with
  | nil => exact not_endsWith_early (by simp) rfl store
  | cons c rest =>
    by_cases other : isQuote c = true
    · by_cases own : c = 39
      · -- The quote that is behind and this one are taken for a doubled one.
        subst own
        obtain ⟨store', doubled⟩ :=
          @endsWith_doubled 39 rest (behindQuote 39 (39 :: rest)) store rfl
        rw [doubled]
        cases rest with
        | nil =>
          rw [endsWith_nil rfl]
          exact iff_of_false (by simp [behindQuote]) (by decide)
        | cons d rest =>
          rw [behindQuote, if_neg (by decide), if_pos rfl, Clean, if_pos rfl]
          by_cases double : d = 39
          · subst double
            rw [if_pos rfl, decide_eq_true rfl, Bool.true_and]
            exact (shorter rest (by simp only [List.length_cons]; omega)).half rfl store'
          · rw [if_neg double, decide_eq_false double, Bool.false_and]
            exact iff_of_false (not_endsWith rfl (by simp [left])) (by decide)
      · -- A quote of another kind shows that the one behind stands alone.
        have noDouble : ¬ (([] ++ [39, c])[0]? = ([] ++ [39, c])[1]? ∧
            ([] ++ [39, c])[1]? = some 39) :=
          fun both => own (Option.some.inj both.2)
        obtain ⟨store', pushed⟩ := @endsWith_twoQuotes 39 39 c rest (behindQuote 39 (c :: rest)) []
          store rfl other noDouble
        have clean : Clean 39 .half (c :: rest) = Clean 39 (.escapes 0) (c :: rest) := by
          cases rest with
          | nil => simp [Clean, own, other]
          | cons d rest => simp [Clean, own, other, ne_backslash other]
        rw [pushed, clean]
        exact escapes_quote rfl other shorter 0 store'
    · have plainHead : ∀ y ∈ (c :: rest).head?, isQuote y = false := by
        intro y head
        obtain rfl := Option.some.inj head
        exact Bool.not_eq_true _ ▸ other
      refine not_endsWith_early plainHead ?_ store
      have differ : c ≠ 39 := by
        rintro rfl
        exact other rfl
      cases rest with
      | nil => simp [Clean, other]
      | cons d rest => simp [Clean, differ, other]

/-- The scanner ends a text where it should exactly if the text is clean. -/
theorem told (quote : isQuote q = true) (body : Bytes) : Told q body := by
  -- By strong induction on the length, since an escape or a doubled quote takes two characters.
  induction length : body.length using Nat.strong_induction_on generalizing body with
  | _ n ih =>
    subst length
    have shorter : ∀ body', body'.length < body.length → Told q body' :=
      fun body' less => ih body'.length less body' rfl
    refine ⟨fun count store => ?_, ?_⟩
    · cases body with
      | nil =>
        rw [endsWith_nil rfl]
        exact iff_of_true rfl (by rw [Clean])
      | cons c rest =>
        by_cases first : isQuote c = true
        · exact escapes_quote quote first shorter count store
        · by_cases slash : c = 92
          · subst slash
            exact escapes_backslash quote shorter count store
          · exact escapes_plain quote ⟨Bool.not_eq_true _ ▸ first, slash⟩ shorter count store
    · rintro rfl store
      exact half_quote shorter store

/-! ## What is behind the end -/

/-- The scanner does nothing more once there is no step. -/
theorem run_of_none (done : s.step = none) (fuel : Nat) : s.run fuel = s := by
  cases fuel with
  | zero => rfl
  | succ fuel => simp only [run, done]

/-- Matches in turn. -/
theorem run_add (first second : Nat) : s.run (first + second) = (s.run first).run second := by
  induction first generalizing s with
  | zero => rw [Nat.zero_add, run]
  | succ first ih =>
    rw [Nat.succ_add, run, run]
    cases done : s.step with
    | none => exact (run_of_none done second).symm
    | some t => exact ih

/-- Two numbers of matches that come to the end come to the same. -/
theorem run_unique {m n : Nat} (first : (s.run m).step = none) (second : (s.run n).step = none) :
    s.run m = s.run n := by
  rw [← run_of_none first n, ← run_add, Nat.add_comm, run_add, run_of_none second]

/-- The tokens when the text is scanned to its end. -/
def final (s : Scan) : TokenStore := (s.run (bound s.left)).store

/-- The bound is enough from anywhere. -/
theorem step_final (s : Scan) : (s.run (bound s.left)).step = none := by
  refine step_run (Nat.le_refl _) ?_
  have part : s.rest.length ≤ s.left := Nat.le_add_left _ _
  have one : (if s.state = .initial then 0 else 1) ≤ 1 := by split <;> omega
  have product : bound s.left = s.left * (s.left + 1) + 3 * s.left + 4 := by
    rw [bound]
    ring
  rw [remaining, product]
  omega

/-- Some matches on the way do not change what is there in the end. -/
theorem final_run (n : Nat) : (s.run n).final = s.final := by
  rw [final, final, ← run_add]
  refine congrArg store (run_unique ?_ (step_final s))
  rw [run_add]
  exact step_final _

/-- What leads to the end of a quoted text is some number of matches. -/
theorem Closes.exists_run (closes : Closes s t) : ∃ n, s.run n = t ∧ t.state = .initial := by
  induction closes with
  | @last s t _ done initial =>
    refine ⟨1, ?_, initial⟩
    simp only [run, done]
  | @more s t u _ done _ _ ih =>
    obtain ⟨n, reached, initial⟩ := ih
    refine ⟨n + 1, ?_, initial⟩
    simp only [run, done, reached]

/-- An action that has nothing to do with the inside of quotes. -/
def outside : Action → Bool
  | .more | .twoQuotes | .oneQuote => false
  | .start _ next | .goto next => next ≠ .quoted
  | _ => true

/-- Outside of quotes, all actions are of that kind. -/
theorem outside_rules {state : StartState} (other : state ≠ .quoted) :
    ∀ p ∈ rules state, outside p.2 = true := by
  have all : ∀ state, state ≠ .quoted → (rules state).all (fun p => outside p.2) = true := by
    intro state other
    cases state with
    | quoted => exact absurd rfl other
    | initial | comment | linecomment => decide
  exact fun p member => List.all_eq_true.mp (all state other) p member

/-- Only within quotes is anything kept. -/
theorem kept_step (done : s.step = some t) :
    t.state ≠ .quoted → t.kept = [] := by
  rcases step_cases done with ⟨-, -, rfl⟩ | ⟨action, n, p, -, member, -, -, -, rfl⟩
  · exact fun _ => rfl
  · intro other
    cases action with
    | more =>
      -- Nothing is kept outside of quotes, and `yymore` does not lead there.
      exact absurd (outside_rules other _ member) Bool.false_ne_true
    | twoQuotes | oneQuote =>
      simp only [act]
      split <;> rfl
    | token | start | toLast | goto | quote | name | ignore | echo => rfl

theorem kept_run (nothing : s.state ≠ .quoted → s.kept = []) (n : Nat) :
    (s.run n).state ≠ .quoted → (s.run n).kept = [] := by
  induction n generalizing s with
  | zero => exact nothing
  | succ n ih =>
    rw [run]
    cases done : s.step with
    | none => exact nothing
    | some t => exact ih (kept_step done)

/-- Two scanners that differ in the quote character at most, and not within quotes. -/
structure ButQuote (s t : Scan) : Prop where
  state : s.state = t.state
  kept : s.kept = t.kept
  rest : s.rest = t.rest
  store : s.store = t.store
  quoteChar : s.state = .quoted → s.quoteChar = t.quoteChar

/-- Outside of quotes, the quote character does not matter to an action. -/
theorem ButQuote.act (but : ButQuote s t) {action : Action} (out : outside action = true)
    (other : s.state ≠ .quoted) (yytext rest : Bytes) :
    ButQuote (s.act yytext rest action) (t.act yytext rest action) := by
  have elsewhere : ∀ {next : StartState} {P : Prop}, next ≠ .quoted → next = .quoted → P :=
    fun differ same => absurd same differ
  cases action with
  | more | twoQuotes | oneQuote => exact absurd out (by decide)
  | start tokenId next =>
    exact ⟨rfl, rfl, rfl, by simp only [Scan.act, but.store], elsewhere (of_decide_eq_true out)⟩
  | goto next => exact ⟨rfl, rfl, rfl, but.store, elsewhere (of_decide_eq_true out)⟩
  | quote => exact ⟨rfl, rfl, rfl, by simp only [Scan.act, but.store], fun _ => rfl⟩
  | token | toLast | name =>
    exact ⟨but.state, rfl, rfl, by simp only [Scan.act, but.store], elsewhere other⟩
  | ignore | echo => exact ⟨but.state, rfl, rfl, but.store, elsewhere other⟩

/-- So they stay alike. -/
theorem ButQuote.run (but : ButQuote s t) (n : Nat) : ButQuote (s.run n) (t.run n) := by
  induction n generalizing s t with
  | zero => exact but
  | succ n ih =>
    by_cases quoted : s.state = .quoted
    · -- Within quotes they are one and the same.
      have same : s = t := by
        cases s
        cases t
        simp only [Scan.mk.injEq]
        exact ⟨but.state, but.quoteChar quoted, but.kept, but.rest, but.store⟩
      rw [same]
      exact ⟨rfl, rfl, rfl, rfl, fun _ => rfl⟩
    · by_cases empty : s.rest = []
      · have empty' : t.rest = [] := but.rest ▸ empty
        by_cases initial : s.state = .initial
        · have done : s.step = none := step_eq_none_iff.mpr ⟨empty, initial⟩
          have done' : t.step = none := step_eq_none_iff.mpr ⟨empty', but.state ▸ initial⟩
          rw [run_of_none done, run_of_none done']
          exact but
        · have done : s.step = some { s with state := .initial, kept := [] } := by
            rw [Scan.step, if_pos empty, if_neg initial]
          have done' : t.step = some { t with state := .initial, kept := [] } := by
            rw [Scan.step, if_pos empty', if_neg (but.state ▸ initial)]
          simp only [Scan.run, done, done']
          have outside_ : StartState.initial ≠ .quoted := by decide
          exact ih ⟨rfl, rfl, but.rest, but.store, fun same => absurd same outside_⟩
      · obtain ⟨action, n, found, ⟨p, member, -⟩, -⟩ := picked empty
        have done : s.step = some (s.act (s.kept ++ s.rest.take n) (s.rest.drop n) action) := by
          rw [Scan.step, if_neg empty, found]
          rfl
        have done' : t.step = some (t.act (s.kept ++ s.rest.take n) (s.rest.drop n) action) := by
          rw [Scan.step, if_neg (but.rest ▸ empty), ← but.state, ← but.rest, found, but.kept]
          rfl
        simp only [Scan.run, done, done']
        exact ih (but.act (outside_rules quoted _ member) quoted _ _)

/-- Behind the end of a quoted text, the rest is scanned as a text of its own. -/
theorem Closes.final (closes : Closes s t) (nothing : t.kept = []) :
    s.final = parseToken t.store t.rest := by
  obtain ⟨n, rfl, initial⟩ := closes.exists_run
  rw [← final_run n, Scan.final, parseToken]
  have left_ : (s.run n).left = (s.run n).rest.length := by
    rw [left, nothing, List.length_nil, Nat.zero_add]
  have but : ButQuote (s.run n) (begin_ (s.run n).store (s.run n).rest) :=
    ⟨initial, nothing, rfl, rfl, fun quoted => absurd (initial.symm.trans quoted) (by decide)⟩
  rw [left_]
  exact (but.run _).store

end Scan

/-! ## The quoted texts of a text -/

/-- A scanner in `INITIAL` before a quote, with the quote character of an earlier text. -/
structure Opening where
  store : TokenStore
  quoteChar : UInt8
  quote : UInt8
  isQuote : isQuote quote = true
  body : Bytes

namespace Opening

/-- The scanner before the quote. -/
def scan (o : Opening) : Scan := ⟨.initial, o.quoteChar, [], o.quote :: o.body, o.store⟩

/-- Wherever in a text the scanner comes to a quote in `INITIAL`, it is such a scanner. -/
theorem exists_of_run (store : TokenStore) (text : Bytes) (n : Nat)
    (initial : ((Scan.begin_ store text).run n).state = .initial)
    (here : ((Scan.begin_ store text).run n).rest = c :: body) (quote : Sql.isQuote c = true) :
    ∃ o : Opening, o.scan = (Scan.begin_ store text).run n ∧ o.quote = c ∧ o.body = body := by
  have nothing := @Scan.kept_run (.begin_ store text) (fun _ => rfl) n (by rw [initial]; decide)
  refine ⟨⟨((Scan.begin_ store text).run n).store, ((Scan.begin_ store text).run n).quoteChar, c,
    quote, body⟩, ?_, rfl, rfl⟩
  generalize (Scan.begin_ store text).run n = s at initial here nothing
  cases s
  simp only at initial here nothing
  subst initial here nothing
  rfl

/-- The quoted text ends where it should, and what is behind it is scanned as a text of its own. -/
structure EndsRight (o : Opening) : Prop where
  ends : ∃ s, o.scan.step = some s ∧ s.state = .quoted ∧ s.EndsWith (behindQuote o.quote o.body)
  follows : ∀ s t, o.scan.step = some s → Scan.Closes s t →
    o.scan.final = parseToken t.store t.rest

/-- The quote leads into the quoted text. -/
theorem step_scan (o : Opening) : o.scan.step =
    some (Scan.within o.quote [] o.body (o.store.appendToken (Scan.quoteTokenId o.quote) [])) := by
  have found : pick (rules o.scan.state) o.scan.rest = some (.quote, 1) :=
    Scan.pick_quote o.isQuote o.body
  have some_ : o.scan.rest ≠ [] := List.cons_ne_nil _ _
  rw [Scan.step, if_neg some_, found]
  rfl

/-- A quoted text ends where it should exactly if it is clean. -/
theorem endsRight_iff (o : Opening) :
    o.EndsRight ↔ Clean o.quote (.escapes 0) o.body = true := by
  have told := ((Scan.told o.isQuote o.body).escapes 0
    (o.store.appendToken (Scan.quoteTokenId o.quote) []))
  constructor
  · rintro ⟨⟨s, done, -, ends⟩, -⟩
    obtain rfl := Option.some.inj (done.symm.trans o.step_scan)
    exact told.mp ends
  · intro clean
    refine ⟨⟨_, o.step_scan, rfl, told.mpr clean⟩, ?_⟩
    intro s t done closes
    obtain ⟨n, rfl, initial⟩ := closes.exists_run
    -- What was kept in front of the quote does not come into its text.
    have nothing : (s.run n).kept = [] := by
      refine Scan.kept_run (Scan.kept_step done) n ?_
      rw [initial]
      decide
    have first : o.scan.run 1 = s := by
      simp only [Scan.run, done]
    rw [← closes.final nothing, ← first, Scan.final_run]

/-- `'a'"b"`. -/
def quoteBehindQuote : Opening := ⟨.new, 0, 39, rfl, [97, 39, 34, 98, 34]⟩

/-- A single-quoted text with a double quote directly behind it is not ended. -/
theorem quoteBehindQuote_runsOn : ¬ ∀ o : Opening, o.EndsRight := by
  intro always
  obtain ⟨s, done, -, ends⟩ := (always quoteBehindQuote).ends
  obtain rfl := Option.some.inj (done.symm.trans quoteBehindQuote.step_scan)
  have clean := ((Scan.told rfl quoteBehindQuote.body).escapes 0 _).mp ends
  exact absurd clean (by decide)

end Opening

end OneProxy.Sql
