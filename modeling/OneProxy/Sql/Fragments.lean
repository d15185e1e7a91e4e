import Mathlib
import OneProxy.Sql.QuotedText

/-! Where a statement can be cut into parts that are scanned one after another. -/

namespace OneProxy.Sql

open Lexing

/-! ## Scanning alongside -/

/-- What relates two stores of tokens still does so when both get the same tokens or texts. -/
structure Respected (R : TokenStore → TokenStore → Prop) : Prop where
  appendToken : ∀ {store store'}, R store store' → ∀ tokenId text,
    R (store.appendToken tokenId text) (store'.appendToken tokenId text)
  appendTokenToLast : ∀ {store store'}, R store store' → ∀ text,
    R (store.appendTokenToLast text) (store'.appendTokenToLast text)

/-- Any two stores. -/
theorem respected_any : Respected fun _ _ => True :=
  ⟨fun _ _ _ => trivial, fun _ _ => trivial⟩

/-- Names that are appended respect what each token does. -/
theorem Respected.appendNames {R : TokenStore → TokenStore → Prop} (respected : Respected R)
    {store store' : TokenStore} (related : R store store') (names : List Bytes) :
    R (Scan.appendNames store names) (Scan.appendNames store' names) := by
  induction names generalizing store store' with
  | nil => exact related
  | cons name names ih =>
    have first := respected.appendToken related (tokenIdByName name) name
    cases names with
    | nil => exact first
    | cons next names => exact ih (respected.appendToken first .dot [46])

namespace Scan

/-- Two scanners at the same place, with related stores. -/
structure Along (R : TokenStore → TokenStore → Prop) (s t : Scan) : Prop where
  state : s.state = t.state
  quoteChar : s.quoteChar = t.quoteChar
  kept : s.kept = t.kept
  rest : s.rest = t.rest
  store : R s.store t.store

variable {R : TokenStore → TokenStore → Prop} {s t u : Scan} {store store' : TokenStore}
  {front back text : Bytes}

/-- An action keeps scanners at the same place. -/
theorem Along.act (along : Along R s t) (respected : Respected R) (yytext rest : Bytes)
    (action : Action) : Along R (s.act yytext rest action) (t.act yytext rest action) := by
  have related := along.store
  -- The cases are the actions: each does the same to both stores.
  cases action with
  | token tokenId =>
    exact ⟨along.state, along.quoteChar, rfl, rfl, respected.appendToken related _ _⟩
  | start tokenId next => exact ⟨rfl, along.quoteChar, rfl, rfl, respected.appendToken related _ _⟩
  | toLast =>
    exact ⟨along.state, along.quoteChar, rfl, rfl, respected.appendTokenToLast related _⟩
  | goto next => exact ⟨rfl, along.quoteChar, rfl, rfl, related⟩
  | quote => exact ⟨rfl, rfl, rfl, rfl, respected.appendToken related _ _⟩
  | more => exact ⟨along.state, along.quoteChar, rfl, rfl, related⟩
  | twoQuotes =>
    simp only [Scan.act, along.quoteChar]
    split
    · exact ⟨along.state, rfl, rfl, rfl, respected.appendTokenToLast related _⟩
    · exact ⟨along.state, rfl, rfl, rfl, respected.appendTokenToLast related _⟩
  | oneQuote =>
    simp only [Scan.act, along.quoteChar]
    split
    · exact ⟨rfl, rfl, rfl, rfl, related⟩
    · exact ⟨along.state, rfl, rfl, rfl, respected.appendTokenToLast related _⟩
  | name => exact ⟨along.state, along.quoteChar, rfl, rfl, respected.appendNames related _⟩
  | ignore | echo => exact ⟨along.state, along.quoteChar, rfl, rfl, related⟩

/-- Scanners at the same place take the same step, or none. -/
theorem Along.step (along : Along R s t) (respected : Respected R) :
    s.step = none ∧ t.step = none ∨
      ∃ s' t', s.step = some s' ∧ t.step = some t' ∧ Along R s' t' := by
  by_cases empty : s.rest = []
  · have empty' : t.rest = [] := along.rest ▸ empty
    rw [Scan.step, if_pos empty, Scan.step, if_pos empty', along.state]
    by_cases initial : t.state = .initial
    · rw [if_pos initial, if_pos initial]
      exact Or.inl ⟨rfl, rfl⟩
    · rw [if_neg initial, if_neg initial]
      exact Or.inr ⟨_, _, rfl, rfl, rfl, along.quoteChar, rfl, along.rest, along.store⟩
  · -- The same rule is picked, since the texts and the start conditions are the same.
    obtain ⟨action, n, found, _⟩ := picked empty
    have found' : pick (rules t.state) t.rest = some (action, n) := by
      rw [← along.state, ← along.rest, found]
    rw [Scan.step, if_neg empty, Scan.step, if_neg (along.rest ▸ empty), found, found',
      along.kept, along.rest]
    exact Or.inr ⟨_, _, rfl, rfl, along.act respected _ _ action⟩

/-- They stay at the same place. -/
theorem Along.run (along : Along R s t) (respected : Respected R) (fuel : Nat) :
    Along R (s.run fuel) (t.run fuel) := by
  induction fuel generalizing s t with
  | zero => exact along
  | succ fuel ih =>
    rw [Scan.run, Scan.run]
    rcases along.step respected with ⟨none_, none_'⟩ | ⟨s', t', some_, some_', next⟩
    · simp only [none_, none_']
      exact along
    · simp only [some_, some_']
      exact ih next

end Scan

/-- The same text keeps related stores related. -/
theorem Respected.parseToken {R : TokenStore → TokenStore → Prop} (respected : Respected R)
    {store store' : TokenStore} (related : R store store') (text : Bytes) :
    R (parseToken store text) (parseToken store' text) := by
  have start : Scan.Along R (.begin_ store text) (.begin_ store' text) :=
    ⟨rfl, rfl, rfl, rfl, related⟩
  exact (start.run respected _).store

namespace Scan

variable {R : TokenStore → TokenStore → Prop} {s t u : Scan} {store store' : TokenStore}
  {front back text : Bytes} {action : Action} {n : Nat}

/-! ## Matches up to a place -/

/-- Matches in turn, before the end of the text. -/
inductive Passes : Scan → Scan → Prop
  | refl {s : Scan} : Passes s s
  | step {s t u : Scan} : s.rest ≠ [] → s.step = some t → Passes t u → Passes s u

/-- What the scanner passes, it runs through. -/
theorem Passes.exists_run (passes : Passes s u) : ∃ n, s.run n = u := by
  induction passes with
  | refl => exact ⟨0, rfl⟩
  | step _ done _ ih =>
    obtain ⟨n, reached⟩ := ih
    refine ⟨n + 1, ?_⟩
    simp only [run, done, reached]

/-- The same matches, whatever the tokens are. -/
theorem Passes.along (passes : Passes s u) (along_ : Along R s t) (respected : Respected R) :
    ∃ u', Passes t u' ∧ Along R u u' := by
  induction passes generalizing t with
  | refl => exact ⟨t, .refl, along_⟩
  | @step s s' u some_ done _ ih =>
    rcases along_.step respected with ⟨none_, -⟩ | ⟨next, next', done', there, along'⟩
    · exact absurd (none_.symm.trans done) (by simp)
    · obtain rfl := Option.some.inj (done.symm.trans done')
      obtain ⟨u', passes, along⟩ := ih along'
      exact ⟨u', .step (fun empty => some_ (along_.rest.trans empty)) there passes, along⟩

/-! ## What is behind that place -/

/-- The scanner with more text behind its own. -/
def behind (s : Scan) (back : Bytes) : Scan := { s with rest := s.rest ++ back }

/-- An action does not see what lies behind its text. -/
theorem act_behind (s : Scan) (yytext rest back : Bytes) (action : Action) :
    (s.behind back).act yytext (rest ++ back) action = (s.act yytext rest action).behind back := by
  -- Only the actions of quoted text look at the text, at no more than its match.
  cases action with
  | twoQuotes =>
    by_cases pair : yytext[0]? = yytext[1]? ∧ yytext[1]? = some s.quoteChar
    · rw [act, act, if_pos pair]
      exact if_pos pair
    · rw [act, act, if_neg pair]
      refine (if_neg pair).trans ?_
      simp only [behind, List.append_assoc]
  | oneQuote =>
    by_cases ends_ : yytext.head? = some s.quoteChar
    · rw [act, act, if_pos ends_]
      exact if_pos ends_
    · rw [act, act, if_neg ends_]
      exact if_neg ends_
  | token | start | toLast | goto | quote | more | name | ignore | echo => rfl

/-- What is left is the end of what was there, with what was kept in front of it. -/
theorem rest_step (some_ : s.rest ≠ []) (done : s.step = some t) :
    ∃ k, t.rest = (s.kept ++ s.rest).drop k := by
  rcases step_cases done with ⟨empty, -, -⟩ | ⟨action, n, p, -, -, -, positive, le, rfl⟩
  · exact absurd empty some_
  have dropped : s.rest.drop n = (s.kept ++ s.rest).drop (s.kept.length + n) := by
    rw [List.drop_append, List.drop_of_length_le (Nat.le_add_right _ _), List.nil_append,
      Nat.add_sub_cancel_left]
  have most : (s.act (s.kept ++ s.rest.take n) (s.rest.drop n) action).rest = s.rest.drop n ∨
      (s.act (s.kept ++ s.rest.take n) (s.rest.drop n) action).rest =
        (s.kept ++ s.rest.take n).drop 1 ++ s.rest.drop n := by
    cases action with
    | twoQuotes =>
      rw [act]
      split
      · exact Or.inl rfl
      · exact Or.inr rfl
    | oneQuote =>
      rw [act]
      split <;> exact Or.inl rfl
    | token | start | toLast | goto | quote | more | name | ignore | echo => exact Or.inl rfl
  rcases most with same | same
  · exact ⟨_, same.trans dropped⟩
  · -- `yyless` gives back all but the first character.
    refine ⟨1, same.trans ?_⟩
    have long : 1 ≤ (s.kept ++ s.rest.take n).length := by
      rw [List.length_append, List.length_take]
      omega
    rw [← List.drop_append_of_le_length long, List.append_assoc, List.take_append_drop]

/-- As long as something is left, it ends as the text does. -/
theorem getLast?_step (some_ : s.rest ≠ []) (done : s.step = some t) (more : t.rest ≠ []) :
    t.rest.getLast? = s.rest.getLast? := by
  obtain ⟨k, same⟩ := rest_step some_ done
  have short : ¬ (s.kept ++ s.rest).length ≤ k := fun le =>
    more (same.trans (List.drop_of_length_le le))
  rw [same, List.getLast?_drop, if_neg short, List.getLast?_append_of_ne_nil _ some_]

end Scan

/-- No rule of `INITIAL` takes the end of a text together with what is behind it, nor two quotes. -/
def Apart (front back : Bytes) : Prop :=
  ∀ c ∈ front.getLast?, ∀ d ∈ back.head?,
    (∀ p ∈ initialRules, p.1.beside c d = false) ∧ (isQuote c && isQuote d) = false

instance (front back : Bytes) : Decidable (Apart front back) := by
  unfold Apart
  infer_instance

/-- An action that leaves the start condition as it is. -/
def keeps (action : Action) : Bool := action = .toLast || action = .echo

section

variable {front back : Bytes} {p : Pattern UInt8 × Action} {n : Nat}

/-- What a match takes of the text behind. -/
theorem exists_longer (inside : n ∈ ends p.1 (front ++ back)) (longer : front.length < n) :
    ∃ more, more ≠ [] ∧ Matches p.1 (front ++ more) ∧ more.head? = back.head? := by
  obtain ⟨le, matched⟩ := mem_ends_iff.mp inside
  rw [List.take_append, List.take_of_length_le (Nat.le_of_lt longer)] at matched
  rw [List.length_append] at le
  refine ⟨_, ?_, matched, ?_⟩
  · rw [← List.length_pos_iff, List.length_take]
    omega
  · rw [List.head?_take, if_neg (by omega)]

/-- No rule for one character goes on. -/
theorem not_one {class_ : UInt8 → Bool} {more : Bytes} (some_ : front ≠ []) (more_ : more ≠ []) :
    ¬ Matches (.one class_) (front ++ more) := by
  intro matched
  obtain ⟨c, -, same⟩ := matches_one.mp matched
  have length := congrArg List.length same
  rw [List.length_append, List.length_singleton] at length
  have first := List.length_pos_iff.mpr some_
  have second := List.length_pos_iff.mpr more_
  omega

/-- The last character of a match is behind the text, and the text before it. -/
theorem prefix_of_last {more u : Bytes} {c : UInt8} (more_ : more ≠ [])
    (same : front ++ more = u ++ [c]) : front <+: u := by
  rcases List.append_eq_append_iff.mp same with ⟨w, rfl, -⟩ | ⟨w, rfl, last⟩
  · exact List.prefix_append _ _
  · cases w with
    | nil => rw [List.append_nil]
    | cons d w =>
      -- The character and something behind it would both be one character.
      have length := congrArg List.length last
      have second := List.length_pos_iff.mpr more_
      simp only [List.length_append, List.length_cons, List.length_nil] at length
      omega

/-- A text of a comment without stars, or of some stars with other characters behind them. -/
def StaysInside (front : Bytes) : Prop :=
  (∀ c ∈ front, c ≠ 42) ∨
    ∃ u v, front = u ++ v ∧ u ≠ [] ∧ (∀ c ∈ u, c = 42) ∧ ∀ c ∈ v, c ≠ 42 ∧ c ≠ 47

/-- Whatever rule matches beyond a text within a comment, the text does not end the comment. -/
theorem staysInside_of_matches {more : Bytes} (some_ : front ≠ []) (more_ : more ≠ [])
    (member : p ∈ rules .comment) (matched : Matches p.1 (front ++ more)) :
    StaysInside front := by
  simp only [rules, commentRules, List.cons_append, List.nil_append, List.mem_cons,
    List.not_mem_nil, or_false] at member
  rcases member with rfl | rfl | rfl | rfl
  · left
    intro c there
    simpa using matches_many.mp matched c (List.mem_append_left _ there)
  · right
    obtain ⟨u, v, same, stars, others⟩ := matches_seq.mp matched
    obtain ⟨star, stars⟩ := matches_some_.mp stars
    rcases List.append_eq_append_iff.mp same with ⟨w, rfl, -⟩ | ⟨w, rfl, rfl⟩
    · refine ⟨front, [], by simp, some_, fun c there => ?_, by simp⟩
      simpa using stars c (List.mem_append_left _ there)
    · refine ⟨u, w, rfl, star, fun c there => by simpa using stars c there, fun c there => ?_⟩
      simpa using matches_many.mp others c (List.mem_append_left _ there)
  · right
    obtain ⟨u, v, same, stars, slash⟩ := matches_seq.mp matched
    obtain ⟨-, stars⟩ := matches_some_.mp stars
    obtain rfl := matches_text.mp slash
    -- The slash is behind the text, which is stars alone.
    obtain ⟨w, rfl⟩ := prefix_of_last more_ same
    refine ⟨front, [], by simp, some_, fun c there => ?_, by simp⟩
    simpa using stars c (List.mem_append_left _ there)
  · exact absurd matched (not_one some_ more_)

/-- A match within a comment that goes on behind a text: all of the text is taken. -/
theorem overlong_comment (some_ : front ≠ []) (member : p ∈ rules .comment)
    (inside : n ∈ ends p.1 (front ++ back)) (longer : front.length < n) :
    ∃ action, keeps action = true ∧
      pick (rules .comment) front = some (action, front.length) := by
  obtain ⟨more, more_, matched, -⟩ := exists_longer inside longer
  have texts := staysInside_of_matches some_ more_ member matched
  have whole : ∃ q ∈ rules .comment, q.2 = .toLast ∧ Matches q.1 front := by
    rcases texts with plain | ⟨u, v, rfl, star, stars, others⟩
    · refine ⟨_, List.mem_cons_self, rfl, matches_many.mpr fun c there => ?_⟩
      simpa using plain c there
    · refine ⟨_, List.mem_cons_of_mem _ List.mem_cons_self, rfl, ?_⟩
      refine .seq (matches_some_.mpr ⟨star, fun c there => ?_⟩) (.many fun c there => ?_)
      · simpa using stars c there
      · simpa using others c there
  obtain ⟨q, there, -, matched⟩ := whole
  obtain ⟨q, there, found, matched⟩ := pick_whole there matched
  refine ⟨q.2, ?_, found⟩
  simp only [rules, commentRules, List.cons_append, List.nil_append, List.mem_cons,
    List.not_mem_nil, or_false] at there
  rcases there with rfl | rfl | rfl | rfl
  · rfl
  · rfl
  · -- A slash behind stars would end the comment, but there is none.
    obtain ⟨u', v', same, stars', slash⟩ := matches_seq.mp matched
    obtain ⟨star', stars'⟩ := matches_some_.mp stars'
    obtain rfl := matches_text.mp slash
    rcases texts with plain | ⟨u, v, rfl, star, stars, others⟩
    · obtain ⟨c, first⟩ := List.exists_mem_of_ne_nil _ star'
      have starred := stars' c first
      exact absurd (by simpa using starred) (plain c (same ▸ List.mem_append_left _ first))
    · have slash : (47 : UInt8) ∈ u ++ v := same ▸ List.mem_append_right _ List.mem_cons_self
      rcases List.mem_append.mp slash with there | there
      · exact absurd (stars _ there) (by decide)
      · exact absurd rfl (others _ there).2
  · rfl

/-- The same within a comment up to the end of the line. -/
theorem overlong_linecomment (some_ : front ≠ []) (member : p ∈ rules .linecomment)
    (inside : n ∈ ends p.1 (front ++ back)) (longer : front.length < n) :
    ∃ action, keeps action = true ∧
      pick (rules .linecomment) front = some (action, front.length) := by
  obtain ⟨more, more_, matched, -⟩ := exists_longer inside longer
  have line : ∀ c ∈ front, c ≠ 10 := by
    simp only [rules, linecommentRules, List.cons_append, List.nil_append, List.mem_cons,
      List.not_mem_nil, or_false] at member
    rcases member with rfl | rfl | rfl
    · intro c there
      simpa [notNewline] using matches_many.mp matched c (List.mem_append_left _ there)
    · -- Only the carriage return before a line feed can be in the text.
      obtain ⟨u, v, same, first, last⟩ := matches_seq.mp matched
      obtain rfl := matches_text.mp last
      intro c there
      have member := (prefix_of_last more_ same).subset there
      rcases matches_alt.mp first with return_ | none_
      · obtain rfl := matches_text.mp return_
        obtain rfl := List.mem_singleton.mp member
        decide
      · obtain rfl := matches_nothing.mp none_
        exact absurd member List.not_mem_nil
    · exact absurd matched (not_one some_ more_)
  have whole : Matches (.many notNewline) front :=
    .many fun c there => by simpa [notNewline] using line c there
  obtain ⟨q, there, found, matched⟩ :=
    @pick_whole _ _ (rules .linecomment) front _ List.mem_cons_self whole
  refine ⟨q.2, ?_, found⟩
  simp only [rules, linecommentRules, List.cons_append, List.nil_append, List.mem_cons,
    List.not_mem_nil, or_false] at there
  rcases there with rfl | rfl | rfl
  · rfl
  · obtain ⟨u, v, same, -, last⟩ := matches_seq.mp matched
    obtain rfl := matches_text.mp last
    exact absurd rfl (line 10 (same ▸ List.mem_append_right _ List.mem_cons_self))
  · rfl

/-- The same within quotes, where no two quotes meet. -/
theorem overlong_quoted (some_ : front ≠ []) (apart : Apart front back)
    (member : p ∈ rules .quoted) (inside : n ∈ ends p.1 (front ++ back))
    (longer : front.length < n) : ∃ action, keeps action = true ∧
      pick (rules .quoted) front = some (action, front.length) := by
  obtain ⟨more, more_, matched, first⟩ := exists_longer inside longer
  have single : ∀ {c d : UInt8}, front ++ more = [c, d] → front = [c] ∧ more = [d] := by
    intro c d same
    have length := congrArg List.length same
    have first := List.length_pos_iff.mpr some_
    have second := List.length_pos_iff.mpr more_
    simp only [List.length_append, List.length_cons, List.length_nil] at length
    exact List.append_inj same (by simp only [List.length_cons, List.length_nil]; omega)
  have backslash : front = [92] → ∃ action, keeps action = true ∧
      pick (rules .quoted) front = some (action, front.length) := by
    rintro rfl
    exact ⟨.echo, rfl, Scan.pick_backslash⟩
  simp only [rules, quotedRules, List.cons_append, List.nil_append, List.mem_cons,
    List.not_mem_nil, or_false] at member
  rcases member with rfl | rfl | rfl | rfl | rfl | rfl
  · exact backslash (single (matches_text.mp matched)).1
  · -- Plain characters go on as such.
    refine ⟨.toLast, rfl, ?_⟩
    have plain : ∀ c ∈ front, Plain c := fun c there => by
      simpa [Plain] using matches_many.mp matched c (List.mem_append_left _ there)
    have found := @Scan.pick_run front [] plain some_ (by simp)
    rwa [List.append_nil] at found
  · obtain ⟨u, v, same, escape, other⟩ := matches_seq.mp matched
    obtain rfl := matches_text.mp escape
    obtain ⟨c, -, rfl⟩ := matches_one.mp other
    exact backslash (single same).1
  · obtain ⟨u, v, same, one, other⟩ := matches_seq.mp matched
    obtain ⟨c, quote, rfl⟩ := matches_one.mp one
    obtain ⟨d, quote', rfl⟩ := matches_one.mp other
    obtain ⟨rfl, rfl⟩ := single same
    have two := (apart c rfl d (first ▸ rfl)).2
    rw [quote, quote'] at two
    exact absurd two (by decide)
  · exact absurd matched (not_one some_ more_)
  · exact absurd matched (not_one some_ more_)

/-- Outside of `INITIAL`, a match that goes on behind a text leaves nothing of it. -/
theorem overlong {state : StartState} (other : state ≠ .initial) (some_ : front ≠ [])
    (apart : Apart front back) (member : p ∈ rules state) (inside : n ∈ ends p.1 (front ++ back))
    (longer : front.length < n) : ∃ action, keeps action = true ∧
      pick (rules state) front = some (action, front.length) := by
  cases state with
  | initial => exact absurd rfl other
  | comment => exact overlong_comment some_ member inside longer
  | linecomment => exact overlong_linecomment some_ member inside longer
  | quoted => exact overlong_quoted some_ apart member inside longer

/-- In `INITIAL`, no match goes on behind a text that what is behind is apart from. -/
theorem within_initial (some_ : front ≠ []) (apart : Apart front back)
    (member : p ∈ rules .initial) (inside : n ∈ ends p.1 (front ++ back)) :
    n ≤ front.length := by
  refine le_of_apart some_ (fun c last d first => ?_) inside
  rcases List.mem_append.mp member with rule | default
  · exact (apart c last d first).1 p rule
  · obtain rfl := List.mem_singleton.mp default
    rfl

end

/-! ## Scanning up to the end of a part -/

namespace Scan

variable {s t u : Scan} {store : TokenStore} {front back : Bytes}

/-- A step does not depend on what is behind, unless the text ends in a comment or in quotes. -/
theorem step_behind (some_ : s.rest ≠ []) (done : s.step = some t) (apart : Apart s.rest back)
    (goesOn : t.rest ≠ [] ∨ t.state = .initial) :
    (s.behind back).step = some (t.behind back) := by
  rcases step_cases done with ⟨empty, -, -⟩ | ⟨action, n, p, found, -, -, -, le, rfl⟩
  · exact absurd empty some_
  have within : ∀ p ∈ rules s.state, ∀ m ∈ ends p.1 (s.rest ++ back), m ≤ s.rest.length := by
    intro p member m inside
    by_cases initial : s.state = .initial
    · exact within_initial some_ apart (initial ▸ member) inside
    · -- Otherwise nothing would be left, and the comment or the quoted text would go on.
      by_contra longer
      obtain ⟨action', keep, found'⟩ :=
        overlong initial some_ apart member inside (Nat.lt_of_not_le longer)
      obtain ⟨rfl, rfl⟩ := Prod.mk.inj (Option.some.inj (found.symm.trans found'))
      rw [List.drop_of_length_le (Nat.le_refl _)] at goesOn
      cases action with
      | toLast | echo =>
        rcases goesOn with more | initial'
        · exact more rfl
        · exact initial initial'
      | token | start | goto | quote | more | twoQuotes | oneQuote | name | ignore =>
        exact absurd keep (by simp [keeps])
  have here : (s.behind back).rest ≠ [] := fun none_ => some_ (List.append_eq_nil_iff.mp none_).1
  have found' : pick (rules (s.behind back).state) (s.behind back).rest = some (action, n) :=
    (pick_append within).trans found
  rw [step, if_neg here, found', Option.map_some]
  refine congrArg some ?_
  simp only [behind]
  rw [List.take_append_of_le_length le, List.drop_append_of_le_length le]
  exact act_behind s _ _ _ action

/-- The same matches, with more text behind. -/
theorem Passes.behind (passes : Passes s u) (ended : u.rest = [] ∧ u.state = .initial)
    (apart : Apart s.rest back) : Passes (s.behind back) (u.behind back) := by
  induction passes with
  | refl => exact .refl
  | @step s t u some_ done passes ih =>
    have goesOn : t.rest ≠ [] ∨ t.state = .initial := by
      by_cases empty : t.rest = []
      · -- At the end of the text there are no more matches.
        cases passes with
        | refl => exact Or.inr ended.2
        | step some_' => exact absurd empty some_'
      · exact Or.inl empty
    have apart' : Apart t.rest back := by
      by_cases empty : t.rest = []
      · rw [empty]
        exact fun c last => absurd last (by simp)
      · intro c last
        exact apart c (getLast?_step some_ done empty ▸ last)
    refine .step (fun none_ => some_ (List.append_eq_nil_iff.mp none_).1) ?_ (ih ended apart')
    exact step_behind some_ done apart goesOn

/-- In `INITIAL`, what is left is scanned as a text of its own. -/
theorem Passes.final (passes : Passes s u) (fresh : s.state ≠ .quoted → s.kept = [])
    (initial : u.state = .initial) : s.final = parseToken u.store u.rest := by
  obtain ⟨n, rfl⟩ := passes.exists_run
  have nothing : (s.run n).kept = [] := by
    refine kept_run fresh n ?_
    rw [initial]
    decide
  rw [← final_run n, Scan.final, parseToken]
  have left_ : (s.run n).left = (s.run n).rest.length := by
    rw [left, nothing, List.length_nil, Nat.zero_add]
  -- From there the scan goes on as a new one does, but for the quote that is remembered.
  have but : ButQuote (s.run n) (begin_ (s.run n).store (s.run n).rest) :=
    ⟨initial, nothing, rfl, rfl, fun quoted => absurd (initial.symm.trans quoted) (by decide)⟩
  rw [left_]
  exact (but.run _).store

/-- A scan that has not begun has all of its text left. -/
theorem final_begin_ (store : TokenStore) (text : Bytes) :
    (begin_ store text).final = parseToken store text := by
  rw [final, left, begin_, List.length_nil, Nat.zero_add]
  rfl

end Scan

/-- A text at whose end the scanner is in `INITIAL`: no comment and no quoted text goes on. -/
def Ended (text : Bytes) : Prop :=
  ∃ s, Scan.Passes (.begin_ .new text) s ∧ s.rest = [] ∧ s.state = .initial

/-- Whether the end of the text is reached in `INITIAL`, with so many matches. -/
def Scan.reaches : Nat → Scan → Bool
  | 0, s => s.rest = [] && s.state = .initial
  | fuel + 1, s =>
    if s.rest = [] then s.state = .initial
    else
      match s.step with
      | none => false
      | some s => reaches fuel s

/-- What the scanner is computed to reach, it passes. -/
theorem Scan.passes_of_reaches {s : Scan} {fuel : Nat} (reached : s.reaches fuel = true) :
    ∃ u, Scan.Passes s u ∧ u.rest = [] ∧ u.state = .initial := by
  -- The fuel counts the steps that are tried.
  induction fuel generalizing s with
  | zero =>
    rw [reaches, Bool.and_eq_true, decide_eq_true_eq, decide_eq_true_eq] at reached
    exact ⟨s, .refl, reached⟩
  | succ fuel ih =>
    rw [reaches] at reached
    by_cases empty : s.rest = []
    · rw [if_pos empty, decide_eq_true_eq] at reached
      exact ⟨s, .refl, empty, reached⟩
    · rw [if_neg empty] at reached
      cases done : s.step with
      | none =>
        rw [done] at reached
        exact absurd reached Bool.false_ne_true
      | some t =>
        rw [done] at reached
        obtain ⟨u, passes, there⟩ := ih reached
        exact ⟨u, .step empty done passes, there⟩

/-- Every match lowers the bound, so that there are enough of them. -/
theorem Scan.Passes.reaches {s u : Scan} (passes : Scan.Passes s u)
    (ended : u.rest = [] ∧ u.state = .initial) {length fuel : Nat} (le : s.left ≤ length)
    (enough : s.remaining length ≤ fuel) : s.reaches fuel = true := by
  induction passes generalizing fuel with
  | refl => cases fuel <;> simp [Scan.reaches, ended.1, ended.2]
  | step some_ done _ ih =>
    obtain ⟨le', fewer⟩ := Scan.remaining_step done le
    cases fuel with
    | zero => omega
    | succ fuel =>
      rw [Scan.reaches, if_neg some_, done]
      exact ih ended le' (by omega)

/-- Whether a text is ended can be computed. -/
theorem ended_iff {text : Bytes} :
    Ended text ↔ (Scan.begin_ .new text).reaches (Scan.bound text.length) = true := by
  constructor
  · intro ended
    obtain ⟨s, passes, there⟩ := ended
    refine passes.reaches there (Nat.le_refl _) ?_
    have left_ : (Scan.begin_ .new text).left = text.length := Nat.zero_add _
    -- The bound is the one with which every text is scanned.
    have product : Scan.bound text.length =
        text.length * (text.length + 1) + 3 * text.length + 4 := by
      rw [Scan.bound]
      ring
    rw [product, Scan.remaining, left_]
    simp only [Scan.begin_, if_pos]
    omega
  · exact Scan.passes_of_reaches

instance (text : Bytes) : Decidable (Ended text) := decidable_of_iff' _ ended_iff

/-- Whatever was scanned before. -/
theorem Ended.passes {text : Bytes} (ended : Ended text) (store : TokenStore) :
    ∃ s, Scan.Passes (.begin_ store text) s ∧ s.rest = [] ∧ s.state = .initial := by
  obtain ⟨s, passes, empty, initial⟩ := ended
  have along : Scan.Along (fun _ _ => True) (.begin_ .new text) (.begin_ store text) :=
    ⟨rfl, rfl, rfl, rfl, trivial⟩
  obtain ⟨t, passes', along'⟩ := passes.along along respected_any
  exact ⟨t, passes', along'.rest ▸ empty, along'.state ▸ initial⟩

/-- A text can be scanned in two parts, where the first one is ended and they are apart. -/
theorem parseToken_append {front back : Bytes} (ended : Ended front) (apart : Apart front back)
    (store : TokenStore) :
    parseToken store (front ++ back) = parseToken (parseToken store front) back := by
  obtain ⟨s, passes, empty, initial⟩ := ended.passes store
  have whole := (passes.behind ⟨empty, initial⟩ apart).final (fun _ => rfl) initial
  have first := passes.final (fun _ => rfl) initial
  rw [Scan.final_begin_, empty] at first
  have none_ : parseToken s.store [] = s.store := rfl
  rw [first, none_]
  refine (Scan.final_begin_ store (front ++ back)).symm.trans (whole.trans ?_)
  simp only [Scan.behind, empty, List.nil_append]

end OneProxy.Sql
