import OneProxy.Sql.Fragments
import OneProxy.Sql.ParserHistory
import Mathlib.Tactic.IntervalCases
import Mathlib.Tactic.Tauto

/-! Statements that differ in their values and their comments only, and the pattern they share. -/

namespace OneProxy.Sql

open Lexing

/-! ## Tokens that are printed alike -/

/-- Strings and numbers. -/
def valueIds : List SqlTokenId := [.string, .integer, .float]

/-- Comments. -/
def commentIds : List SqlTokenId := [.comment, .commentMysql]

/-- The same token, two values, or two comments of one kind. -/
def Like (t t' : SqlToken) : Prop :=
  t = t' ∨ t.tokenId ∈ valueIds ∧ t'.tokenId ∈ valueIds ∨
    t.tokenId = t'.tokenId ∧ t.tokenId ∈ commentIds

/-- Tokens of the same kinds and texts are alike. -/
theorem like_of_values {id id' : SqlTokenId} (value : id ∈ valueIds) (value' : id' ∈ valueIds)
    (text text' : Bytes) : Like ⟨id, text⟩ ⟨id', text'⟩ := Or.inr (Or.inl ⟨value, value'⟩)

variable {t t' : SqlToken} {ts ts' : List SqlToken}

/-- Like tokens are printed alike. -/
theorem Like.printed (like : Like t t') : t.printed = t'.printed := by
  obtain ⟨id, text⟩ := t
  obtain ⟨id', text'⟩ := t'
  rcases like with same | ⟨value, value'⟩ | ⟨same, comment⟩
  · rw [same]
  · -- A question mark stands for each of them.
    have mark : ∀ {id : SqlTokenId} {text : Bytes}, id ∈ valueIds →
        (SqlToken.mk id text).printed = [63] := by
      intro id text value
      simp only [valueIds, List.mem_cons, List.not_mem_nil, or_false] at value
      rcases value with rfl | rfl | rfl <;> rfl
    rw [mark value, mark value']
  · dsimp only at same comment
    subst same
    simp only [commentIds, List.mem_cons, List.not_mem_nil, or_false] at comment
    rcases comment with rfl | rfl <;> rfl

/-- Values need no space that others do not. -/
theorem spaced_value {id id' : SqlTokenId} (value : id ∈ valueIds) (value' : id' ∈ valueIds)
    (other : SqlTokenId) :
    spaced id other = spaced id' other ∧ spaced other id = spaced other id' := by
  have plain : ∀ {id : SqlTokenId}, id ∈ valueIds →
      spaced id other = (other ≠ .dot && (other ≠ .cbrace && other ≠ .obrace)) ∧
        spaced other id = (other ≠ .dot && (other ∈ spacedIds || other ≠ .obrace)) := by
    intro id value
    simp only [valueIds, List.mem_cons, List.not_mem_nil, or_false] at value
    rcases value with rfl | rfl | rfl <;> simp [spaced, spacedIds]
  rw [(plain value).1, (plain value').1, (plain value).2, (plain value').2]
  exact ⟨rfl, rfl⟩

/-- Like tokens are spaced alike. -/
theorem Like.spaced (like : Like t t') (other : SqlTokenId) :
    spaced t.tokenId other = spaced t'.tokenId other ∧
      spaced other t.tokenId = spaced other t'.tokenId := by
  rcases like with rfl | ⟨value, value'⟩ | ⟨same, -⟩
  · exact ⟨rfl, rfl⟩
  · exact spaced_value value value' other
  · rw [same]
    exact ⟨rfl, rfl⟩

/-- Lists of such tokens have one pattern. -/
theorem toPatternQuery_like (alike : List.Forall₂ Like ts ts') :
    toPatternQuery ts = toPatternQuery ts' := by
  have general : ∀ {ts ts' : List SqlToken}, List.Forall₂ Like ts ts' → ∀ {t t' : SqlToken},
      Like t t' → toPatternQueryFrom (some t.tokenId) ts =
        toPatternQueryFrom (some t'.tokenId) ts' := by
    intro ts ts' alike
    induction alike with
    | nil => exact fun _ => rfl
    | @cons u u' ts ts' first _ ih =>
      intro t t' like
      -- The space in front depends on the kinds of both tokens.
      rw [toPatternQueryFrom, toPatternQueryFrom, (like.spaced _).1, (first.spaced _).2,
        first.printed, ih first]
  cases alike with
  | nil => rfl
  | cons first later =>
    rw [toPatternQuery, toPatternQuery, toPatternQueryFrom, toPatternQueryFrom, first.printed,
      general later first]

/-! ## Scanning behind such tokens -/

/-- Two stores whose statements have such tokens. -/
structure LikeValues (store store' : TokenStore) : Prop where
  wf : store.WellFormed
  wf' : store'.WellFormed
  values : List.Forall₂ Like store.values store'.values

/-- Lists related in two parts are related. -/
theorem forall₂_append {ts₁ ts₁' ts₂ ts₂' : List SqlToken} (first : List.Forall₂ Like ts₁ ts₁')
    (second : List.Forall₂ Like ts₂ ts₂') : List.Forall₂ Like (ts₁ ++ ts₂) (ts₁' ++ ts₂') :=
  List.rel_append first second

/-- A list is related to itself where its members are. -/
theorem forall₂_refl (ts : List SqlToken) : List.Forall₂ Like ts ts := by
  induction ts with
  | nil => exact .nil
  | cons t ts ih => exact .cons (Or.inl rfl) ih

/-- A sign is an operator behind the one exactly if it is behind the other. -/
theorem operand_like (alike : List.Forall₂ Like ts ts') :
    (TokenStore.lastOf ts).any (· ∈ TokenStore.operandIds) =
      (TokenStore.lastOf ts').any (· ∈ TokenStore.operandIds) := by
  -- Only the last tokens matter.
  induction alike with
  | nil => rfl
  | @cons t t' ts ts' like later ih =>
    cases later with
    | cons =>
      simpa [TokenStore.lastOf, List.getLast?_cons_cons] using ih
    | nil =>
      have values : ∀ id ∈ valueIds, id ∈ TokenStore.operandIds := by decide
      rcases like with rfl | ⟨value, value'⟩ | ⟨same, -⟩
      · rfl
      · simp [TokenStore.lastOf, values _ value, values _ value']
      · simp [TokenStore.lastOf, same]

/-- Like tokens stay alike when one text is appended to both. -/
theorem Like.append (like : Like t t') (text : Bytes) :
    Like { t with text := t.text ++ text } { t' with text := t'.text ++ text } := by
  rcases like with rfl | ⟨value, value'⟩ | ⟨same, comment⟩
  · exact Or.inl rfl
  · exact Or.inr (Or.inl ⟨value, value'⟩)
  · exact Or.inr (Or.inr ⟨same, comment⟩)

/-- The last tokens stay alike when both get the same text. -/
theorem appendedToLast_like (alike : List.Forall₂ Like ts ts') (text : Bytes) :
    List.Forall₂ Like (TokenStore.appendedToLast ts text)
      (TokenStore.appendedToLast ts' text) := by
  induction alike with
  | nil => exact .nil
  | @cons t t' ts ts' like later ih =>
    cases later with
    | nil => exact .cons (like.append text) .nil
    | @cons u u' ts ts' next later =>
      -- The last token is that of the shorter list.
      have longer : ∀ (t u : SqlToken) (ts : List SqlToken),
          TokenStore.appendedToLast (t :: u :: ts) text =
            t :: TokenStore.appendedToLast (u :: ts) text := by
        intro t u ts
        rw [TokenStore.appendedToLast, TokenStore.appendedToLast, List.getLast?_cons_cons]
        cases (u :: ts).getLast? <;> simp
      rw [longer, longer]
      exact .cons like ih

/-- Each step of the scanner keeps likeness. -/
theorem respected_like : Respected LikeValues := by
  constructor
  · -- A token is joined to a sign before it on both sides or on neither.
    intro store store' alike tokenId text
    refine ⟨alike.wf.appendToken, alike.wf'.appendToken, ?_⟩
    rw [alike.wf.values_appendToken, alike.wf'.values_appendToken, TokenStore.appended,
      TokenStore.appended, operand_like alike.values]
    split
    · exact forall₂_append alike.values (forall₂_refl _)
    · exact forall₂_append alike.values (forall₂_refl _)
  · intro store store' alike text
    refine ⟨alike.wf.appendTokenToLast, alike.wf'.appendTokenToLast, ?_⟩
    rw [TokenStore.values_appendTokenToLast, TokenStore.values_appendTokenToLast]
    exact appendedToLast_like alike.values text

/-! ## Strings -/

namespace Scan

variable {s u : Scan} {base : List SqlToken} {id : SqlTokenId}

/-- Where a match outside of `INITIAL` leads, the last token has got more text, or the same. -/
theorem store_step (other : s.state ≠ .initial) (done : s.step = some u) :
    u.store = s.store ∨ ∃ text, u.store = s.store.appendTokenToLast text := by
  rcases step_cases done with ⟨-, -, rfl⟩ | ⟨action, n, p, -, member, -, -, -, rfl⟩
  · exact Or.inl rfl
  -- Outside `INITIAL` no rule begins a token.
  have kinds : action ∈ [Action.toLast, .goto .initial, .more, .twoQuotes, .oneQuote, .echo] := by
    have all : ∀ state ∈ [StartState.comment, .linecomment, .quoted], ∀ p ∈ rules state,
        p.2 ∈ [Action.toLast, .goto .initial, .more, .twoQuotes, .oneQuote, .echo] := by
      decide
    refine all s.state ?_ _ member
    cases state : s.state with
    | initial => exact absurd state other
    | comment | linecomment | quoted => decide
  simp only [List.mem_cons, List.not_mem_nil, or_false] at kinds
  rcases kinds with rfl | rfl | rfl | rfl | rfl | rfl
  · exact Or.inr ⟨_, rfl⟩
  · exact Or.inl rfl
  · exact Or.inl rfl
  · rw [act]
    split
    · exact Or.inr ⟨_, rfl⟩
    · exact Or.inr ⟨_, rfl⟩
  · rw [act]
    split
    · exact Or.inl rfl
    · exact Or.inr ⟨_, rfl⟩
  · exact Or.inl rfl

/-- The last token, whose text is being scanned. -/
structure Within (base : List SqlToken) (id : SqlTokenId) (s : Scan) : Prop where
  wf : s.store.WellFormed
  values : ∃ text, s.store.values = base ++ [⟨id, text⟩]

/-- A step in another state than the first stays within the token that was added. -/
theorem Within.step (within : Within base id s) (other : s.state ≠ .initial)
    (done : s.step = some u) : Within base id u := by
  obtain ⟨text, values⟩ := within.values
  rcases store_step other done with same | ⟨more, same⟩
  · exact ⟨same ▸ within.wf, text, same ▸ values⟩
  · refine ⟨same ▸ within.wf.appendTokenToLast, text ++ more, ?_⟩
    rw [same, TokenStore.values_appendTokenToLast, TokenStore.appendedToLast, values]
    simp

/-- Up to the end of the quoted text. -/
theorem Within.closes (within : Within base id s) (closes_ : Closes s u)
    (quoted : s.state = .quoted) : Within base id u ∧ Passes s u ∧ u.state = .initial := by
  induction closes_ with
  | last some_ done initial =>
    exact ⟨within.step (by rw [quoted]; decide) done, .step some_ done .refl, initial⟩
  | more some_ done still _ ih =>
    obtain ⟨within', passes, initial⟩ := ih (within.step (by rw [quoted]; decide) done) still
    exact ⟨within', .step some_ done passes, initial⟩

end Scan

/-- What a scan of a text does: one token is added, and the text is ended. -/
structure AddsOne (ids : List SqlTokenId) (text : Bytes) : Prop where
  ended : Ended text
  adds : ∀ store : TokenStore, store.WellFormed → (parseToken store text).WellFormed ∧
    ∃ id ∈ ids, ∃ more, (parseToken store text).values = store.values ++ [⟨id, more⟩]

/-- A text that the scanner passes with one token adds that token. -/
theorem addsOne_of_passes {ids : List SqlTokenId} {text : Bytes}
    (passes : ∀ store : TokenStore, store.WellFormed → ∃ s : Scan,
      Scan.Passes (.begin_ store text) s ∧ s.rest = [] ∧ s.state = .initial ∧
        ∃ id ∈ ids, Scan.Within store.values id s) : AddsOne ids text := by
  constructor
  · obtain ⟨s, passes, empty, initial, -⟩ := passes .new TokenStore.wellFormed_new
    exact ⟨s, passes, empty, initial⟩
  · -- Behind the part the scan is that of an empty text.
    intro store wf
    obtain ⟨s, passes, empty, initial, id, member, within⟩ := passes store wf
    have whole := passes.final (fun _ => rfl) initial
    rw [Scan.final_begin_, empty] at whole
    have none_ : parseToken s.store [] = s.store := rfl
    rw [whole, none_]
    exact ⟨within.wf, id, member, within.values⟩

/-- The first match of a text. -/
theorem Scan.step_begin_ {text : Bytes} {action : Action} {n : Nat} (some_ : text ≠ [])
    (found : pick (rules .initial) text = some (action, n)) (store : TokenStore) :
    (begin_ store text).step =
      some ((begin_ store text).act (text.take n) (text.drop n) action) := by
  have here : (begin_ store text).rest ≠ [] := some_
  have found' : pick (rules (begin_ store text).state) (begin_ store text).rest =
      some (action, n) := found
  rw [step, if_neg here, found']
  rfl

/-- A string between single quotes that ends where it should, with nothing behind it. -/
structure IsString (text : Bytes) : Prop where
  quoted : text.head? = some 39
  ends : behindQuote 39 text.tail = some []
  clean : Clean 39 (.escapes 0) text.tail = true

/-- A string adds one token. -/
theorem IsString.addsOne {text : Bytes} (string : IsString text) : AddsOne [.string] text := by
  obtain ⟨quoted, ends, clean⟩ := string
  refine addsOne_of_passes fun store wf => ?_
  cases text with
  | nil => exact absurd quoted (by simp)
  | cons q body =>
    obtain rfl : q = 39 := Option.some.inj quoted
    let o : Opening := ⟨store, 0, 39, rfl, body⟩
    have scan : o.scan = .begin_ store (39 :: body) := rfl
    -- The first step begins the string, and its end is where the quotes say.
    obtain ⟨s, done, inside, ends'⟩ := (o.endsRight_iff.mpr clean).ends
    have ending : behindQuote o.quote o.body = some [] := ends
    rw [ending] at ends'
    obtain ⟨u, closes, empty⟩ := (ends' []).mpr rfl
    have within : Scan.Within store.values .string s := by
      obtain rfl := Option.some.inj (done.symm.trans o.step_scan)
      have wf' : (store.appendToken .string []).WellFormed := wf.appendToken
      exact ⟨wf', [], wf.values_appendToken⟩
    obtain ⟨within', passes, initial⟩ := within.closes closes inside
    rw [scan] at done
    exact ⟨u, .step (List.cons_ne_nil _ _) done passes, empty, initial, .string,
      List.mem_singleton_self _, within'⟩

/-! ## Numbers -/

/-- A number without a sign. -/
structure IsNumber (text : Bytes) : Prop where
  number : Matches Rule.digits text ∨ Matches Rule.decimal text ∨ Matches Rule.scientific text

/-- The characters that a number can begin with. -/
def numberStarts : Bytes := [48, 49, 50, 51, 52, 53, 54, 55, 56, 57, 46]

/-- A digit is among the first ten bytes that a number may start with. -/
theorem mem_numberStarts {c : UInt8} (digit : isDigit c = true) : c ∈ numberStarts.take 10 := by
  obtain ⟨least, most⟩ : 48 ≤ c.toNat ∧ c.toNat ≤ 57 := by
    simpa [isDigit, UInt8.le_iff_toNat_le] using digit
  obtain ⟨k, same⟩ : ∃ k, c.toNat = k := ⟨_, rfl⟩
  obtain rfl : c = UInt8.ofNat k := by rw [← same, UInt8.ofNat_toNat]
  rw [same] at least most
  interval_cases k <;> decide

/-- The rules that take such a character first make numbers, or take nothing behind it. -/
theorem ruled_number : ∀ q ∈ rules .initial, (numberStarts.any fun c => q.1.starts c) = true →
    q.2 ∈ [Action.token .integer, .token .float] ∨ q.1.width = some 1 := by
  decide

/-- From a digit on, the scanner picks a number. -/
theorem pick_digit : ∀ c ∈ numberStarts.take 10,
    pick (rules .initial) [c] = some (.token .integer, 1) := by
  decide +kernel

variable {text : Bytes}

/-- A number begins with a digit or a point, and ends with a digit. -/
theorem IsNumber.ends_ (number : IsNumber text) :
    (∃ c ∈ text.head?, c ∈ numberStarts) ∧ ∃ c ∈ text.getLast?, isDigit c = true := by
  have all : ∀ p ∈ [Rule.digits, Rule.decimal, Rule.scientific], Matches p text →
      (∃ c ∈ text.head?, c ∈ numberStarts) ∧ ∃ c ∈ text.getLast?, isDigit c = true := by
    intro p member matched
    have some_ : text ≠ [] := by
      intro empty
      have none_ := matched.nullable empty
      simp only [List.mem_cons, List.not_mem_nil, or_false] at member
      rcases member with rfl | rfl | rfl <;> exact absurd none_ (by decide)
    -- What a match may begin and end with is computed from the rule.
    refine ⟨⟨text.head some_, List.head?_eq_some_head some_, ?_⟩, text.getLast some_,
      List.getLast?_eq_some_getLast some_, ?_⟩
    · have first := matched.starts _ (List.head?_eq_some_head some_)
      have kinds : isDigit (text.head some_) = true ∨ text.head some_ = 46 := by
        simp only [List.mem_cons, List.not_mem_nil, or_false] at member
        rcases member with rfl | rfl | rfl <;>
          simp only [Rule.digits, Rule.decimal, Rule.scientific, Pattern.starts, Pattern.nullable,
            Pattern.some_, Pattern.optional, Pattern.text, Bool.or_eq_true, Bool.and_eq_true,
            decide_eq_true_eq, Bool.false_eq_true, false_and, or_false, true_and] at first <;>
          tauto
      rcases kinds with digit | point
      · exact List.mem_of_mem_take (mem_numberStarts digit)
      · rw [point]
        decide
    · have last := matched.finishes _ (List.getLast?_eq_some_getLast some_)
      simp only [List.mem_cons, List.not_mem_nil, or_false] at member
      rcases member with rfl | rfl | rfl <;>
        simpa [Rule.digits, Rule.decimal, Rule.scientific, Pattern.finishes, Pattern.nullable,
          Pattern.some_] using last
  rcases number.number with digits | decimal | scientific
  · exact all _ (by simp) digits
  · exact all _ (by simp) decimal
  · exact all _ (by simp) scientific

/-- It is taken as a number, whole. -/
theorem IsNumber.picked (number : IsNumber text) : ∃ id ∈ [SqlTokenId.integer, .float],
    pick (rules .initial) text = some (.token id, text.length) := by
  have ruled : ∃ q ∈ rules .initial, Matches q.1 text := by
    rcases number.number with digits | decimal | scientific
    · exact ⟨(Rule.digits, .token .integer), by simp [rules, initialRules], digits⟩
    · exact ⟨(Rule.decimal, .token .float), by simp [rules, initialRules], decimal⟩
    · exact ⟨(Rule.scientific, .token .float), by simp [rules, initialRules], scientific⟩
  obtain ⟨q, member, matched⟩ := ruled
  obtain ⟨q, member, found, matched⟩ := pick_whole member matched
  obtain ⟨⟨c, first, start⟩, d, last, digit⟩ := number.ends_
  have starts := matched.starts c first
  rcases ruled_number q member (List.any_eq_true.mpr ⟨c, start, starts⟩) with kind | one
  · simp only [List.mem_cons, List.not_mem_nil, or_false] at kind
    rcases kind with kind | kind
    · exact ⟨.integer, by decide, kind ▸ found⟩
    · exact ⟨.float, by decide, kind ▸ found⟩
  · -- A number of one character is a digit.
    obtain ⟨e, rfl⟩ := List.length_eq_one_iff.mp (matched.length_eq one)
    obtain rfl := Option.some.inj last
    exact ⟨.integer, by decide, pick_digit _ (mem_numberStarts digit)⟩

/-- A number adds one token. -/
theorem IsNumber.addsOne (number : IsNumber text) : AddsOne [.integer, .float] text := by
  refine addsOne_of_passes fun store wf => ?_
  obtain ⟨id, member, found⟩ := number.picked
  obtain ⟨⟨c, first, start⟩, -⟩ := number.ends_
  have some_ : text ≠ [] := by
    rintro rfl
    exact absurd first (by simp)
  have done : (Scan.begin_ store text).step =
      some ⟨.initial, 0, [], [], store.appendToken id text⟩ := by
    rw [Scan.step_begin_ some_ found]
    simp [Scan.begin_, Scan.act]
  refine ⟨_, .step some_ done .refl, rfl, rfl, id, member, wf.appendToken, text, ?_⟩
  -- Such a number has no sign, so that it is not joined to what is before it.
  have unsigned : TokenStore.signed id text = false := by
    have noSign : ∀ c ∈ numberStarts, c ≠ 45 ∧ c ≠ 43 := by decide +kernel
    have first_ : text.head? = some c := first
    simp [TokenStore.signed, first_, noSign c start]
  rw [wf.values_appendToken, TokenStore.appended, unsigned]
  rfl

/-! ## Comments -/

/-- What is behind the first slash with a star before it. -/
def behindComment : Bytes → Option Bytes
  | [] => none
  | [_] => none
  | c :: d :: rest => if c = 42 ∧ d = 47 then some rest else behindComment (d :: rest)

section

variable {c : UInt8} {front back : Bytes}

/-- The end of a comment is looked for byte by byte. -/
theorem behindComment_cons (unclosed : ¬ (c = 42 ∧ back.head? = some 47)) :
    behindComment (c :: back) = behindComment back := by
  cases back with
  | nil => rfl
  | cons d back =>
    rw [behindComment, if_neg]
    exact fun both => unclosed ⟨both.1, congrArg some both.2⟩

/-- Characters other than stars end nothing. -/
theorem behindComment_plain (plain : ∀ c ∈ front, c ≠ 42) :
    behindComment (front ++ back) = behindComment back := by
  induction front with
  | nil => rfl
  | cons c front ih =>
    obtain ⟨here, later⟩ := List.forall_mem_cons.mp plain
    rw [List.cons_append, behindComment_cons fun both => here both.1, ih later]

/-- Stars end nothing without a slash. -/
theorem behindComment_stars (stars : ∀ c ∈ front, c = 42) (unclosed : back.head? ≠ some 47) :
    behindComment (front ++ back) = behindComment back := by
  -- A star that no slash follows does not close the comment.
  induction front with
  | nil => rfl
  | cons c front ih =>
    obtain ⟨-, later⟩ := List.forall_mem_cons.mp stars
    rw [List.cons_append, behindComment_cons, ih later]
    rintro ⟨-, slash⟩
    cases front with
    | nil => exact unclosed slash
    | cons d front =>
      obtain rfl := later d List.mem_cons_self
      exact absurd slash (by simp)

/-- With a slash they do. -/
theorem behindComment_close (stars : ∀ c ∈ front, c = 42) (some_ : front ≠ []) :
    behindComment (front ++ 47 :: back) = some back := by
  induction front with
  | nil => exact absurd rfl some_
  | cons c front ih =>
    obtain ⟨rfl, later⟩ := List.forall_mem_cons.mp stars
    cases front with
    | nil => rw [List.cons_append, List.nil_append, behindComment, if_pos ⟨rfl, rfl⟩]
    | cons d front =>
      obtain rfl := later d List.mem_cons_self
      rw [List.cons_append, behindComment_cons (by simp), ih later (List.cons_ne_nil _ _)]

/-- A comment that ends does not end at once. -/
theorem ne_nil_of_behindComment {text : Bytes} (ends_ : behindComment text = some back) :
    text ≠ [] := by
  rintro rfl
  exact absurd ends_ (by simp [behindComment])

end

namespace Scan

variable {s u : Scan} {base : List SqlToken} {id : SqlTokenId} {rest : Bytes}

/-- Stars are not taken without a slash behind them. -/
theorem unclosed_stars {text : Bytes} {action : Action} {n : Nat}
    (found : pick (rules .comment) text = some (action, n)) (positive : 1 ≤ n)
    (le : n ≤ text.length) (stars : ∀ c ∈ text.take n, c = 42) :
    (text.drop n).head? ≠ some 47 := by
  intro slash
  obtain ⟨-, most⟩ := pick_spec found
  have length : (text.take n).length = n := List.length_take_of_le le
  have next : text.take (n + 1) = text.take n ++ [47] := by
    rw [List.take_add_one, ← List.head?_drop, slash]
    rfl
  have close : Matches (.seq (.some_ (· = 42)) (.text [47])) (text.take (n + 1)) := by
    rw [next]
    refine .seq (matches_some_.mpr ⟨fun none_ => ?_, fun c there => ?_⟩) (matches_text.mpr rfl)
    · rw [none_, List.length_nil] at length
      omega
    · simpa using stars c there
  have more : n + 1 ≤ text.length := by
    have some_ : text.drop n ≠ [] := by
      intro none_
      rw [none_] at slash
      exact absurd slash (by simp)
    have first := List.length_pos_iff.mpr some_
    rw [List.length_drop] at first
    omega
  -- The rule that closes the comment would have taken one byte more.
  have longer := most (.seq (.some_ (· = 42)) (.text [47]), .goto .initial)
    (List.mem_append_left _ (List.mem_cons_of_mem _ (List.mem_cons_of_mem _ List.mem_cons_self)))
    (n + 1) (mem_ends_iff.mpr ⟨more, close⟩)
  omega

/-- A match within a comment leaves what is behind the comment as it is, or ends it. -/
theorem comment_step (inside : s.state = .comment) (ends_ : behindComment s.rest = some rest)
    (done : s.step = some u) : u.rest.length < s.rest.length ∧
      (u.state = .comment ∧ behindComment u.rest = some rest ∨
        u.state = .initial ∧ u.rest = rest) := by
  have some_ := ne_nil_of_behindComment ends_
  rcases step_cases done with
    ⟨empty, -, -⟩ | ⟨action, n, p, found, member, taken, positive, le, rfl⟩
  · exact absurd empty some_
  rw [inside] at found member
  have unclosed := unclosed_stars found positive le
  obtain ⟨-, matched⟩ := mem_ends_iff.mp taken
  have parts := List.take_append_drop n s.rest
  have shorter : (s.rest.drop n).length < s.rest.length := by
    rw [List.length_drop]
    omega
  have length : (s.rest.take n).length = n := List.length_take_of_le le
  generalize s.rest.take n = front at matched parts unclosed length
  generalize s.rest.drop n = back at parts shorter unclosed
  rw [← parts] at ends_
  simp only [rules, commentRules, List.cons_append, List.nil_append, List.mem_cons,
    List.not_mem_nil, or_false, Prod.mk.injEq] at member
  rcases member with ⟨rfl, rfl⟩ | ⟨rfl, rfl⟩ | ⟨rfl, rfl⟩ | ⟨rfl, rfl⟩
  · refine ⟨shorter, Or.inl ⟨inside, ?_⟩⟩
    rwa [behindComment_plain fun c there => by simpa using matches_many.mp matched c there]
      at ends_
  · obtain ⟨u, v, rfl, stars, others⟩ := matches_seq.mp matched
    obtain ⟨star, stars⟩ := matches_some_.mp stars
    have starred : ∀ c ∈ u, c = 42 := fun c there => by simpa using stars c there
    have plain : ∀ c ∈ v, c ≠ 42 ∧ c ≠ 47 := fun c there => by
      simpa using matches_many.mp others c there
    have open_ : (v ++ back).head? ≠ some 47 := by
      cases v with
      | nil => exact unclosed (by simpa using starred)
      | cons c v =>
        intro slash
        exact (plain c List.mem_cons_self).2 (Option.some.inj slash)
    refine ⟨shorter, Or.inl ⟨inside, ?_⟩⟩
    rwa [List.append_assoc, behindComment_stars starred open_,
      behindComment_plain fun c there => (plain c there).1] at ends_
  · -- The comment ends.
    obtain ⟨u, v, rfl, stars, slash⟩ := matches_seq.mp matched
    obtain ⟨star, stars⟩ := matches_some_.mp stars
    obtain rfl := matches_text.mp slash
    refine ⟨shorter, Or.inr ⟨rfl, ?_⟩⟩
    rw [List.append_assoc, List.singleton_append,
      behindComment_close (fun c there => by simpa using stars c there) star] at ends_
    exact Option.some.inj ends_
  · obtain ⟨c, -, rfl⟩ := matches_one.mp matched
    refine ⟨shorter, Or.inl ⟨inside, ?_⟩⟩
    rw [List.singleton_append, behindComment_cons] at ends_
    · exact ends_
    · rintro ⟨rfl, slash⟩
      exact unclosed (by simp) slash

/-- Up to the end of the comment. -/
theorem Within.comment (within : Within base id s) (inside : s.state = .comment)
    (ends_ : behindComment s.rest = some rest) :
    ∃ u, Passes s u ∧ u.rest = rest ∧ u.state = .initial ∧ Within base id u := by
  -- Each match leaves less of the text.
  obtain ⟨length, same⟩ : ∃ length, s.rest.length = length := ⟨_, rfl⟩
  induction length using Nat.strong_induction_on generalizing s with
  | h length ih =>
    have some_ := ne_nil_of_behindComment ends_
    cases done : s.step with
    | none => exact absurd (step_eq_none_iff.mp done).1 some_
    | some t =>
      have within' := within.step (by rw [inside]; decide) done
      obtain ⟨shorter, ⟨inside', ends'⟩ | ⟨initial, there⟩⟩ := comment_step inside ends_ done
      · obtain ⟨u, passes, rest⟩ := ih _ (same ▸ shorter) within' inside' ends' rfl
        exact ⟨u, .step some_ done passes, rest⟩
      · exact ⟨t, .step some_ done .refl, there, initial, within'⟩

end Scan

/-- A comment between slashes and stars, with nothing behind it. -/
structure IsComment (text : Bytes) : Prop where
  opens : text.take 2 = [47, 42] ∧ text[2]? ≠ some 33
  ends : behindComment (text.drop 2) = some []

attribute [local simp] Lexing.pick longest ends rules initialRules Pattern.text notNewline
  List.range List.range.loop Pattern.some_ Pattern.optional Rule.name Rule.dotted Rule.digits
  Rule.decimal Rule.scientific Rule.newline Rule.inName isDigit isAlpha isSpace isQuote in
/-- What begins a comment. -/
theorem pick_comment {body : Bytes} (plain : body.head? ≠ some 33) :
    pick (rules .initial) (47 :: 42 :: body) = some (.start .comment .comment, 2) := by
  cases body with
  | nil => simp
  | cons c body =>
    have other : c ≠ 33 := fun same => plain (congrArg some same)
    simp [other]

/-- A comment adds one token. -/
theorem IsComment.addsOne (comment : IsComment text) : AddsOne [.comment] text := by
  obtain ⟨⟨opens, plain⟩, ends_⟩ := comment
  refine addsOne_of_passes fun store wf => ?_
  obtain ⟨body, rfl⟩ : ∃ body, text = 47 :: 42 :: body := by
    refine ⟨text.drop 2, ?_⟩
    rw [← List.take_append_drop 2 text, opens]
    rfl
  have plain' : body.head? ≠ some 33 := by
    rwa [List.head?_eq_getElem?]
  -- The first step begins the comment, the others stay within it.
  have done : (Scan.begin_ store (47 :: 42 :: body)).step =
      some ⟨.comment, 0, [], body, store.appendToken .comment []⟩ :=
    Scan.step_begin_ (List.cons_ne_nil _ _) (pick_comment plain') store
  have wf' : (store.appendToken .comment []).WellFormed := wf.appendToken
  have within : Scan.Within store.values .comment
      ⟨.comment, 0, [], body, store.appendToken .comment []⟩ :=
    ⟨wf', [], wf.values_appendToken⟩
  obtain ⟨u, passes, empty, initial, within'⟩ := within.comment rfl ends_
  exact ⟨u, .step (List.cons_ne_nil _ _) done passes, empty, initial, .comment,
    List.mem_singleton_self _, within'⟩

/-! ## Statements in parts -/

/-- The parts of a statement can be scanned one after another. -/
def Parts : List Bytes → Prop
  | [] | [_] => True
  | part :: parts => Ended part ∧ Apart part parts.flatten ∧ Parts parts

instance decidableParts : (parts : List Bytes) → Decidable (Parts parts)
  | [] => .isTrue trivial
  | [_] => .isTrue trivial
  | part :: next :: parts =>
    have := decidableParts (next :: parts)
    inferInstanceAs (Decidable (Ended part ∧ Apart part (next :: parts).flatten ∧
      Parts (next :: parts)))

/-- A statement is scanned part by part. -/
theorem parseToken_parts {parts : List Bytes} (cut : Parts parts) (store : TokenStore) :
    parseToken store parts.flatten = parts.foldl parseToken store := by
  induction parts generalizing store with
  | nil => rfl
  | cons part parts ih =>
    cases parts with
    | nil => rw [List.flatten_cons, List.flatten_nil, List.append_nil]; rfl
    | cons next parts =>
      obtain ⟨ended, apart, later⟩ := cut
      rw [List.flatten_cons, parseToken_append ended apart, ih later]
      rfl

/-- Values in a statement: a string, or a number without a sign. -/
def IsValue (text : Bytes) : Prop := IsString text ∨ IsNumber text

/-- Texts that can stand for each other at a place: the same one, two values, or two comments. -/
def Exchangeable (text text' : Bytes) : Prop :=
  text = text' ∨ IsValue text ∧ IsValue text' ∨ IsComment text ∧ IsComment text'

/-- A value adds one token. -/
theorem IsValue.addsOne (value : IsValue text) : AddsOne valueIds text := by
  have wider : ∀ {ids : List SqlTokenId}, AddsOne ids text → ids ⊆ valueIds →
      AddsOne valueIds text := by
    intro ids one inside
    refine ⟨one.ended, fun store wf => ?_⟩
    obtain ⟨wf', id, member, more⟩ := one.adds store wf
    exact ⟨wf', id, inside member, more⟩
  rcases value with string | number
  · exact wider string.addsOne (by decide)
  · exact wider number.addsOne (by decide)

/-- Two texts of one token each, which are alike whatever they are, keep alike what was so. -/
theorem likeValues_addsOne {ids : List SqlTokenId} {text text' : Bytes}
    (alike : ∀ id ∈ ids, ∀ id' ∈ ids, ∀ more more', Like ⟨id, more⟩ ⟨id', more'⟩)
    (one : AddsOne ids text) (one' : AddsOne ids text') {store store' : TokenStore}
    (before : LikeValues store store') :
    LikeValues (parseToken store text) (parseToken store' text') := by
  obtain ⟨wf, id, member, more, added⟩ := one.adds store before.wf
  obtain ⟨wf', id', member', more', added'⟩ := one'.adds store' before.wf'
  refine ⟨wf, wf', ?_⟩
  rw [added, added']
  exact forall₂_append before.values (.cons (alike id member id' member' more more') .nil)

/-- Parts that may be exchanged add like tokens. -/
theorem Exchangeable.likeValues {text text' : Bytes} (same : Exchangeable text text')
    {store store' : TokenStore} (before : LikeValues store store') :
    LikeValues (parseToken store text) (parseToken store' text') := by
  rcases same with rfl | ⟨value, value'⟩ | ⟨comment, comment'⟩
  · exact respected_like.parseToken before text
  · exact likeValues_addsOne (fun id member id' member' => like_of_values member member')
      value.addsOne value'.addsOne before
  · refine likeValues_addsOne (fun id member id' member' more more' => ?_)
      comment.addsOne comment'.addsOne before
    obtain rfl := List.mem_singleton.mp member
    obtain rfl := List.mem_singleton.mp member'
    exact Or.inr (Or.inr ⟨rfl, List.mem_cons_self⟩)

/--
Two statements that can be cut into parts, which are the same but for values and comments, have one
pattern.

So all of them are counted together, whatever strings and numbers they are given, and whatever was
parsed before.
-/
theorem samePattern {parts parts' : List Bytes} (cut : Parts parts) (cut' : Parts parts')
    (same : List.Forall₂ Exchangeable parts parts') (earlier earlier' : List Bytes) :
    ((earlier.foldl SqlParser.parse .new).parse parts.flatten).answers.pattern =
      ((earlier'.foldl SqlParser.parse .new).parse parts'.flatten).answers.pattern := by
  rw [SqlParser.answers_parse (SqlParser.wellFormed_foldl earlier),
    SqlParser.answers_parse (SqlParser.wellFormed_foldl earlier')]
  -- Part by part, the tokens stay alike.
  have parsed : ∀ {parts parts' : List Bytes}, List.Forall₂ Exchangeable parts parts' →
      ∀ {store store' : TokenStore}, LikeValues store store' →
        LikeValues (parts.foldl parseToken store) (parts'.foldl parseToken store') := by
    intro parts parts' same
    induction same with
    | nil => exact fun before => before
    | cons first _ ih => exact fun before => ih (first.likeValues before)
  have start : LikeValues .new .new :=
    ⟨TokenStore.wellFormed_new, TokenStore.wellFormed_new, .nil⟩
  have alike := parsed same start
  rw [← parseToken_parts cut, ← parseToken_parts cut'] at alike
  exact toPatternQuery_like alike.values

/-- `select a from t where b='x' and c=1/*n*/`. -/
def byString : List Bytes :=
  [[115, 101, 108, 101, 99, 116, 32, 97, 32, 102, 114, 111, 109, 32, 116, 32, 119, 104, 101, 114,
    101, 32, 98, 61], [39, 120, 39], [32, 97, 110, 100, 32, 99, 61], [49], [47, 42, 110, 42, 47]]

/-- `select a from t where b=2.5 and c='it''s'/**/`. -/
def byNumber : List Bytes :=
  [[115, 101, 108, 101, 99, 116, 32, 97, 32, 102, 114, 111, 109, 32, 116, 32, 119, 104, 101, 114,
    101, 32, 98, 61], [50, 46, 53], [32, 97, 110, 100, 32, 99, 61], [39, 105, 116, 39, 39, 115, 39],
      [47, 42, 42, 47]]

/-- Strings and numbers in either place, and two comments. -/
theorem samePattern_byString :
    (SqlParser.new.parse byString.flatten).answers.pattern =
      (SqlParser.new.parse byNumber.flatten).answers.pattern := by
  have string : ∀ {text : Bytes}, IsString text → IsValue text := Or.inl
  have number : ∀ {text : Bytes}, IsNumber text → IsValue text := Or.inr
  have one : IsNumber [49] := ⟨Or.inl (matches_some_.mpr ⟨by decide, by decide +kernel⟩)⟩
  have half : IsNumber [50, 46, 53] := by
    refine ⟨Or.inr (Or.inl ?_)⟩
    exact @Matches.seq _ _ _ [50] [46, 53] (.many (by decide +kernel))
      (@Matches.seq _ _ _ [46] [53] (matches_text.mpr rfl)
        (matches_some_.mpr ⟨by decide, by decide +kernel⟩))
  have same : List.Forall₂ Exchangeable byString byNumber := by
    refine .cons (Or.inl rfl) (.cons (Or.inr (Or.inl ⟨?_, number half⟩)) (.cons (Or.inl rfl)
      (.cons (Or.inr (Or.inl ⟨number one, ?_⟩)) (.cons (Or.inr (Or.inr ⟨?_, ?_⟩)) .nil))))
    · exact string ⟨rfl, by decide, by decide⟩
    · exact string ⟨rfl, by decide, by decide⟩
    · exact ⟨by decide, by decide⟩
    · exact ⟨by decide, by decide⟩
  exact samePattern (by decide +kernel) (by decide +kernel) same [] []

end OneProxy.Sql
