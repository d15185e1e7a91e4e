import OneProxy.Sql.Tokenizer
import Mathlib.Tactic.Ring

/-! The scanner comes to an end, adds tokens behind those that are there, and never a semicolon. -/

namespace OneProxy.Sql

open Lexing

namespace Scan

variable {s t : Scan} {action : Action} {n : Nat}

/-! ## One match -/

/-- A match is a rule of the start condition, and takes at least one character. -/
theorem picked (some_ : s.rest ≠ []) : ∃ action n, pick (rules s.state) s.rest = some (action, n) ∧
    (∃ p, (p, action) ∈ rules s.state ∧ n ∈ ends p s.rest) ∧ 1 ≤ n ∧ n ≤ s.rest.length := by
  obtain ⟨c, rest, same⟩ := List.exists_cons_of_ne_nil some_
  -- The default rule takes any character.
  have default : (Pattern.one fun _ => true, Action.echo) ∈ rules s.state :=
    List.mem_append_right _ List.mem_cons_self
  have one : 1 ∈ ends (Pattern.one fun _ : UInt8 => true) s.rest := by simp [same, ends]
  cases found : pick (rules s.state) s.rest with
  | none =>
    have none_ := pick_eq_none_iff.mp found _ default
    rw [none_] at one
    exact absurd one List.not_mem_nil
  | some result =>
    obtain ⟨action, n⟩ := result
    obtain ⟨there, most⟩ := pick_spec found
    refine ⟨action, n, rfl, there, most _ default 1 one, ?_⟩
    obtain ⟨p, _, member⟩ := there
    exact (mem_ends_iff.mp member).1

/-- What a step is: the end of the text in a start condition but `INITIAL`, or a match. -/
theorem step_cases (done : s.step = some t) :
    (s.rest = [] ∧ s.state ≠ .initial ∧ t = { s with state := .initial, kept := [] }) ∨
      ∃ action n p, pick (rules s.state) s.rest = some (action, n) ∧ (p, action) ∈ rules s.state ∧
        n ∈ ends p s.rest ∧ 1 ≤ n ∧ n ≤ s.rest.length ∧
          t = s.act (s.kept ++ s.rest.take n) (s.rest.drop n) action := by
  rw [step] at done
  by_cases empty : s.rest = []
  · rw [if_pos empty] at done
    by_cases initial : s.state = .initial
    · rw [if_pos initial] at done
      exact absurd done (by simp)
    · rw [if_neg initial, Option.some.injEq] at done
      exact Or.inl ⟨empty, initial, done.symm⟩
  · obtain ⟨action, n, found, ⟨p, member, inside⟩, positive, le⟩ := picked empty
    rw [if_neg empty, found, Option.map_some, Option.some.injEq] at done
    exact Or.inr ⟨action, n, p, found, member, inside, positive, le, done.symm⟩

/-- There is no step at the end of the text in `INITIAL`, and only there. -/
theorem step_eq_none_iff : s.step = none ↔ s.rest = [] ∧ s.state = .initial := by
  rw [step]
  by_cases empty : s.rest = []
  · rw [if_pos empty]
    split
    · exact iff_of_true rfl ⟨empty, ‹_›⟩
    · exact iff_of_false (by simp) fun both => absurd both.2 ‹_›
  · obtain ⟨action, n, found, _⟩ := picked empty
    rw [if_neg empty, found]
    exact iff_of_false (by simp) fun both => empty both.1

/-! ## The end of the text -/

/-- The number of characters that are kept or not scanned yet. -/
def left (s : Scan) : Nat := s.kept.length + s.rest.length

/-- What an action leaves of the text that it is given. -/
theorem left_act (s : Scan) {yytext rest : Bytes} (some_ : yytext ≠ []) :
    (action = .more ∧ (s.act yytext rest action).rest = rest ∧
        (s.act yytext rest action).state = s.state ∧
          (s.act yytext rest action).left = yytext.length + rest.length) ∨
      (s.act yytext rest action).left < yytext.length + rest.length := by
  -- Only a rule that keeps its text leaves as much as there was.
  have positive := List.length_pos_of_ne_nil some_
  cases action with
  | more => exact Or.inl ⟨rfl, rfl, rfl, rfl⟩
  | twoQuotes =>
    right
    rw [act]
    split
    · simp only [left, List.length_nil]
      omega
    · simp only [left, List.length_nil, List.length_append, List.length_drop]
      omega
  | oneQuote =>
    right
    rw [act]
    split <;> simp only [left, List.length_nil] <;> omega
  | token => right; simp only [act, left, List.length_nil]; omega
  | start => right; simp only [act, left, List.length_nil]; omega
  | toLast => right; simp only [act, left, List.length_nil]; omega
  | goto => right; simp only [act, left, List.length_nil]; omega
  | quote => right; simp only [act, left, List.length_nil]; omega
  | name => right; simp only [act, left, List.length_nil]; omega
  | ignore => right; simp only [act, left, List.length_nil]; omega
  | echo => right; simp only [act, left, List.length_nil]; omega

/-- A bound for the number of steps: characters that are left count more than those not scanned. -/
def remaining (length : Nat) (s : Scan) : Nat :=
  s.left * (length + 1) + s.rest.length + if s.state = .initial then 0 else 1

/-- Every step lowers the bound. -/
theorem remaining_step {length : Nat} (done : s.step = some t) (le : s.left ≤ length) :
    t.left ≤ length ∧ t.remaining length < s.remaining length := by
  rcases step_cases done with ⟨empty, other, rfl⟩ | ⟨action, n, p, _, _, _, positive, inside, rfl⟩
  · have fewer : ({ s with state := .initial, kept := [] } : Scan).left ≤ s.left := by
      simp [left]
    have less := Nat.mul_le_mul_right (length + 1) fewer
    refine ⟨Nat.le_trans fewer le, ?_⟩
    simp only [remaining, if_true, if_neg other]
    omega
  · have some_ : s.kept ++ s.rest.take n ≠ [] := by
      apply List.ne_nil_of_length_pos
      rw [List.length_append, List.length_take]
      omega
    have all : (s.kept ++ s.rest.take n).length + (s.rest.drop n).length = s.left := by
      simp only [left, List.length_append, List.length_take, List.length_drop]
      omega
    have within : ∀ u : Scan, u.rest.length ≤ u.left := fun u => Nat.le_add_left _ _
    rcases @left_act action s _ (s.rest.drop n) some_ with ⟨_, rest, state, same⟩ | less
    · -- What is kept is still left, but it is scanned.
      have fewer : (s.rest.drop n).length < s.rest.length := by
        rw [List.length_drop]
        omega
      rw [all] at same
      refine ⟨by omega, ?_⟩
      rw [remaining, remaining, same, rest, state]
      omega
    · rw [all] at less
      generalize s.act (s.kept ++ s.rest.take n) (s.rest.drop n) action = u at less
      have product := Nat.mul_le_mul_right (length + 1) (Nat.succ_le_of_lt less)
      rw [Nat.succ_mul] at product
      have rest := within u
      refine ⟨by omega, ?_⟩
      simp only [remaining]
      have one : (if u.state = .initial then 0 else 1) ≤ 1 := by split <;> omega
      omega

/-- Enough steps come to the end. -/
theorem step_run {length fuel : Nat} (le : s.left ≤ length) (enough : s.remaining length ≤ fuel) :
    (s.run fuel).step = none := by
  induction fuel generalizing s with
  | zero =>
    rw [run]
    cases done : s.step with
    | none => rfl
    | some t =>
      have lower := (remaining_step done le).2
      omega
  | succ fuel ih =>
    cases done : s.step with
    | none => simp only [run, done]
    | some t =>
      obtain ⟨le', lower⟩ := remaining_step done le
      simp only [run, done]
      exact ih le' (by omega)

/-- The bound is enough for every text. -/
theorem run_ends (store : TokenStore) (text : Bytes) :
    ((begin_ store text).run (bound text.length)).step = none := by
  have here : (begin_ store text).left = text.length := by simp [left, begin_]
  refine step_run (Nat.le_of_eq here) ?_
  rw [remaining, here, begin_, if_pos rfl, bound]
  ring_nf
  omega

/-! ## Tokens are added -/

/-- The ids of the tokens so far. -/
def ids (s : Scan) : List SqlTokenId := s.store.values.map (·.tokenId)

/-- What an action does to the tokens: they are in order still, and ids come behind them. -/
structure Adds (ok : SqlTokenId → Prop) (s t : TokenStore) : Prop where
  wf : t.WellFormed
  ids : ∃ more, t.values.map (·.tokenId) = s.values.map (·.tokenId) ++ more ∧ ∀ id ∈ more, ok id

variable {ok : SqlTokenId → Prop} {store store' store'' : TokenStore}

theorem Adds.refl (wf : store.WellFormed) : Adds ok store store :=
  ⟨wf, [], by simp, by simp⟩

theorem Adds.trans (first : Adds ok store store') (second : Adds ok store' store'') :
    Adds ok store store'' := by
  obtain ⟨more, same, all⟩ := first.ids
  obtain ⟨more', same', all'⟩ := second.ids
  refine ⟨second.wf, more ++ more', by rw [same', same, List.append_assoc], ?_⟩
  intro id member
  exact (List.mem_append.mp member).elim (all id) (all' id)

/-- An appended token adds its id, and perhaps that of a sign. -/
theorem adds_appendToken (wf : store.WellFormed) (signs : ok .minus ∧ ok .plus)
    {tokenId : SqlTokenId} (own : ok tokenId) (text : Bytes) :
    Adds ok store (store.appendToken tokenId text) := by
  refine ⟨wf.appendToken, ?_⟩
  rw [wf.values_appendToken, TokenStore.appended]
  split
  · refine ⟨[if text.head? = some 45 then .minus else .plus, tokenId], ?_, ?_⟩
    · split <;> simp
    · intro id member
      rcases List.mem_cons.mp member with rfl | last
      · split
        · exact signs.1
        · exact signs.2
      · exact List.mem_singleton.mp last ▸ own
  · exact ⟨[tokenId], by simp, fun id member => List.mem_singleton.mp member ▸ own⟩

/-- A text for the last token adds no id. -/
theorem adds_appendTokenToLast (wf : store.WellFormed) (text : Bytes) :
    Adds ok store (store.appendTokenToLast text) := by
  refine ⟨wf.appendTokenToLast, [], ?_, by simp⟩
  rw [TokenStore.values_appendTokenToLast, TokenStore.appendedToLast, List.append_nil]
  cases last : store.values.getLast? with
  | none => rfl
  | some t =>
    have parts := List.dropLast_append_getLast? t last
    conv_rhs => rw [← parts]
    simp

theorem adds_appendNames (wf : store.WellFormed) (signs : ok .minus ∧ ok .plus) (dot : ok .dot)
    (named : ∀ name, ok (tokenIdByName name)) (names : List Bytes) :
    Adds ok store (appendNames store names) := by
  induction names generalizing store with
  | nil => exact .refl wf
  | cons name names ih =>
    have first := adds_appendToken wf signs (named name) name
    cases names with
    | nil => exact first
    | cons next names =>
      have second := first.trans (adds_appendToken first.wf signs dot [46])
      exact second.trans (ih second.wf)

/-- The id that a rule gives to its token. -/
def madeId : Action → Option SqlTokenId
  | .token tokenId | .start tokenId _ => some tokenId
  | _ => none

/-- Ids that the scanner can make beside those of its rules. -/
structure Closed (ok : SqlTokenId → Prop) : Prop where
  signs : ok .minus ∧ ok .plus
  dot : ok .dot
  quoted : ok .string ∧ ok .literal
  named : ∀ name, ok (tokenIdByName name)
  ruled : ∀ state, ∀ p ∈ rules state, ∀ id ∈ madeId p.2, ok id

theorem adds_act (closed : Closed ok) (wf : s.store.WellFormed)
    (within : ∀ id ∈ madeId action, ok id) (yytext rest : Bytes) :
    Adds ok s.store (s.act yytext rest action).store := by
  -- One case for each action; only those that make tokens have to be about kinds that are allowed.
  cases action with
  | token tokenId => exact adds_appendToken wf closed.signs (within _ rfl) _
  | start tokenId next => exact adds_appendToken wf closed.signs (within _ rfl) _
  | toLast => exact adds_appendTokenToLast wf _
  | quote =>
    refine adds_appendToken wf closed.signs ?_ _
    rw [quoteTokenId]
    split
    · exact closed.quoted.1
    · exact closed.quoted.2
  | twoQuotes =>
    rw [act]
    split
    · exact adds_appendTokenToLast wf _
    · exact adds_appendTokenToLast wf _
  | oneQuote =>
    rw [act]
    split
    · exact .refl wf
    · exact adds_appendTokenToLast wf _
  | name => exact adds_appendNames wf closed.signs closed.dot closed.named _
  | goto => exact .refl wf
  | more => exact .refl wf
  | ignore => exact .refl wf
  | echo => exact .refl wf

/-- A step adds ids behind those that are there. -/
theorem adds_step (closed : Closed ok) (wf : s.store.WellFormed) (done : s.step = some t) :
    Adds ok s.store t.store := by
  rcases step_cases done with ⟨_, _, rfl⟩ | ⟨action, n, p, _, member, _, _, _, rfl⟩
  · exact .refl wf
  · exact adds_act closed wf (closed.ruled _ _ member) _ _

/-- So does every number of steps. -/
theorem adds_run (closed : Closed ok) (wf : s.store.WellFormed) (fuel : Nat) :
    Adds ok s.store (s.run fuel).store := by
  induction fuel generalizing s with
  | zero => exact .refl wf
  | succ fuel ih =>
    rw [run]
    cases done : s.step with
    | none => exact .refl wf
    | some t =>
      have first := adds_step closed wf done
      exact first.trans (ih first.wf)

/-- The scanner makes no semicolon. -/
theorem closed_noSemicolon : Closed (· ≠ .semicolon) where
  signs := by decide
  dot := by decide
  quoted := by decide
  named name := by
    rw [tokenIdByName_eq]
    cases found : tokenInfos.find? fun info => sameName info.1 name with
    | none => decide
    | some info =>
      have member := List.mem_of_find?_eq_some found
      have all : tokenInfos.all (fun info => decide (info.2 ≠ .semicolon)) = true := by decide
      exact of_decide_eq_true (List.all_eq_true.mp all info member)
  ruled state p member := by
    have all : (rules state).all (fun p => decide (madeId p.2 ≠ some .semicolon)) = true := by
      cases state <;> decide
    rintro id same rfl
    exact of_decide_eq_true (List.all_eq_true.mp all p member) same

/-! ## Earlier statements -/

/-- Two scanners that differ in the tokens they keep for later only. -/
structure Alike (s t : Scan) : Prop where
  state : s.state = t.state
  quoteChar : s.quoteChar = t.quoteChar
  kept : s.kept = t.kept
  rest : s.rest = t.rest
  values : s.store.values = t.store.values
  wf : s.store.WellFormed
  wf' : t.store.WellFormed

/-- Two stores with the same tokens in their statements. -/
structure SameValues (store store' : TokenStore) : Prop where
  values : store.values = store'.values
  wf : store.WellFormed
  wf' : store'.WellFormed

theorem SameValues.appendToken (same : SameValues store store') (tokenId : SqlTokenId)
    (text : Bytes) :
    SameValues (store.appendToken tokenId text) (store'.appendToken tokenId text) :=
  ⟨by rw [same.wf.values_appendToken, same.wf'.values_appendToken, same.values],
    same.wf.appendToken, same.wf'.appendToken⟩

theorem SameValues.appendTokenToLast (same : SameValues store store') (text : Bytes) :
    SameValues (store.appendTokenToLast text) (store'.appendTokenToLast text) :=
  ⟨by rw [TokenStore.values_appendTokenToLast, TokenStore.values_appendTokenToLast, same.values],
    same.wf.appendTokenToLast, same.wf'.appendTokenToLast⟩

theorem SameValues.appendNames (same : SameValues store store') (names : List Bytes) :
    SameValues (Scan.appendNames store names) (Scan.appendNames store' names) := by
  induction names generalizing store store' with
  | nil => exact same
  | cons name names ih =>
    have first := same.appendToken (tokenIdByName name) name
    cases names with
    | nil => exact first
    | cons next names => exact ih (first.appendToken .dot [46])

theorem Alike.same (alike : Alike s t) : SameValues s.store t.store :=
  ⟨alike.values, alike.wf, alike.wf'⟩

/-- An action leaves alike what was alike. -/
theorem Alike.act (alike : Alike s t) (yytext rest : Bytes) (action : Action) :
    Alike (s.act yytext rest action) (t.act yytext rest action) := by
  have same := alike.same
  have alikeOf : ∀ {store store' : TokenStore} (state : StartState) (quoteChar : UInt8)
      (kept rest : Bytes), SameValues store store' →
      Alike ⟨state, quoteChar, kept, rest, store⟩ ⟨state, quoteChar, kept, rest, store'⟩ :=
    fun _ _ _ _ same => ⟨rfl, rfl, rfl, rfl, same.values, same.wf, same.wf'⟩
  -- The actions write the kinds of tokens, which may differ, and read their values, which do not.
  cases action with
  | token tokenId =>
    simp only [Scan.act, alike.state, alike.quoteChar]
    exact alikeOf _ _ _ _ (same.appendToken _ _)
  | start tokenId next =>
    simp only [Scan.act, alike.quoteChar]
    exact alikeOf _ _ _ _ (same.appendToken _ _)
  | toLast =>
    simp only [Scan.act, alike.state, alike.quoteChar]
    exact alikeOf _ _ _ _ (same.appendTokenToLast _)
  | goto next =>
    simp only [Scan.act, alike.quoteChar]
    exact alikeOf _ _ _ _ same
  | quote => exact alikeOf _ _ _ _ (same.appendToken _ _)
  | more =>
    simp only [Scan.act, alike.state, alike.quoteChar]
    exact alikeOf _ _ _ _ same
  | twoQuotes =>
    simp only [Scan.act, alike.state, alike.quoteChar]
    split
    · exact alikeOf _ _ _ _ (same.appendTokenToLast _)
    · exact alikeOf _ _ _ _ (same.appendTokenToLast _)
  | oneQuote =>
    simp only [Scan.act, alike.state, alike.quoteChar]
    split
    · exact alikeOf _ _ _ _ same
    · exact alikeOf _ _ _ _ (same.appendTokenToLast _)
  | name =>
    simp only [Scan.act, alike.state, alike.quoteChar]
    exact alikeOf _ _ _ _ (same.appendNames _)
  | ignore =>
    simp only [Scan.act, alike.state, alike.quoteChar]
    exact alikeOf _ _ _ _ same
  | echo =>
    simp only [Scan.act, alike.state, alike.quoteChar]
    exact alikeOf _ _ _ _ same

/-- Scanners that are alike take the same step, or none. -/
theorem Alike.step (alike : Alike s t) : s.step = none ∧ t.step = none ∨
    ∃ s' t', s.step = some s' ∧ t.step = some t' ∧ Alike s' t' := by
  by_cases empty : s.rest = []
  · have empty' : t.rest = [] := alike.rest ▸ empty
    rw [Scan.step, if_pos empty, Scan.step, if_pos empty', alike.state]
    by_cases initial : t.state = .initial
    · rw [if_pos initial, if_pos initial]
      exact Or.inl ⟨rfl, rfl⟩
    · rw [if_neg initial, if_neg initial]
      exact Or.inr ⟨_, _, rfl, rfl,
        ⟨rfl, alike.quoteChar, rfl, alike.rest, alike.values, alike.wf, alike.wf'⟩⟩
  · obtain ⟨action, n, found, _⟩ := picked empty
    have found' : pick (rules t.state) t.rest = some (action, n) := by
      rw [← alike.state, ← alike.rest, found]
    rw [Scan.step, if_neg empty, Scan.step, if_neg (alike.rest ▸ empty), found, found',
      alike.kept, alike.rest]
    exact Or.inr ⟨_, _, rfl, rfl, alike.act _ _ action⟩

/-- Scanners that are alike stay so. -/
theorem Alike.run (alike : Alike s t) (fuel : Nat) : Alike (s.run fuel) (t.run fuel) := by
  induction fuel generalizing s t with
  | zero => exact alike
  | succ fuel ih =>
    rw [Scan.run, Scan.run]
    rcases alike.step with ⟨none_, none_'⟩ | ⟨s', t', some_, some_', next⟩
    · simp only [none_, none_']
      exact alike
    · simp only [some_, some_']
      exact ih next

end Scan

/-- What was scanned before makes no difference to the tokens of a text. -/
theorem values_parseToken {store : TokenStore} (wf : store.WellFormed) (empty : store.values = [])
    (text : Bytes) : (parseToken store text).WellFormed ∧
      (parseToken store text).values = tokenize text := by
  have start : Scan.Alike (.begin_ store text) (.begin_ .new text) :=
    ⟨rfl, rfl, rfl, rfl, empty, wf, TokenStore.wellFormed_new⟩
  have alike := start.run (Scan.bound text.length)
  exact ⟨alike.wf, alike.values⟩

/-- No text has a semicolon among its tokens. -/
theorem noSemicolon_tokenize (text : Bytes) : ∀ t ∈ tokenize text, t.tokenId ≠ .semicolon := by
  have adds := @Scan.adds_run (.begin_ .new text) _ Scan.closed_noSemicolon
    TokenStore.wellFormed_new (Scan.bound text.length)
  obtain ⟨more, same, all⟩ := adds.ids
  intro t member
  refine all t.tokenId ?_
  have inside : t.tokenId ∈ (tokenize text).map (·.tokenId) := List.mem_map_of_mem member
  rw [tokenize, parseToken, same] at inside
  exact inside

end OneProxy.Sql
