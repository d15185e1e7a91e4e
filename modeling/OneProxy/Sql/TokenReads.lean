import OneProxy.Sql.StatementReads

/-! Which statements make the parser read a token that is not there. -/

namespace OneProxy.Sql

variable {ts : List SqlToken} {sub : Parsing → Nat → Nat → Option Parsing} {s : Parsing}
    {tbegin : Nat}

/-- A statement is safe unless it is cut off, or continued by one that is. -/
theorem reads_parseStatement (subReads : SubReads ts tbegin sub) (formed : AllFormed ts s)
    {tend b : Nat} (upper : tbegin < tend) (ends : Ends ts tend)
    (skipped : skipExternTokensInHeader ts b tend = some tbegin) {id : SqlTokenId}
    (begins : tokenId ts tbegin = some id) :
    Reads ts s (parseStatement ts sub id s tbegin tend) (tend = ts.length → ¬ Overrun ts b) := by
  have inside := ends.le
  -- Only the statement that begins there decides whether the parser runs over.
  have overrun : tend = ts.length → (Overrun ts b ↔
      CutAt ts id tbegin ∨ ∃ next, ContinuesAt ts id tbegin next ∧ Overrun ts next) := by
    intro last
    rw [last] at skipped
    rw [overrun_iff]
    constructor
    · intro either
      obtain ⟨h, skipped', id', begins', cut⟩ | ⟨next,
          ⟨h, skipped', id', begins', continues⟩, beyond⟩ :=
        either
      · rw [skipped, Option.some.injEq] at skipped'
        subst skipped'
        rw [begins, Option.some.injEq] at begins'
        subst begins'
        exact Or.inl cut
      · rw [skipped, Option.some.injEq] at skipped'
        subst skipped'
        rw [begins, Option.some.injEq] at begins'
        subst begins'
        exact Or.inr ⟨next, continues, beyond⟩
    · intro either
      obtain cut | ⟨next, continues, beyond⟩ := either
      · exact Or.inl ⟨tbegin, skipped, id, begins, cut⟩
      · exact Or.inr ⟨next, ⟨tbegin, skipped, id, begins, continues⟩, beyond⟩
  have safe_iff : (tend = ts.length →
      ¬ (CutAt ts id tbegin ∨ ∃ next, ContinuesAt ts id tbegin next ∧ Overrun ts next)) ↔
      (tend = ts.length → ¬ Overrun ts b) := by
    constructor
    · intro safe last beyond
      exact safe last ((overrun last).mp beyond)
    · intro safe last bad
      exact safe last ((overrun last).mpr bad)
  have only_cut : (∀ next, ¬ ContinuesAt ts id tbegin next) →
      ((tend = ts.length → ¬ CutAt ts id tbegin) ↔ (tend = ts.length → ¬ Overrun ts b)) := by
    intro ends'
    rw [← safe_iff]
    simp [ends']
  have harmless : ¬ CutAt ts id tbegin → (∀ next, ¬ ContinuesAt ts id tbegin next) →
      (True ↔ (tend = ts.length → ¬ Overrun ts b)) := by
    intro whole ends'
    rw [← only_cut ends']
    simp [whole]
  unfold parseStatement
  split
  · exact (reads_parseSelect subReads formed upper ends begins).congr safe_iff
  · exact (reads_parseUpdate subReads formed upper inside begins).congr
      (harmless not_false fun _ => not_false)
  · exact (reads_parseDelete subReads formed upper inside begins).congr
      (harmless not_false fun _ => not_false)
  · exact (reads_parseInsert subReads formed ends begins (by decide)).congr safe_iff
  · exact (reads_parseInsert subReads formed ends begins (by decide)).congr safe_iff
  · exact (reads_parseCreate formed ends begins (by decide)).congr (only_cut fun _ => not_false)
  · exact (reads_parseCreate formed ends begins (by decide)).congr (only_cut fun _ => not_false)
  · exact (reads_parseCreate formed ends begins (by decide)).congr (only_cut fun _ => not_false)
  · exact (reads_parseDescribe formed inside begins (by decide)).congr
      (harmless not_false fun _ => not_false)
  · exact (reads_parseDescribe formed inside begins (by decide)).congr
      (harmless not_false fun _ => not_false)
  · exact (reads_parseShow formed inside begins (by decide)).congr (only_cut fun _ => not_false)
  · exact (reads_parseTruncate formed inside begins (by decide)).congr
      (harmless not_false fun _ => not_false)
  · refine (reads_parseStatements subReads ends (tend - tbegin + 2) s tbegin formed (by omega)
      (Nat.le_of_lt upper) (Or.inl rfl)).congr (Iff.trans ?_ safe_iff)
    constructor
    · intro safe last bad
      obtain impossible | ⟨next, continues, beyond⟩ := bad
      · exact impossible
      · exact safe last next (Nat.le_of_lt continues.1) continues beyond
    · intro safe last next _ continues beyond
      exact safe last (Or.inr ⟨next, continues, beyond⟩)
  · exact (reads_parseVacuum formed inside begins (by decide)).congr
      (harmless not_false fun _ => not_false)
  · -- A statement of any other kind is not looked at.
    have whole : ¬ CutAt ts id tbegin := by
      unfold CutAt
      grind
    have ends' : ∀ next, ¬ ContinuesAt ts id tbegin next := by
      intro next
      unfold ContinuesAt
      grind
    exact (Reads.same formed rfl).congr (harmless whole ends')

/-- A statement is safe, however it is nested, unless it runs over at the end of the tokens. -/
theorem reads_parseSubQuery (fuel : Nat) : ∀ (s : Parsing) (b e : Nat), b ≤ e →
    ts.length < b + fuel → Ends ts e → AllFormed ts s →
      Reads ts s (parseSubQuery ts fuel s b e) (e = ts.length → ¬ Overrun ts b) := by
  induction fuel with
  | zero =>
    intro s b e order enough ends
    have inside := ends.le
    omega
  | succ fuel ih =>
    intro s b e order enough ends formed
    obtain ⟨h, skipped, lower, upper⟩ := skipExternTokensInHeader_spec order ends.le
    simp only [parseSubQuery, skipped, Option.bind_eq_bind, Option.bind_some]
    by_cases empty : h = e
    · -- Nothing but a header.
      rw [if_pos empty]
      refine (Reads.same formed rfl).congr ?_
      simp only [true_iff]
      intro last beyond
      have missing : tokenId ts h = none := tokenId_eq_none_iff.mpr (by omega)
      rw [last] at skipped
      rw [overrun_iff] at beyond
      obtain ⟨h', skipped', id, begins, _⟩ | ⟨_, ⟨h', skipped', id, begins, _⟩, _⟩ := beyond
      · rw [skipped, Option.some.injEq] at skipped'
        rw [← skipped', missing] at begins
        cases begins
      · rw [skipped, Option.some.injEq] at skipped'
        rw [← skipped', missing] at begins
        cases begins
    · have inside := ends.le
      obtain ⟨t, _, id⟩ := @tokenId_lt ts h (by omega)
      rw [if_neg empty, id, Option.bind_some]
      have subReads : SubReads ts h (parseSubQuery ts fuel) := by
        intro s' b' e' later order' ends' formed'
        exact ih s' b' e' order' (by omega) ends' formed'
      exact reads_parseStatement subReads formed (by omega) ends skipped id

/-- The parser comes to a result unless the statement is cut off at one of a few places. -/
theorem isSome_parse_iff (ts : List SqlToken) : (parse ts).isSome ↔ ¬ Overrun ts 0 := by
  have reads := @reads_parseSubQuery ts (ts.length + 1) .new 0 ts.length (Nat.zero_le _) (by omega)
    (Or.inl rfl) (by simp [AllFormed, Parsing.new])
  unfold parse
  cases result : parseSubQuery ts (ts.length + 1) .new 0 ts.length with
  | none =>
    rw [result] at reads
    have bad : Overrun ts 0 := by
      by_contra safe
      exact reads fun _ => safe
    simp [bad]
  | some s =>
    rw [result] at reads
    obtain ⟨formed, readable⟩ := reads
    -- In the beginning there is no statement to read tables of.
    have start : AllReadable ts .new := by simp [AllReadable, Parsing.new]
    simp only [Option.bind_eq_bind, Option.bind_some]
    rw [isSome_parseQueryTables_iff s.querylist s formed]
    show AllReadable ts s ↔ ¬ Overrun ts 0
    rw [readable]
    simp [start]

/-- `parse` calls `token(i)` only for tokens that are there: a call for any other has no result. -/
def ReadsInRange (ts : List SqlToken) : Prop := (parse ts).isSome

instance (ts : List SqlToken) : Decidable (ReadsInRange ts) :=
  inferInstanceAs (Decidable ((parse ts).isSome = true))

/--
The parser reads only tokens that are there, unless the statement is cut off where it reads on.

What matters is the statement that the last tokens belong to: the one after the last UNION, after
the last semicolon of a BEGIN, or in an INSERT.
-/
theorem readsInRange_iff (ts : List SqlToken) : ReadsInRange ts ↔ ¬ Overrun ts 0 :=
  isSome_parse_iff ts

/-- `select a from t union`. -/
def selectUnion : List SqlToken :=
  [⟨.sqlSelect, [115, 101, 108, 101, 99, 116]⟩, ⟨.literal, [97]⟩, ⟨.sqlFrom, [102, 114, 111, 109]⟩,
    ⟨.literal, [116]⟩, ⟨.sqlUnion, [117, 110, 105, 111, 110]⟩]

/-- After the UNION the parser reads a sixth token of five. -/
theorem selectUnion_overruns : ¬ ReadsInRange selectUnion := by decide

end OneProxy.Sql
