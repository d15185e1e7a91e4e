import OneProxy.Sql.TokenizerLaws
import OneProxy.Sql.Windows

/-! What a BEGIN with statements behind it reports. -/

namespace OneProxy.Sql

open Lexing

/-! ## Tokens without a semicolon -/

section

variable {ts : List SqlToken}

/-- Where there is no semicolon, none is found. -/
theorem findSemicolon_none (none_ : ∀ t ∈ ts, t.tokenId ≠ .semicolon) (count i : Nat)
    (inside : i + count ≤ ts.length) : findSemicolon ts count i = some (i + count) := by
  induction count generalizing i with
  | zero => rfl
  | succ count ih =>
    obtain ⟨t, there, id⟩ := tokenId_lt (by omega : i < ts.length)
    rw [findSemicolon, id]
    simp only [Option.bind_eq_bind, Option.bind_some]
    rw [if_neg (none_ t (List.mem_of_getElem? there)), ih (i + 1) (by omega), Nat.add_assoc,
      Nat.add_comm 1]

/-- Without a semicolon, the statements behind a BEGIN are never parsed. -/
theorem tables_begin (begins : tokenId ts 0 = some .sqlBegin)
    (none_ : ∀ t ∈ ts, t.tokenId ≠ .semicolon) : tables ts = some [] := by
  have inside := lt_of_tokenId begins
  have skip : ∀ tokId, tokId ≠ .sqlBegin → skipSomeHeaderTokens ts tokId ts.length 0 = some 0 := by
    intro tokId differ
    obtain ⟨n, length⟩ := Nat.exists_eq_succ_of_ne_zero (Nat.ne_of_gt inside)
    rw [length, skipSomeHeaderTokens, begins]
    simp [differ.symm]
  have skipped : skipExternTokensInHeader ts 0 ts.length = some 0 := by
    rw [skipExternTokensInHeader, Nat.sub_zero, skip .comment (by decide)]
    exact skip .sqlExplain (by decide)
  have found : findSemicolon ts ts.length 0 = some ts.length := by
    rw [findSemicolon_none none_ ts.length 0 (by omega), Nat.zero_add]
  -- The first round goes to the end of the text, and there is no second one.
  have parsed : ∀ sub, parseBegin ts sub .new 0 ts.length = some .new := by
    intro sub
    rw [parseBegin, parseStatements, if_pos inside]
    simp only [Nat.sub_zero, found, Option.bind_eq_bind, Option.bind_some, gt_iff_lt,
      Nat.lt_irrefl, if_false, parseStatements]
  have sub : parseSubQuery ts (ts.length + 1) .new 0 ts.length = some .new := by
    rw [parseSubQuery, skipped]
    simp only [Option.bind_eq_bind, Option.bind_some]
    rw [if_neg (Nat.ne_of_lt inside), begins]
    exact parsed _
  rw [tables, parse, sub]
  rfl

end

/-! ## Texts -/

/-- `BEGIN; s1; s2; ...; sn`. -/
def batch (statements : List Bytes) : Bytes :=
  [66, 69, 71, 73, 78, 59] ++ [59].intercalate (statements.map fun s => 32 :: s)

section

attribute [local simp] pick longest ends rules initialRules Pattern.text Pattern.some_
  Pattern.optional Rule.name Rule.dotted Rule.digits Rule.decimal Rule.scientific Rule.newline
  Rule.inName isDigit isAlpha isSpace isQuote notNewline List.range List.range.loop

/-- The first match of a batch is its BEGIN. -/
theorem pick_begin (rest : Bytes) :
    pick (rules .initial) (66 :: 69 :: 71 :: 73 :: 78 :: 59 :: rest) = some (.name, 5) := by simp

end

/-- The first token of a batch is its BEGIN. -/
theorem begins_batch (statements : List Bytes) :
    tokenId (tokenize (batch statements)) 0 = some .sqlBegin := by
  let start := Scan.begin_ .new (batch statements)
  have first : start.step =
      some (start.act [66, 69, 71, 73, 78] ((batch statements).drop 5) .name) := by
    rw [Scan.step, if_neg (by simp [start, Scan.begin_, batch])]
    have found : pick (rules start.state) start.rest = some (.name, 5) := pick_begin _
    rw [found]
    rfl
  have one : start.store.WellFormed := TokenStore.wellFormed_new
  have named := Scan.adds_step Scan.closed_noSemicolon one first
  -- Whatever comes is behind the first token.
  have adds := Scan.adds_run Scan.closed_noSemicolon named.wf
    (Scan.bound (batch statements).length - 1)
  obtain ⟨more, same, _⟩ := adds.ids
  have run : (start.run (Scan.bound (batch statements).length)).store =
      ((start.act [66, 69, 71, 73, 78] ((batch statements).drop 5) .name).run
        (Scan.bound (batch statements).length - 1)).store := by
    have positive : Scan.bound (batch statements).length =
        Scan.bound (batch statements).length - 1 + 1 := by
      refine (Nat.sub_add_cancel ?_).symm
      exact Nat.mul_pos (Nat.succ_pos _) (Nat.succ_pos _)
    conv_lhs => rw [positive]
    simp only [Scan.run, first]
  have ids : (tokenize (batch statements)).map (·.tokenId) = .sqlBegin :: more := by
    change (start.run (Scan.bound (batch statements).length)).store.values.map (·.tokenId) = _
    rw [run, same]
    have keyword : (start.act [66, 69, 71, 73, 78] ((batch statements).drop 5) .name).store.values =
        [⟨.sqlBegin, [66, 69, 71, 73, 78]⟩] := by
      change (Scan.appendNames .new [[66, 69, 71, 73, 78]]).values = _
      decide +kernel
    rw [keyword]
    rfl
  have head := congrArg (·[0]?) ids
  rw [tokenId]
  simpa using head

/-- The tables of a batch are those of its statements, each parsed alone. -/
def ReportsBatch (statements : List Bytes) : Prop :=
  ∃ parts, List.Forall₂ (fun s part => tables (tokenize s) = some part) statements parts ∧
    tables (tokenize (batch statements)) = some parts.flatten

/-- Where the parts have no tables at all, the statements report none. -/
theorem none_of_flatten_eq_nil {statements : List Bytes} {parts : List (List Bytes)}
    (each : List.Forall₂ (fun s part => tables (tokenize s) = some part) statements parts)
    (whole : parts.flatten = []) : ∀ s ∈ statements, tables (tokenize s) = some [] := by
  induction each with
  | nil => exact fun s member => absurd member List.not_mem_nil
  | @cons s part statements parts reports _ ih =>
    have empty := List.flatten_eq_nil_iff.mp whole
    intro s' member
    rcases List.mem_cons.mp member with rfl | member
    · rw [reports, empty part List.mem_cons_self]
    · refine ih (List.flatten_eq_nil_iff.mpr fun part inside => ?_) s' member
      exact empty part (List.mem_cons_of_mem _ inside)

/-- A batch reports nothing, which is right if its statements report nothing either. -/
theorem reportsBatch_iff (statements : List Bytes) :
    ReportsBatch statements ↔ ∀ s ∈ statements, tables (tokenize s) = some [] := by
  have nothing : tables (tokenize (batch statements)) = some [] :=
    tables_begin (begins_batch statements) (noSemicolon_tokenize _)
  constructor
  · rintro ⟨parts, each, whole⟩
    rw [nothing, Option.some.injEq, eq_comm] at whole
    exact none_of_flatten_eq_nil each whole
  · intro none_
    refine ⟨statements.map fun _ => [], ?_, ?_⟩
    · exact List.forall₂_map_right_iff.mpr (List.forall₂_same.mpr none_)
    · rw [nothing]
      simp

/-- `select a from t`. -/
def selectFromT : Bytes :=
  [115, 101, 108, 101, 99, 116, 32, 97, 32, 102, 114, 111, 109, 32, 116]

/-- Its table is lost in a batch. -/
theorem selectFromT_lost : tables (tokenize selectFromT) = some [[116]] ∧
    tables (tokenize (batch [selectFromT])) = some [] ∧ ¬ ReportsBatch [selectFromT] := by
  have alone : tables (tokenize selectFromT) = some [[116]] := by decide +kernel
  have nothing : tables (tokenize (batch [selectFromT])) = some [] :=
    tables_begin (begins_batch _) (noSemicolon_tokenize _)
  refine ⟨alone, nothing, fun reports => ?_⟩
  obtain ⟨parts, each, whole⟩ := reports
  rw [nothing, Option.some.injEq, eq_comm] at whole
  have same := none_of_flatten_eq_nil each whole selectFromT List.mem_cons_self
  rw [alone] at same
  exact absurd same (by decide)

end OneProxy.Sql
