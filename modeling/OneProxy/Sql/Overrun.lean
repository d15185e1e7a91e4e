import Mathlib.Logic.Relation
import OneProxy.Sql.SubSelects
import OneProxy.Sql.TableReads

/-!
The statements that are cut off where the parser reads on, and what it means to be safe from them.
-/

namespace OneProxy.Sql

open TopLevel

section

variable (ts : List SqlToken)

/--
A SELECT that is cut off after UNION, or whose list of tables ends with a join with a long tail.
-/
def CutSelect (h : Nat) : Prop :=
  ∃ f, firstOf ts [.sqlFrom] h ts.length = some f ∧
    ((∃ u, firstOf ts [.sqlUnion] h ts.length = some u ∧
        (u + 1 = ts.length ∨ tokenId ts (u + 1) = some .sqlAll ∧ u + 2 = ts.length)) ∨
      firstOf ts fromEndIds (f + 1) ts.length = none ∧ LongTail (window ts (f + 1) ts.length))

/-- An INSERT that is cut off after its table, or after VALUES. -/
def CutInsert (h : Nat) : Prop :=
  ∃ into table, firstOf ts [.sqlInto] h ts.length = some into ∧ into + 1 < ts.length ∧
    insertTableEnd ts (ts.length - (into + 2)) (into + 2) = some table ∧
    (table = ts.length ∨ tokenId ts table ≠ some .sqlSet ∧
      ∃ v, firstOf ts valuesIds table ts.length = some v ∧ v + 1 = ts.length)

/-- What may stand between TABLE and the name of a table. -/
def ifNotExistsIds : List SqlTokenId := [.sqlIf, .sqlNot, .sqlExists]

/-- A CREATE TABLE without a table, after which there is at least one token. -/
def CutCreate (h : Nat) : Prop :=
  h + 2 < ts.length ∧ tokenId ts (h + 1) = some .sqlTable ∧
    ∀ i, h + 2 ≤ i → i < ts.length → ∃ id ∈ ifNotExistsIds, tokenId ts i = some id

/-- A SHOW that is cut off after COLUMNS, or after the FROM that follows. -/
def CutShow (h : Nat) : Prop :=
  h + 2 < ts.length ∧ ∃ c, firstOf ts [.sqlColumns] 1 ts.length = some c ∧
    match firstOf ts [.sqlFrom] (c + 1) ts.length with
    | some f => f + 1 = ts.length
    | none => c + 1 = ts.length

/-- A statement of one of these kinds is cut off where the parser reads on. -/
def CutAt (id : SqlTokenId) (h : Nat) : Prop :=
  match id with
  | .sqlSelect => CutSelect ts h
  | .sqlInsert | .sqlReplace => CutInsert ts h
  | .sqlCreate | .sqlAlter | .sqlDrop => CutCreate ts h
  | .sqlShow => CutShow ts h
  | _ => False

/-- The statement that begins at a token, and runs to the end, is cut off. -/
def Cut (b : Nat) : Prop :=
  ∃ h, skipExternTokensInHeader ts b ts.length = some h ∧
    ∃ id, tokenId ts h = some id ∧ CutAt ts id h

/-- The SELECT after a UNION. -/
def ContinuesSelect (h next : Nat) : Prop :=
  ∃ f u, firstOf ts [.sqlFrom] h ts.length = some f ∧ firstOf ts [.sqlUnion] h ts.length = some u ∧
    next = (if tokenId ts (u + 1) = some .sqlAll then u + 2 else u + 1) ∧
    tokenId ts next = some .sqlSelect

/-- The SELECT that an INSERT takes its rows from. -/
def ContinuesInsert (h next : Nat) : Prop :=
  ∃ into table, firstOf ts [.sqlInto] h ts.length = some into ∧ into + 1 < ts.length ∧
    insertTableEnd ts (ts.length - (into + 2)) (into + 2) = some table ∧
    (tokenId ts table = some .sqlSet ∨ firstOf ts valuesIds table ts.length = none) ∧
    firstOf ts [.sqlSelect] table ts.length = some next

/-- The last statement after a BEGIN. -/
def ContinuesBegin (h next : Nat) : Prop :=
  h < next ∧ next < ts.length ∧ tokenBefore ts next = some .semicolon ∧
    ∀ i, next ≤ i → tokenId ts i ≠ some .semicolon

/-- A statement of one of these kinds ends with another one, which the parser takes up in turn. -/
def ContinuesAt (id : SqlTokenId) (h next : Nat) : Prop :=
  match id with
  | .sqlSelect => ContinuesSelect ts h next
  | .sqlInsert | .sqlReplace => ContinuesInsert ts h next
  | .sqlBegin => ContinuesBegin ts h next
  | _ => False

/-- The statement that begins at a token, and runs to the end, ends with another one. -/
def Continues (b next : Nat) : Prop :=
  ∃ h, skipExternTokensInHeader ts b ts.length = some h ∧
    ∃ id, tokenId ts h = some id ∧ ContinuesAt ts id h next

/-- A statement that is cut off, or one that ends with such a statement. -/
def Overrun (b : Nat) : Prop := ∃ last, Relation.ReflTransGen (Continues ts) b last ∧ Cut ts last

end

variable {ts : List SqlToken}

/-- A statement is cut off itself, or continued by one that is. -/
theorem overrun_iff {b : Nat} :
    Overrun ts b ↔ Cut ts b ∨ ∃ next, Continues ts b next ∧ Overrun ts next := by
  constructor
  · intro ⟨last, path, cut⟩
    obtain same | ⟨next, first, rest⟩ := Relation.ReflTransGen.cases_head path
    · exact Or.inl (same ▸ cut)
    · exact Or.inr ⟨next, first, last, rest, cut⟩
  · intro either
    obtain cut | ⟨next, first, last, rest, cut⟩ := either
    · exact ⟨b, Relation.ReflTransGen.refl, cut⟩
    · exact ⟨last, Relation.ReflTransGen.head first rest, cut⟩

/-- All statements found so far have a list of tables that ends within the tokens. -/
def AllFormed (ts : List SqlToken) (s : Parsing) : Prop :=
  ∀ query ∈ s.querylist, WellFormed ts query

/-- The tables of all statements found so far are read within the tokens. -/
def AllReadable (ts : List SqlToken) (s : Parsing) : Prop :=
  ∀ query ∈ s.querylist, Readable ts query

/-- A result that is there, and whose new statements can be read, if and only if `safe`. -/
def Reads (ts : List SqlToken) (s : Parsing) (r : Option Parsing) (safe : Prop) : Prop :=
  match r with
  | none => ¬ safe
  | some after => AllFormed ts after ∧ (AllReadable ts after ↔ AllReadable ts s ∧ safe)

namespace Reads

variable {s : Parsing} {r : Option Parsing} {P Q : Prop}

theorem congr (reads : Reads ts s r P) (same : P ↔ Q) : Reads ts s r Q := by
  cases r with
  | none => exact fun safe => reads (same.mpr safe)
  | some after =>
    obtain ⟨formed, readable⟩ := reads
    exact ⟨formed, by rw [readable, same]⟩

/-- What finds no statement is safe. -/
theorem same {after : Parsing} (formed : AllFormed ts s) (queries : after.querylist = s.querylist) :
    Reads ts s (some after) True := by
  refine ⟨?_, ?_⟩
  · unfold AllFormed
    rwa [queries]
  · simp only [AllReadable, queries, and_true]

/-- A read that fails is safe under no condition that it contradicts. -/
theorem fails (unsafe' : ¬ P) : Reads ts s none P := unsafe'

/-- One part of the parser and then another. -/
theorem bind {next : Parsing → Option Parsing} (first : Reads ts s r P)
    (rest : ∀ after, AllFormed ts after → Reads ts after (next after) Q) :
    Reads ts s (r.bind next) (P ∧ Q) := by
  cases r with
  | none => exact fun both => first both.1
  | some middle =>
    obtain ⟨formed, readable⟩ := first
    have second := rest middle formed
    rw [Option.bind_some]
    cases done : next middle with
    | none =>
      rw [done] at second
      exact fun both => second both.2
    | some after =>
      rw [done] at second
      obtain ⟨formed', readable'⟩ := second
      exact ⟨formed', by rw [readable', readable, and_assoc]⟩

/-- A statement more. -/
theorem push {query : SQLQuery} (formed : AllFormed ts s) (new : WellFormed ts query) :
    Reads ts s (some (s.pushQuery query)) (Readable ts query) := by
  refine ⟨?_, ?_⟩
  · intro other member
    obtain old | last := List.mem_append.mp member
    · exact formed other old
    · rw [List.mem_singleton.mp last]
      exact new
  · simp only [AllReadable, Parsing.pushQuery, List.forall_mem_append, List.forall_mem_singleton]

/-- A change that leaves the statements alone does not matter. -/
theorem of_querylist {before : Parsing} (reads : Reads ts before r P)
    (queries : before.querylist = s.querylist) : Reads ts s r P := by
  cases r with
  | none => exact reads
  | some after =>
    obtain ⟨formed, readable⟩ := reads
    refine ⟨formed, ?_⟩
    rw [readable]
    simp only [AllReadable, queries]

/-- Statements each of which is safe. -/
theorem parseAll {sub : Parsing → Nat → Nat → Option Parsing} {ranges : List (Nat × Nat)} :
    ∀ {s : Parsing}, AllFormed ts s →
      (∀ range ∈ ranges, ∀ s', AllFormed ts s' → Reads ts s' (sub s' range.1 range.2) True) →
      Reads ts s (Sql.parseAll sub s ranges) True := by
  induction ranges with
  | nil =>
    intro s formed _
    exact Reads.same formed rfl
  | cons range ranges ih =>
    intro s formed each
    rw [parseAll_cons]
    refine (Reads.bind (each range (by simp) s formed) ?_).congr (and_self_iff)
    intro after formed'
    exact ih formed' fun other member => each other (List.mem_cons_of_mem range member)

end Reads

/-- The end of the tokens, or a token that no search and no look-ahead passes. -/
def Ends (ts : List SqlToken) (tend : Nat) : Prop :=
  tend = ts.length ∨ tokenId ts tend = some .cbrace ∨ tokenId ts tend = some .semicolon

theorem Ends.le {tend : Nat} (ends : Ends ts tend) : tend ≤ ts.length := by
  obtain last | brace | semicolon := ends
  · omega
  · exact Nat.le_of_lt (lt_of_tokenId brace)
  · exact Nat.le_of_lt (lt_of_tokenId semicolon)

/-- Before the end of the tokens, the end of a range is a brace or a semicolon. -/
theorem Ends.token {tend : Nat} (ends : Ends ts tend) (more : tend ≠ ts.length) :
    ∃ id, tokenId ts tend = some id ∧ (id = .cbrace ∨ id = .semicolon) := by
  obtain last | brace | semicolon := ends
  · exact absurd last more
  · exact ⟨_, brace, Or.inl rfl⟩
  · exact ⟨_, semicolon, Or.inr rfl⟩

/-- What the parser makes of a statement that ends at such a place. -/
def SubReads (ts : List SqlToken) (tbegin : Nat) (sub : Parsing → Nat → Nat → Option Parsing) :
    Prop :=
  ∀ (s : Parsing) (b e : Nat), tbegin < b → b ≤ e → Ends ts e → AllFormed ts s →
    Reads ts s (sub s b e) (e = ts.length → ¬ Overrun ts b)

section

variable {sub : Parsing → Nat → Nat → Option Parsing} {s : Parsing} {tbegin : Nat}

/-- Statements in braces are safe. -/
theorem reads_handleSubQuery (subReads : SubReads ts tbegin sub) (formed : AllFormed ts s)
    {substart subend : Nat} (lower : tbegin ≤ substart) (inside : subend ≤ ts.length) :
    Reads ts s (handleSubQuery ts sub s substart subend) True := by
  rw [handleSubQuery_eq s inside]
  apply Reads.parseAll formed
  intro range member s' formed'
  have braces := inBraces_of_subSelects member
  have before := braces.lower
  have apart := braces.order
  have upper := braces.upper
  refine (subReads s' range.1 range.2 (by omega) (by omega) (Or.inr (Or.inl braces.closed))
    formed').congr ?_
  simp only [iff_true]
  intro last
  omega

/-- The header of a statement can be skipped. -/
theorem skipSomeHeaderTokens_spec (tokId : SqlTokenId) (count : Nat) :
    ∀ start, start + count ≤ ts.length →
      ∃ h, skipSomeHeaderTokens ts tokId count start = some h ∧ start ≤ h ∧ h ≤ start + count := by
  induction count with
  | zero =>
    intro start _
    exact ⟨start, rfl, Nat.le_refl _, by omega⟩
  | succ count ih =>
    intro start inside
    obtain ⟨t, _, id⟩ := @tokenId_lt ts start (by omega)
    simp only [skipSomeHeaderTokens, id, Option.bind_eq_bind, Option.bind_some]
    split
    · obtain ⟨h, found, lower, upper⟩ := ih (start + 1) (by omega)
      exact ⟨h, found, by omega, by omega⟩
    · exact ⟨start, rfl, Nat.le_refl _, by omega⟩

theorem skipExternTokensInHeader_spec {start stop : Nat} (order : start ≤ stop)
    (inside : stop ≤ ts.length) :
    ∃ h, skipExternTokensInHeader ts start stop = some h ∧ start ≤ h ∧ h ≤ stop := by
  obtain ⟨c, comments, lower, upper⟩ :=
    @skipSomeHeaderTokens_spec ts .comment (stop - start) start (by omega)
  obtain ⟨h, explains, lower', upper'⟩ :=
    @skipSomeHeaderTokens_spec ts .sqlExplain (stop - c) c (by omega)
  refine ⟨h, ?_, by omega, by omega⟩
  simp only [skipExternTokensInHeader, comments, Option.bind_eq_bind, Option.bind_some, explains]

/-- Where a single kind of token is found. -/
theorem tokenId_of_firstOf {tokId : SqlTokenId} {start stop i : Nat}
    (found : firstOf ts [tokId] start stop = some i) : tokenId ts i = some tokId := by
  obtain ⟨_, _, _, id, member, there⟩ := firstOf_spec found
  rw [there, List.mem_singleton.mp member]

end

end OneProxy.Sql
