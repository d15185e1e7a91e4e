import Mathlib.Data.List.DropRight
import OneProxy.Sql.Headers
import OneProxy.Sql.ShiftedTables
import OneProxy.Sql.UtilityStatements

/-! Which headers the classifiers and the reported tables see through. -/

namespace OneProxy.Sql

open Parsing

/-! ## The tables of a body -/

/-- The names of the tables that were found. -/
def names (s : Parsing) : List Bytes := s.tablelist.map (·.table)

/-- Where nothing had been found, the names of the tables are the same. -/
theorem Alike.names {k : Nat} {ts : List SqlToken} {s s' : Parsing} (alike : Alike k ts .new s s') :
    Sql.names s' = Sql.names s := by
  have same := congrArg (List.map Prod.fst) alike.entries
  simpa [Parsing.entries, Sql.names, Function.comp_def, movedEntry, Parsing.new] using same

/-- Where nothing had been found, the statements are the same. -/
theorem Alike.moved {k : Nat} {ts : List SqlToken} {s s' : Parsing} (alike : Alike k ts .new s s') :
    List.Forall₂ (Moved k ts) s.querylist s'.querylist := by
  obtain ⟨found, split, related⟩ := alike.queries
  rwa [split]

/-- The tables of a statement without a header. -/
def bodyTables : List SqlToken → Option (List Bytes)
  | [] => some []
  | t :: rest => do
    let s ← parseStatement (t :: rest) (parseSubQuery (t :: rest) (rest.length + 1))
      t.tokenId .new 0
      (rest.length + 1)
    (parseQueryTables (t :: rest) s.querylist s).map names

variable {w b ts : List SqlToken}

/-- The tables are those of the body, wherever it stands. -/
theorem tables_eq_body (ts : List SqlToken) : tables ts = bodyTables (body ts) := by
  obtain ⟨header, split, areHeader, skipped⟩ := skipExternTokensInHeader_eq ts
  have begins := tokenId_body split
  have lengths := congrArg List.length split
  rw [List.length_append] at lengths
  have whole : tables ts = (parse ts).map names := rfl
  rw [whole, parse, parseSubQuery, skipped]
  simp only [Option.bind_eq_bind, Option.bind_some, header_length_eq_iff split, begins]
  cases there : body ts with
  | nil => rfl
  | cons t rest =>
    rw [there, List.length_cons] at lengths
    rw [there] at split
    simp only [firstId, List.head?_cons, Option.map_some, Option.bind_some, reduceCtorEq, if_false,
      bodyTables, Option.bind_eq_bind]
    by_cases searched : t.tokenId ∈ searchedIds
    · -- A statement does not begin with such a token.
      have nothing : ∀ (tokens : List SqlToken) sub s tbegin tend,
          parseStatement tokens sub t.tokenId s tbegin tend = some s := by
        intro tokens sub s tbegin tend
        simp only [searchedIds, List.mem_cons, List.not_mem_nil, or_false] at searched
        obtain kind | kind | kind | kind := searched <;> rw [kind] <;> rfl
      rw [nothing, nothing]
      rfl
    · have agree := agree_append header (t :: rest)
      rw [← split] at agree
      have leads : Leads ts header.length := by
        intro i within id token found
        by_cases before : i < header.length
        · rw [split, tokenId, List.getElem?_append_left before, List.getElem?_eq_getElem before,
            Option.map_some, Option.some.injEq] at token
          have kind := areHeader _ (List.getElem_mem before)
          rw [token] at kind
          simp only [searchedIds, headerIds, List.mem_cons, List.not_mem_nil,
            or_false] at found kind
          obtain kind | kind | kind := kind <;> simp [kind] at found
        · have last : i = header.length := by omega
          rw [last, begins, there] at token
          have same : t.tokenId = id := Option.some.inj token
          exact searched (same ▸ found)
      have subAlike : SubAlike True header.length (t :: rest) ts .new 0
          (parseSubQuery (t :: rest) (rest.length + 1)) (parseSubQuery ts ts.length) := by
        intro s s' b e later order ends reach alike
        exact alike_parseSubQuery agree _ _ s s' b e order ends reach
          (by simp only [List.length_cons]; omega) (by omega) alike
      have found := alike_parseStatement agree subAlike (Alike.start _ _ _)
        (Nat.zero_lt_succ rest.length) (Or.inl rfl)
        (show tokenId (t :: rest) 0 = some t.tokenId from rfl) (Or.inl leads)
      have place : rest.length + 1 + header.length = ts.length := by omega
      rw [Nat.zero_add, place] at found
      -- The tables come from the same statements.
      have both := found.bind fun s s' _ alike => alike_parseQueryTables agree
        alike.moved s s' alike
      have same := (both.map fun s s' alike => alike.names).eq_map
      rw [Option.map_id'] at same
      simpa only [Option.map_bind, Function.comp_def] using same

/-! ## Statements of which nothing is reported -/

/-- The tables that a range of tokens gives. -/
def tablesIn (b : List SqlToken) (start stop : Nat) : Option (List Bytes) := do
  let stop ← trimSemicolons b start stop
  if stop ≤ start then some []
  else some ((simpleTable ((b.drop start).take (stop - start))).toList.map fun r => cString r.1)

/-- The tables of a statement whose table is taken from the range as it is. -/
theorem names_oneQuery {query : SQLQuery} {id : SqlTokenId}
    (begins : tokenId b query.tbegin = some id)
    (kind : id ∈ oneTableIds) :
    (parseQueryTables b [query] (Parsing.new.pushQuery query)).map names =
      tablesIn b query.fromstart query.fromend := by
  -- The kinds of these statements all read the range in the same way.
  have one : parseQueryTable b (Parsing.new.pushQuery query) query =
      (parseSimpleTableNameAndAlias b (Parsing.new.pushQuery query) query query.fromstart
        query.fromend).map (·.2) := by
    simp only [oneTableIds, List.mem_cons, List.not_mem_nil, or_false] at kind
    rw [parseQueryTable, begins]
    rcases kind with rfl | rfl | rfl | rfl | rfl | rfl | rfl | rfl <;>
      cases parseSimpleTableNameAndAlias b (Parsing.new.pushQuery query) query query.fromstart
        query.fromend <;> rfl
  simp only [parseQueryTables, one, parseSimpleTableNameAndAlias, tablesIn, Option.bind_eq_bind]
  cases trimSemicolons b query.fromstart query.fromend with
  | none => rfl
  | some stop =>
    simp only [Option.bind_some]
    split
    · rfl
    · cases simpleTable ((b.drop query.fromstart).take (stop - query.fromstart)) <;> rfl

/-- Whether a table is taken from tokens, or one of them is looked for that is not there. -/
def TakesTable (name : List SqlToken) : Prop :=
  ∀ id ∈ firstId name, id = .literal ∧
    (firstId name.tail = some .dot → ∀ id ∈ firstId name.tail.tail, id = .literal)

/-- A table with or without a dot is reported exactly if it is one. -/
theorem tablesIn_dotted {start fromend : Nat} {name : List SqlToken} (behind : b.drop start = name)
    (inside : start ≤ b.length) (ended : dottedEnd b start b.length = some fromend) :
    tablesIn b start fromend = some [] ↔ ¬ TakesTable name := by
  have length : b.length = start + name.length := by
    rw [← behind, List.length_drop]
    omega
  have at_ : ∀ i, tokenId b (start + i) = name[i]?.map (·.tokenId) := by
    intro i
    rw [tokenId, ← behind, List.getElem?_drop]
  have here := at_ 0
  rw [Nat.add_zero] at here
  -- One token: it is trimmed if it is a semicolon, and reported if it is a name.
  have single : ∀ t rest, name = t :: rest → (t.tokenId = .literal ↔ TakesTable name) →
      (tablesIn b start (start + 1) = some [] ↔ ¬ TakesTable name) := by
    intro t rest same iff_
    rw [same, List.getElem?_cons_zero, Option.map_some] at here
    rw [← iff_, tablesIn, trimSemicolons, if_pos (Nat.lt_succ_self start), here]
    simp only [Option.bind_eq_bind, Option.bind_some]
    by_cases semicolon : t.tokenId = .semicolon
    · have trimmed : trimSemicolons b start start = some start := by
        cases start with
        | zero => rfl
        | succ n => rw [trimSemicolons, if_neg (Nat.lt_irrefl _)]
      simp [semicolon, trimmed]
    · simp only [if_neg semicolon, Option.bind_some, behind, same, Nat.add_sub_cancel_left,
        List.take_succ_cons, List.take_zero, simpleTable]
      rw [if_neg (by omega)]
      by_cases literal : t.tokenId = .literal <;> simp [literal]
  rw [dottedEnd] at ended
  split at ended
  · next more =>
    obtain ⟨t0, t1, t2, rest, same⟩ : ∃ t0 t1 t2 rest, name = t0 :: t1 :: t2 :: rest := by
      rcases name with _ | ⟨t0, _ | ⟨t1, _ | ⟨t2, rest⟩⟩⟩
      · simp only [List.length_nil] at length
        omega
      · simp only [List.length_cons, List.length_nil] at length
        omega
      · simp only [List.length_cons, List.length_nil] at length
        omega
      · exact ⟨t0, t1, t2, rest, rfl⟩
    have next := at_ 1
    have last := at_ 2
    rw [same] at next last
    simp only [List.getElem?_cons_succ, List.getElem?_cons_zero, Option.map_some] at next last
    rw [next] at ended
    simp only [Option.bind_eq_bind, Option.bind_some, Option.some.injEq] at ended
    subst ended
    by_cases dot : t1.tokenId = .dot
    · rw [if_pos dot, tablesIn, trimSemicolons, if_pos (by omega), last]
      simp only [Option.bind_eq_bind, Option.bind_some]
      by_cases semicolon : t2.tokenId = .semicolon
      · -- Without its last token there is no table.
        have trimmed : trimSemicolons b start (start + 2) = some (start + 2) := by
          rw [trimSemicolons, if_pos (by omega), next]
          simp [dot]
        rw [if_pos semicolon, trimmed]
        simp [behind, same, simpleTable, TakesTable, firstId, dot, semicolon]
      · have count : start + 2 + 1 - start = 3 := by omega
        rw [if_neg semicolon]
        simp only [Option.bind_some, behind, same, count, List.take_succ_cons, List.take_zero,
          simpleTable]
        rw [if_neg (by omega)]
        by_cases first : t0.tokenId = .literal <;> by_cases second : t2.tokenId = .literal <;>
          simp [TakesTable, firstId, dot, first, second]
    · rw [if_neg dot]
      refine single t0 _ same ?_
      simp [TakesTable, same, firstId, dot]
  · next few =>
    rw [Option.some.injEq] at ended
    subst ended
    obtain same | ⟨t0, same⟩ | ⟨t0, t1, same⟩ :
        name = [] ∨ (∃ t0, name = [t0]) ∨ ∃ t0 t1, name = [t0, t1] := by
      rcases name with _ | ⟨t0, _ | ⟨t1, _ | ⟨t2, rest⟩⟩⟩
      · exact Or.inl rfl
      · exact Or.inr (Or.inl ⟨t0, rfl⟩)
      · exact Or.inr (Or.inr ⟨t0, t1, rfl⟩)
      · simp only [List.length_cons] at length
        omega
    · rw [same, List.getElem?_nil, Option.map_none] at here
      simp [tablesIn, trimSemicolons, here, TakesTable, same, firstId]
    · exact single t0 _ same (by simp [TakesTable, same, firstId])
    · exact single t0 _ same (by simp [TakesTable, same, firstId])

/-- The first tokens that the classifiers take notice of, whatever follows. -/
def noticedIds : List SqlTokenId :=
  [.sqlSelect, .sqlInsert, .sqlReplace, .sqlUpdate, .sqlDelete, .sqlCommit,
    .sqlRollback, .sqlCreate,
    .sqlAlter, .sqlDrop, .sqlTruncate, .sqlDescribe, .sqlDesc, .sqlBegin]

/-- What a SHOW takes its table from: what follows COLUMNS, or the FROM behind it. -/
def shown (rest : List SqlToken) : Option (List SqlToken) :=
  (firstIn [.sqlColumns] rest).map fun columns =>
    let behind := rest.drop (columns + 1)
    (firstIn [.sqlFrom] behind).elim behind fun from' => behind.drop (from' + 1)

/--
A body of which neither a type nor a table is reported, nor the beginning of a transaction by BEGIN.
-/
def Unnoticed : List SqlToken → Prop
  | [] => True
  | t :: rest =>
    t.tokenId ∉ noticedIds ∧ (t.tokenId = .sqlVacuum → firstId rest ≠ some .literal) ∧
      (t.tokenId = .sqlShow → 2 ≤ rest.length → ∀ name ∈ shown rest, ¬ TakesTable name)

/-- A statement of any other kind is not looked at. -/
theorem parseStatement_other {id : SqlTokenId} {sub : Parsing → Nat → Nat → Option Parsing}
    {s : Parsing} {tbegin tend : Nat} (unnoticed : id ∉ noticedIds)
    (other : id ≠ .sqlVacuum ∧ id ≠ .sqlShow) : parseStatement ts sub id s tbegin tend =
      some s := by
  unfold parseStatement
  split
  any_goals first | rfl | exact absurd rfl other.1 | exact absurd rfl other.2
  all_goals simp [noticedIds] at unnoticed

/-- A VACUUM reports the name that follows it. -/
theorem bodyTables_vacuum {t : SqlToken} {rest : List SqlToken} (vacuum : t.tokenId = .sqlVacuum) :
    bodyTables (t :: rest) = some [] ↔ firstId rest ≠ some .literal := by
  simp only [bodyTables, vacuum, parseStatement, parseVacuum, Option.bind_eq_bind, Nat.zero_add]
  cases rest with
  | nil => simp [parseQueryTables, Parsing.new, names, firstId]
  -- The statement takes the one token that follows, if that is a name.
  | cons t1 rest =>
    have next : tokenId (t :: t1 :: rest) 1 = some t1.tokenId := rfl
    rw [if_pos (by simp), next]
    simp only [Option.bind_some]
    by_cases literal : t1.tokenId = .literal
    · rw [if_pos literal]
      have begins : tokenId (t :: t1 :: rest) 0 = some .sqlVacuum := congrArg some vacuum
      have table := @names_oneQuery (t :: t1 :: rest) ⟨0, (t1 :: rest).length + 1, 1, 2, 0, 0⟩ _
        begins (by decide)
      simp only [Option.bind_some]
      rw [show (Parsing.new.pushQuery ⟨0, (t1 :: rest).length + 1, 1, 2, 0, 0⟩).querylist =
        [⟨0, (t1 :: rest).length + 1, 1, 2, 0, 0⟩] from rfl, table]
      simp [tablesIn, trimSemicolons, next, literal, simpleTable, firstId]
    · simp [parseQueryTables, Parsing.new, names, firstId, literal]

/-- A SHOW reports the table that it takes, if it takes one. -/
theorem bodyTables_show {t : SqlToken} {rest : List SqlToken} (show_ : t.tokenId = .sqlShow) :
    bodyTables (t :: rest) = some [] ↔
      (2 ≤ rest.length → ∀ name ∈ shown rest, ¬ TakesTable name) := by
  let b := t :: rest
  have begins : tokenId b 0 = some .sqlShow := congrArg some show_
  have length : b.length = rest.length + 1 := rfl
  simp only [bodyTables, show_, parseStatement, parseShow, Option.bind_eq_bind, Nat.zero_add]
  by_cases long : 2 ≤ rest.length
  swap
  · rw [if_neg (by omega)]
    simp [parseQueryTables, Parsing.new, names, long]
  have columns := @findToken_drop b .sqlColumns (by decide) 1 (by omega)
  rw [if_pos (by omega), show findToken (t :: rest) 1 (rest.length + 1) .sqlColumns =
    _ from columns]
  simp only [Option.bind_some, long, true_implies, shown]
  have behind : b.drop 1 = rest := rfl
  rw [behind]
  cases found : firstIn [.sqlColumns] rest with
  | none => simp [parseQueryTables, Parsing.new, names]
  | some c =>
    have before := firstIn_lt found
    have named := @findToken_drop b .sqlFrom (by decide) (1 + c + 1) (by omega)
    have after : b.drop (1 + c + 1) = rest.drop (c + 1) := by
      rw [Nat.add_assoc, ← List.drop_drop, behind]
    rw [after] at named
    simp only [Option.elim_some, if_true, Option.map_some, Option.mem_some_iff, forall_eq']
    rw [show findToken (t :: rest) (1 + c + 1) (rest.length + 1) .sqlFrom = _ from named]
    -- The table begins behind the FROM, if there is one.
    have table : ∀ fromstart, fromstart ≤ b.length →
        ((((dottedEnd b fromstart b.length).bind fun fromend =>
            some (Parsing.new.pushQuery ⟨0, b.length, fromstart, fromend, 0, 0⟩)).bind fun s =>
          (parseQueryTables b s.querylist s).map names) = some [] ↔
            ¬ TakesTable (b.drop fromstart)) := by
      intro fromstart inside
      obtain ⟨fromend, ended, _⟩ := @dottedEnd_spec b fromstart _ (Nat.le_refl b.length)
      rw [← tablesIn_dotted rfl inside ended, ended]
      exact iff_of_eq (congrArg (· = some []) (@names_oneQuery b
        ⟨0, b.length, fromstart, fromend, 0, 0⟩ _ begins (by decide)))
    cases searched : firstIn [.sqlFrom] (rest.drop (c + 1)) with
    | none =>
      rw [Option.elim_none, ← after]
      exact table (1 + c + 1) (by omega)
    | some f =>
      have within := firstIn_lt searched
      rw [List.length_drop] at within
      have place : 1 + c + 1 + f + 1 = (1 + c + 1) + (f + 1) := by omega
      simp only [Option.elim_some, ← after, List.drop_drop, ← place]
      exact table (1 + c + 1 + f + 1) (by omega)

/-- An unnoticed body is one that begins with none of the noticed tokens and reports no table. -/
theorem unnoticed_iff (b : List SqlToken) :
    Unnoticed b ↔ (∀ id ∈ firstId b, id ∉ noticedIds) ∧ bodyTables b = some [] := by
  cases b with
  | nil => simp [Unnoticed, firstId, bodyTables]
  | cons t rest =>
    have first : (∀ id ∈ firstId (t :: rest), id ∉ noticedIds) ↔ t.tokenId ∉ noticedIds := by
      simp [firstId]
    rw [first, Unnoticed]
    refine and_congr_right fun unnoticed => ?_
    by_cases vacuum : t.tokenId = .sqlVacuum
    · rw [bodyTables_vacuum vacuum]
      simp [vacuum]
    · by_cases show_ : t.tokenId = .sqlShow
      · rw [bodyTables_show show_]
        simp [show_]
      · rw [bodyTables]
        simp [parseStatement_other unnoticed ⟨vacuum, show_⟩, vacuum, show_, parseQueryTables,
          Parsing.new, names]

/-! ## Headers in front of a statement -/

/-- Tokens that are skipped in front of a statement: comments, and then EXPLAINs. -/
def Skipped (w s : List SqlToken) : Prop :=
  ∃ comments explains, w = comments ++ explains ∧ (∀ t ∈ comments, t.tokenId = .comment) ∧
    (∀ t ∈ explains, t.tokenId = .sqlExplain) ∧ (explains ≠ [] → firstId s ≠ some .comment)

variable {s : List SqlToken}

/-- What is skipped leaves the body of the statement. -/
theorem body_skipped (skipped : Skipped w s) : body (w ++ s) = body s := by
  obtain ⟨comments, explains, rfl, areComments, areExplains, plain⟩ := skipped
  have dropped : dropComments (comments ++ (explains ++ s)) = dropComments (explains ++ s) :=
    List.dropWhile_append_of_pos (by simpa using areComments)
  rw [List.append_assoc, body, dropped]
  cases explains with
  | nil => rfl
  | cons e explains =>
    have isExplain := areExplains e (by simp)
    have same : dropComments s = s := by
      cases s with
      | nil => rfl
      | cons t rest =>
        refine dropComments_other fun comment => plain (by simp) ?_
        rw [← comment]
        rfl
    rw [List.cons_append, dropComments_other (by simp [isExplain]), ← List.cons_append,
      List.dropWhile_append_of_pos (by simpa using areExplains), body, same]

/-- A START that opens a transaction behind a header stands where the body begins. -/
theorem dropComments_opens (header : ∀ t ∈ w, t.tokenId ∈ headerIds)
    (opens : OpensByStart (w ++ s)) :
    dropComments (w ++ s) = body s := by
  -- The induction is on the header; none of its tokens is a START.
  induction w with
  | nil =>
    rw [List.nil_append] at opens ⊢
    have start := opens.1
    rw [body]
    cases there : dropComments s with
    | nil => rfl
    | cons t rest =>
      rw [there] at start
      have kind : t.tokenId = .sqlStart := Option.some.inj start
      rw [List.dropWhile_cons_of_neg (by simp [kind])]
  | cons t w ih =>
    rw [List.cons_append] at opens ⊢
    by_cases comment : t.tokenId = .comment
    · rw [OpensByStart, dropComments_comment comment] at opens
      rw [dropComments_comment comment]
      exact ih (fun other member => header other (List.mem_cons_of_mem t member)) opens
    · have start := opens.1
      rw [dropComments_other comment] at start
      have kind : t.tokenId = .sqlStart := Option.some.inj start
      exact absurd (header t (by simp)) (by rw [kind]; decide)

/-- A comment of either kind goes first. -/
def Commented (ts : List SqlToken) : Prop :=
  firstId ts = some .comment ∨ firstId ts = some .commentMysql

/-- Behind an EXPLAIN, anything but EXPLAINs is left in front of the statement. -/
theorem dropWhile_explain (header : ∀ t ∈ w, t.tokenId ∈ headerIds) :
    ((∀ t ∈ w, t.tokenId = .sqlExplain) ∧ firstId s ≠ some .comment) ∨
      ∃ left : List SqlToken, (∀ t ∈ left, t.tokenId ∈ headerIds) ∧
        (w ++ s).dropWhile (·.tokenId = .sqlExplain) = left ++ s ∧ Commented (left ++ s) := by
  -- The induction is on the header; the first token of it that is no EXPLAIN is a comment.
  induction w with
  | nil =>
    by_cases comment : firstId s = some .comment
    · refine Or.inr ⟨[], by simp, ?_, Or.inl comment⟩
      cases s with
      | nil => rfl
      | cons t rest =>
        have kind : t.tokenId = .comment := Option.some.inj comment
        exact List.dropWhile_cons_of_neg (by simp [kind])
    · exact Or.inl ⟨by simp, comment⟩
  | cons t w ih =>
    have rest := fun other member => header other (List.mem_cons_of_mem t member)
    by_cases explain : t.tokenId = .sqlExplain
    · have step : (t :: w ++ s).dropWhile (·.tokenId = .sqlExplain) =
          (w ++ s).dropWhile (·.tokenId = .sqlExplain) :=
        List.dropWhile_cons_of_pos (by simpa using explain)
      rw [step]
      obtain ⟨areExplains, plain⟩ | found := ih rest
      · exact Or.inl ⟨List.forall_mem_cons.mpr ⟨explain, areExplains⟩, plain⟩
      · exact Or.inr found
    · refine Or.inr ⟨t :: w, header, List.dropWhile_cons_of_neg (by simpa using explain), ?_⟩
      have kind := header t (by simp)
      simp only [headerIds, List.mem_cons, List.not_mem_nil, or_false, explain] at kind
      simpa [Commented, firstId] using kind

/-- What is not skipped leaves a comment in front of the statement. -/
theorem skipped_or (header : ∀ t ∈ w, t.tokenId ∈ headerIds) : Skipped w s ∨
    ∃ left : List SqlToken, (∀ t ∈ left, t.tokenId ∈ headerIds) ∧ body (w ++ s) = left ++ s ∧
      Commented (left ++ s) := by
  induction w with
  | nil => exact Or.inl ⟨[], [], rfl, by simp, by simp, by simp⟩
  | cons t w ih =>
    have rest := fun other member => header other (List.mem_cons_of_mem t member)
    by_cases comment : t.tokenId = .comment
    · rw [List.cons_append, body, dropComments_comment comment, ← body]
      obtain ⟨comments, explains, rfl, areComments, areExplains, plain⟩ | found := ih rest
      · exact Or.inl ⟨t :: comments, explains, rfl, List.forall_mem_cons.mpr ⟨comment, areComments⟩,
          areExplains, plain⟩
      · exact Or.inr found
    · rw [List.cons_append, body, dropComments_other comment, ← List.cons_append]
      obtain ⟨areExplains, plain⟩ | found := @dropWhile_explain (t :: w) s header
      · exact Or.inl ⟨[], t :: w, rfl, by simp, areExplains, fun _ => plain⟩
      · exact Or.inr found

/-- The classifiers and the tables are the same with tokens in front of a statement as without. -/
structure Transparent (w s : List SqlToken) : Prop where
  type : queryType (w ++ s) = queryType s
  ddl : isDDLQuery (w ++ s) = isDDLQuery s
  startTrans : isStartTrans (w ++ s) = isStartTrans s
  tables : tables (w ++ s) = tables s

/-- A body that begins with a comment is not noticed, and opens a transaction only by START. -/
theorem Commented.unnoticed (commented : Commented b) :
    Unnoticed b ∧ (OpensTrans b ↔ OpensByStart b) := by
  cases b with
  | nil => simp [Commented, firstId] at commented
  | cons t rest =>
    obtain kind | kind := commented
    · have id : t.tokenId = .comment := Option.some.inj kind
      exact ⟨⟨by simp [id, noticedIds], by simp [id], by simp [id]⟩, by simp [OpensTrans, kind]⟩
    · have id : t.tokenId = .commentMysql := Option.some.inj kind
      exact ⟨⟨by simp [id, noticedIds], by simp [id], by simp [id]⟩, by simp [OpensTrans, kind]⟩

/-- What is unnoticed has no type and is no DDL statement. -/
theorem kind_unnoticed (unnoticed : ∀ id ∈ firstId b, id ∉ noticedIds) :
    (firstId b).elim .unknown QueryType.ofId = .unknown ∧
      (firstId b).elim false (decide <| · ∈ ddlIds) = false := by
  cases there : firstId b with
  | none => exact ⟨rfl, rfl⟩
  | some id =>
    have other := unnoticed id there
    simp only [noticedIds, List.mem_cons, List.not_mem_nil, or_false, not_or] at other
    simp only [Option.elim_some]
    constructor
    · unfold QueryType.ofId
      split <;> simp_all
    · simp [ddlIds, other]

/--
What has no type, is no DDL statement and does not begin with a BEGIN begins with no noticed token.
-/
theorem unnoticed_kind (type : (firstId b).elim .unknown QueryType.ofId = .unknown)
    (ddl : (firstId b).elim false (decide <| · ∈ ddlIds) = false)
    (notBegin : firstId b ≠ some .sqlBegin) :
    ∀ id ∈ firstId b, id ∉ noticedIds := by
  intro id there noticed
  rw [Option.mem_def] at there
  rw [there] at type ddl notBegin
  simp only [noticedIds, List.mem_cons, List.not_mem_nil, or_false] at noticed
  rcases noticed with
    rfl | rfl | rfl | rfl | rfl | rfl | rfl | rfl | rfl | rfl | rfl | rfl | rfl | rfl <;>
    simp_all [QueryType.ofId, ddlIds]

/-- The beginning of a transaction is not affected by comments in front of it. -/
theorem opensByStart_dropComments {b' : List SqlToken} (same : dropComments b' = b) :
    OpensByStart b' ↔ OpensByStart b := by
  have again : dropComments b = dropComments b' := by
    rw [← same]
    exact List.dropWhile_idempotent _ b'
  rw [OpensByStart, OpensByStart, again]

/-- What depends on the body alone is not affected by tokens that are skipped. -/
theorem transparent_of_skipped (skipped : Skipped w s) : Transparent w s := by
  have same := body_skipped skipped
  refine ⟨?_, ?_, ?_, ?_⟩
  · rw [queryType_eq, queryType_eq, same]
  · rw [isDDLQuery_eq, isDDLQuery_eq, same]
  · rw [isStartTrans_eq, isStartTrans_eq, same]
  · rw [tables_eq_body, tables_eq_body, same]

/--
Comments and EXPLAINs in front of a statement are seen through exactly if they are skipped, or there
is nothing to be seen of the statement.

A transaction is also seen behind comments that are not skipped, if they are plain ones.
-/
theorem transparent_iff (header : ∀ t ∈ w, t.tokenId ∈ headerIds) :
    Transparent w s ↔ Skipped w s ∨
      Unnoticed (body s) ∧ (OpensByStart (body s) → dropComments (body (w ++ s)) = body s) := by
  obtain skipped | ⟨left, leftHeader, rest, commented⟩ := @skipped_or w s header
  · exact iff_of_true (transparent_of_skipped skipped) (Or.inl skipped)
  · rw [← rest] at commented
    obtain ⟨unnoticed, opens⟩ := commented.unnoticed
    rw [unnoticed_iff] at unnoticed
    obtain ⟨noType, noDdl⟩ := kind_unnoticed unnoticed.1
    have behind : OpensByStart (body (w ++ s)) → dropComments (body (w ++ s)) = body s := by
      intro start
      rw [rest] at start ⊢
      exact dropComments_opens leftHeader start
    constructor
    · intro transparent
      have type := transparent.type
      have ddl := transparent.ddl
      have startTrans := transparent.startTrans
      have tables := transparent.tables
      rw [queryType_eq, queryType_eq, noType, Option.some.injEq] at type
      rw [isDDLQuery_eq, isDDLQuery_eq, noDdl, Option.some.injEq] at ddl
      rw [isStartTrans_eq, isStartTrans_eq, Option.some.injEq, decide_eq_decide,
        opens] at startTrans
      rw [tables_eq_body, tables_eq_body, unnoticed.2] at tables
      -- A BEGIN would have been seen as the beginning of a transaction.
      have notBegin : firstId (body s) ≠ some .sqlBegin := by
        intro begins
        have start := startTrans.mpr (Or.inl begins)
        have first := start.1
        rw [behind start, begins] at first
        cases first
      refine Or.inr ⟨(unnoticed_iff _).mpr ⟨unnoticed_kind type.symm ddl.symm notBegin,
        tables.symm⟩, ?_⟩
      exact fun start => behind (startTrans.mpr (Or.inr start))
    · intro seen
      obtain skipped | ⟨unnoticed', start'⟩ := seen
      · exact transparent_of_skipped skipped
      · rw [unnoticed_iff] at unnoticed'
        obtain ⟨noType', noDdl'⟩ := kind_unnoticed unnoticed'.1
        refine ⟨?_, ?_, ?_, ?_⟩
        · rw [queryType_eq, queryType_eq, noType, noType']
        · rw [isDDLQuery_eq, isDDLQuery_eq, noDdl, noDdl']
        · rw [isStartTrans_eq, isStartTrans_eq, Option.some.injEq, decide_eq_decide, opens]
          constructor
          · intro start
            exact Or.inr ((opensByStart_dropComments (behind start)).mp start)
          · intro start
            obtain begins | start := start
            · exact absurd (by decide) (unnoticed'.1 _ begins)
            · exact (opensByStart_dropComments (start' start)).mpr start
        · rw [tables_eq_body, tables_eq_body, unnoticed.2, unnoticed'.2]

/-- `select a from t`. -/
def selectA : List SqlToken :=
  [⟨.sqlSelect, [115, 101, 108, 101, 99, 116]⟩, ⟨.literal, [97]⟩, ⟨.sqlFrom, [102, 114, 111, 109]⟩,
    ⟨.literal, [116]⟩]

/-- A comment is skipped. -/
theorem transparent_comment : Transparent [⟨.comment, [32, 99, 32]⟩] selectA := by
  refine (transparent_iff (by decide)).mpr
    (Or.inl ⟨[⟨.comment, [32, 99, 32]⟩], [], rfl, ?_, ?_, ?_⟩)
  · simp
  · simp
  · simp

/-- A comment behind EXPLAIN hides the statement, as does one for MySQL. -/
theorem explainComment_hides :
    ¬ Transparent [⟨.sqlExplain, [101, 120, 112, 108, 97, 105, 110]⟩,
      ⟨.comment, [32, 99, 32]⟩] selectA ∧
      ¬ Transparent [⟨.commentMysql, [32, 99, 32]⟩] selectA :=
  ⟨fun seen => absurd seen.tables (by decide), fun seen => absurd seen.tables (by decide)⟩

end OneProxy.Sql
