import OneProxy.Sql.Windows

/-! Which table a DDL or utility statement reports. -/

namespace OneProxy.Sql

open Parsing

/-! ## Statements -/

/-- The kinds of statements that are applied to one table. -/
inductive Utility
  | createTable (ifNotExists : Bool)
  | alterTable
  | dropTable (ifExists : Bool)
  | truncate (table : Bool)
  | desc
  | describe
  | showColumns
  | vacuum

namespace Utility

/-- The tokens in front of the table. -/
def keywords : Utility → List SqlTokenId
  | createTable ifNotExists =>
    [.sqlCreate, .sqlTable] ++ if ifNotExists then [.sqlIf, .sqlNot, .sqlExists] else []
  | alterTable => [.sqlAlter, .sqlTable]
  | dropTable ifExists => [.sqlDrop, .sqlTable] ++ if ifExists then [.sqlIf, .sqlExists] else []
  | truncate table => .sqlTruncate :: if table then [.sqlTable] else []
  | desc => [.sqlDesc]
  | describe => [.sqlDescribe]
  | showColumns => [.sqlShow, .sqlColumns, .sqlFrom]
  | vacuum => [.sqlVacuum]

/-- The kinds whose copy of the search for a dot works. -/
def dotted : Utility → Bool
  | truncate table => table
  | desc | describe | showColumns => true
  | createTable _ | alterTable | dropTable _ | vacuum => false

end Utility

/-- A statement that is applied to a table, with whatever follows the name. -/
structure UtilityStatement where
  kind : Utility
  keywords : List SqlToken
  keywordIds : keywords.map (·.tokenId) = kind.keywords
  /-- The qualifier, and the dot behind it. -/
  qualifier : Option (SqlToken × SqlToken)
  qualified : ∀ q ∈ qualifier, q.1.tokenId = .literal ∧ q.2.tokenId = .dot
  table : SqlToken
  named : table.tokenId = .literal
  more : List SqlToken
  noDot : more.head?.map (·.tokenId) ≠ some .dot

namespace UtilityStatement

/-- The name of the table, as it is written. -/
def name (u : UtilityStatement) : List SqlToken :=
  (u.qualifier.elim [] fun q => [q.1, q.2]) ++ [u.table]

/-- All tokens. -/
def tokens (u : UtilityStatement) : List SqlToken := u.keywords ++ (u.name ++ u.more)

/-- The token whose text is reported. -/
def reported (u : UtilityStatement) : SqlToken :=
  match u.qualifier with
  | none => u.table
  | some (ns, _) => if u.kind.dotted then u.table else ns

/-- The number of tokens that the table is taken from. -/
def width (u : UtilityStatement) : Nat :=
  if u.kind.dotted ∧ u.qualifier.isSome then 3 else 1

end UtilityStatement

/-! ## One statement, one query -/

variable {ts : List SqlToken} {s : Parsing}

/-- The statements whose table is taken from the range as it is. -/
def oneTableIds : List SqlTokenId :=
  [.sqlCreate, .sqlAlter, .sqlDrop, .sqlDescribe, .sqlDesc, .sqlTruncate, .sqlShow, .sqlVacuum]

/-- A range that ends in anything but a semicolon is not trimmed. -/
theorem trimSemicolons_name {start last : Nat} {t : SqlToken} (there : ts[last]? = some t)
    (named : t.tokenId = .literal) : trimSemicolons ts start (last + 1) = some (last + 1) := by
  have id : tokenId ts last = some .literal := by rw [tokenId, there, Option.map_some, named]
  rw [trimSemicolons, id]
  split
  · rfl
  · rfl

/-- A range that is the name of a table adds that table. -/
theorem parseSimple_name {query : SQLQuery} {start last : Nat} {t : SqlToken}
    {w : List SqlToken} {name aliasName : Bytes} {place : Nat} (there : ts[last]? = some t)
    (named : t.tokenId = .literal) (le : start ≤ last) (win : window ts start (last + 1) = w)
    (simple : simpleTable w = some (name, aliasName, place)) :
    parseSimpleTableNameAndAlias ts s query start (last + 1) =
      some (true, s.addTableInfo name aliasName (start + place) query) := by
  rw [parseSimpleTableNameAndAlias, trimSemicolons_name there named]
  simp only [Option.bind_eq_bind, Option.bind_some]
  rw [if_neg (by omega), ← window, win, simple]

/-- A statement of one query, whose range is the name of a table, reports that table. -/
theorem tables_oneQuery {query : SQLQuery} {id : SqlTokenId} {last : Nat} {t : SqlToken}
    {w : List SqlToken} {name aliasName : Bytes} {place : Nat}
    (parsed : parseSubQuery ts (ts.length + 1) .new 0 ts.length =
      some (Parsing.new.pushQuery query))
    (begins : tokenId ts query.tbegin = some id) (kind : id ∈ oneTableIds)
    (stop : query.fromend = last + 1) (there : ts[last]? = some t) (named : t.tokenId = .literal)
    (le : query.fromstart ≤ last) (win : window ts query.fromstart (last + 1) = w)
    (simple : simpleTable w = some (name, aliasName, place)) :
    tables ts = some [cString name] := by
  have table := @parseSimple_name ts (Parsing.new.pushQuery query) query
    _ _ _ _ _ _ _ there named le
    win simple
  -- The kinds of these statements all read the range in the same way.
  have one : parseQueryTable ts (Parsing.new.pushQuery query) query = some
      ((Parsing.new.pushQuery query).addTableInfo name aliasName (query.fromstart + place)
          query) := by
    simp only [oneTableIds, List.mem_cons, List.not_mem_nil, or_false] at kind
    rw [parseQueryTable, begins, stop]
    rcases kind with rfl | rfl | rfl | rfl | rfl | rfl | rfl | rfl <;> simp [table]
  rw [tables, parse, parsed]
  have queries : (Parsing.new.pushQuery query).querylist = [query] := rfl
  simp only [Option.bind_eq_bind, Option.bind_some, queries, parseQueryTables, one, Option.map_some]
  rfl

/-- A statement without a header is parsed by its first token. -/
theorem parseSubQuery_first {id : SqlTokenId} {fuel : Nat} (begins : tokenId ts 0 = some id)
    (other : id ≠ .comment ∧ id ≠ .sqlExplain) :
    parseSubQuery ts (fuel + 1) s 0 ts.length =
      parseStatement ts (parseSubQuery ts fuel) id s 0 ts.length := by
  have inside := lt_of_tokenId begins
  have skip : ∀ tokId, tokId ≠ id → skipSomeHeaderTokens ts tokId ts.length 0 = some 0 := by
    intro tokId differ
    obtain ⟨n, length⟩ := Nat.exists_eq_succ_of_ne_zero (Nat.ne_of_gt inside)
    rw [length, skipSomeHeaderTokens, begins]
    simp [differ.symm]
  have skipped : skipExternTokensInHeader ts 0 ts.length = some 0 := by
    rw [skipExternTokensInHeader, Nat.sub_zero, skip _ other.1.symm]
    exact skip _ other.2.symm
  rw [parseSubQuery, skipped]
  simp only [Option.bind_eq_bind, Option.bind_some]
  rw [if_neg (Nat.ne_of_lt inside), begins]
  rfl

/-! ## Where the table is found -/

/-- A CREATE, an ALTER or a DROP takes one token for the table. -/
theorem parseCreate_table {id : SqlTokenId} {n : Nat} (begins : tokenId ts 0 = some id)
    (noDot : id ≠ .dot) (table : tokenId ts 1 = some .sqlTable) (order : 2 ≤ n)
    (inside : n < ts.length) (skips : skipIfNotExists ts (ts.length + 1) 2 = some n) :
    parseCreate ts s 0 ts.length = some (s.pushQuery ⟨0, ts.length, n, n + 1, 0, 0⟩) := by
  rw [parseCreate, if_pos (by omega)]
  simp only [Option.bind_eq_bind, Nat.zero_add, table, Option.bind_some, if_true, skips]
  split
  · -- The token that is looked at is the first one of the statement.
    rw [begins]
    simp [noDot]
  · rfl

/-- Where the name of a table ends, if the search for a dot works. -/
theorem dottedEnd_name {fromstart width : Nat} {more : List SqlToken}
    (rest : ts.drop (fromstart + 1) = more) (inside : fromstart < ts.length)
    (noDot : width = 1 → more.head?.map (·.tokenId) ≠ some .dot)
    (dot : width ≠ 1 → width = 3 ∧ 2 ≤ more.length ∧ more.head?.map (·.tokenId) = some .dot) :
    dottedEnd ts fromstart ts.length = some (fromstart + width) := by
  have behind : tokenId ts (fromstart + 1) = more.head?.map (·.tokenId) := by
    rw [tokenId, ← rest, List.head?_drop]
  have length : ts.length = fromstart + 1 + more.length := by
    rw [← rest, List.length_drop]
    omega
  rw [dottedEnd]
  -- With one token no dot follows; with three the second of them is the dot.
  by_cases single : width = 1
  · subst single
    split
    · cases more with
      | nil => exact absurd length (by simp only [List.length_nil]; omega)
      | cons t more =>
        have other : t.tokenId ≠ .dot := by simpa using noDot rfl
        simp [behind, other]
    · rfl
  · obtain ⟨rfl, enough, isDot⟩ := dot single
    rw [if_pos (by omega), behind, isDot]
    rfl

/-- A token that is searched for where it is. -/
theorem findToken_here {tokId : SqlTokenId} {i stop : Nat} (there : tokenId ts i = some tokId)
    (inside : i < stop) : findToken ts i stop tokId = some (true, i) := by
  obtain ⟨n, length⟩ := Nat.exists_eq_succ_of_ne_zero (Nat.sub_ne_zero_of_lt inside)
  rw [findToken, length, findTokenFrom, there]
  simp [inside]

/-- `IF NOT EXISTS` is skipped up to a literal. -/
theorem skipIfNotExists_literal {ids : List SqlTokenId} {fuel i : Nat}
    (skips : ∀ id ∈ ids, id = .sqlIf ∨ id = .sqlNot ∨ id = .sqlExists)
    (there : ∀ j id, ids[j]? = some id → tokenId ts (i + j) = some id)
    (named : tokenId ts (i + ids.length) = some .literal) (enough : ids.length < fuel) :
    skipIfNotExists ts fuel i = some (i + ids.length) := by
  -- The induction is on the keywords that are skipped; each one takes some fuel.
  induction ids generalizing i fuel with
  | nil =>
    obtain ⟨fuel, rfl⟩ : ∃ n, fuel = n + 1 := ⟨fuel - 1, by omega⟩
    rw [skipIfNotExists, show tokenId ts i = some .literal from named]
    rfl
  | cons id ids ih =>
    obtain ⟨fuel, rfl⟩ : ∃ n, fuel = n + 1 := ⟨fuel - 1, by omega⟩
    rw [List.length_cons] at named enough
    have next := @ih fuel (i + 1) (fun other member => skips other (List.mem_cons_of_mem _ member))
      (fun j other found => by
        have here := there (j + 1) other found
        rwa [← Nat.add_assoc, Nat.add_right_comm] at here)
      (by rwa [Nat.add_right_comm, Nat.add_assoc]) (by omega)
    rw [skipIfNotExists, show tokenId ts i = some id from there 0 id rfl]
    simp only [Option.bind_eq_bind, Option.bind_some]
    rw [if_pos (skips id List.mem_cons_self), next, List.length_cons, Nat.add_assoc,
      Nat.add_comm 1]

namespace UtilityStatement

variable (u : UtilityStatement)

theorem length_keywords : u.keywords.length = u.kind.keywords.length := by
  rw [← u.keywordIds, List.length_map]

/-- The ids of the keywords are those of the kind. -/
theorem tokenId_keyword {i : Nat} (inside : i < u.kind.keywords.length) :
    tokenId u.tokens i = u.kind.keywords[i]? := by
  rw [← u.length_keywords] at inside
  rw [tokenId, tokens, List.getElem?_append_left inside, ← u.keywordIds, List.getElem?_map]

/-- The first token of the name is a literal. -/
theorem head_name : ∃ t rest, u.name = t :: rest ∧ t.tokenId = .literal ∧
    tokenId u.tokens u.keywords.length = some .literal := by
  have first : ∃ t rest, u.name = t :: rest ∧ t.tokenId = .literal := by
    rw [name]
    cases there : u.qualifier with
    | none => exact ⟨_, _, rfl, u.named⟩
    | some q => exact ⟨_, _, rfl, (u.qualified q there).1⟩
  obtain ⟨t, rest, same, named⟩ := first
  refine ⟨t, rest, same, named, ?_⟩
  rw [tokenId, tokens, List.getElem?_append_right (Nat.le_refl _), Nat.sub_self, same,
    List.cons_append, List.getElem?_cons_zero, Option.map_some, named]

theorem length_tokens :
    u.tokens.length = u.keywords.length + u.name.length + u.more.length := by
  rw [tokens, List.length_append, List.length_append, Nat.add_assoc]

/-- Where a kind that looks for the dot takes the end of the name. -/
theorem dottedEnd_keywords (dotted : u.kind.dotted = true) :
    dottedEnd u.tokens u.keywords.length u.tokens.length = some (u.keywords.length + u.width) := by
  obtain ⟨t, rest, same, _, _⟩ := u.head_name
  have behind : u.tokens.drop (u.keywords.length + 1) = rest ++ u.more := by
    rw [tokens, ← List.drop_drop, List.drop_left, same]
    rfl
  have positive : u.keywords.length < u.tokens.length := by
    rw [u.length_tokens, same, List.length_cons]
    omega
  -- A name with its qualifier is three tokens wide.
  refine dottedEnd_name behind positive (fun single => ?_) (fun several => ?_)
  · have none_ : u.qualifier = none := by
      cases there : u.qualifier with
      | none => rfl
      | some q => simp [width, dotted, there] at single
    have empty : rest = [] := by
      rw [name, none_] at same
      exact (List.cons.inj same).2.symm
    rw [empty]
    exact u.noDot
  · obtain ⟨q, there⟩ : ∃ q, u.qualifier = some q := by
      cases there : u.qualifier with
      | none => simp [width, there] at several
      | some q => exact ⟨q, rfl⟩
    have parts : rest = [q.2, u.table] := by
      rw [name, there] at same
      exact (List.cons.inj same).2.symm
    refine ⟨by simp [width, dotted, there], ?_, ?_⟩
    · rw [parts, List.length_append]
      simp
    · rw [parts]
      exact congrArg some (u.qualified q there).2

/-- The query of a statement. -/
def query : SQLQuery :=
  ⟨0, u.tokens.length, u.keywords.length, u.keywords.length + u.width, 0, 0⟩

/-- A kind that does not look for the dot, or looks in the wrong place, takes one token. -/
theorem width_plain (plain : u.kind.dotted = false) : u.width = 1 := by
  simp [width, plain]

/-- Every statement comes to one query, on the first token of the name or all of it. -/
theorem parsed_query : parseSubQuery u.tokens (u.tokens.length + 1) .new 0 u.tokens.length =
    some (Parsing.new.pushQuery u.query) := by
  obtain ⟨_, rest, same, _, first⟩ := u.head_name
  have length := u.length_keywords
  have positive : u.keywords.length < u.tokens.length := by
    rw [u.length_tokens, same, List.length_cons]
    omega
  -- The kinds of one shape differ in their keywords only.
  have create : ∀ id ids, u.kind.keywords = id :: .sqlTable :: ids → u.kind.dotted = false →
      id ≠ .dot → (∀ id ∈ ids, id = .sqlIf ∨ id = .sqlNot ∨ id = .sqlExists) →
      parseCreate u.tokens .new 0 u.tokens.length = some (Parsing.new.pushQuery u.query) := by
    intro id ids words plain noDot skips
    rw [words, List.length_cons, List.length_cons] at length
    have skip : skipIfNotExists u.tokens (u.tokens.length + 1) 2 = some (2 + ids.length) := by
      refine skipIfNotExists_literal skips (fun j other found => ?_) ?_ (by omega)
      · have inside := (List.getElem?_eq_some_iff.mp found).1
        rw [u.tokenId_keyword (by rw [words]; simp only [List.length_cons]; omega), words,
          Nat.add_comm 2 j]
        exact found
      · have there : 2 + ids.length = u.keywords.length := by omega
        rw [there]
        exact first
    have begins : tokenId u.tokens 0 = some id := by
      rw [u.tokenId_keyword (by rw [words]; simp), words]
      rfl
    have table : tokenId u.tokens 1 = some .sqlTable := by
      rw [u.tokenId_keyword (by rw [words]; simp), words]
      rfl
    have there : 2 + ids.length = u.keywords.length := by omega
    rw [parseCreate_table begins noDot table (by omega) (by omega) skip, query, u.width_plain plain,
      there]
  have begins : ∀ id ids, u.kind.keywords = id :: ids → tokenId u.tokens 0 = some id := by
    intro id ids words
    rw [u.tokenId_keyword (by rw [words]; simp), words]
    rfl
  -- One keyword, with a name that is one token, or that may have a dot.
  have single : ∀ {id}, u.kind.keywords = [id] → u.kind.dotted = false →
      parseVacuum u.tokens .new 0 u.tokens.length = some (Parsing.new.pushQuery u.query) := by
    intro id words plain
    have one : u.keywords.length = 1 := by rw [length, words]; rfl
    rw [one] at first positive
    rw [parseVacuum, if_pos positive]
    simp only [Nat.zero_add, first, query, one, u.width_plain plain, Option.bind_eq_bind,
      Option.bind_some, if_true]
  have described : ∀ {id}, u.kind.keywords = [id] → u.kind.dotted = true →
      parseDescribe u.tokens .new 0 u.tokens.length = some (Parsing.new.pushQuery u.query) := by
    intro id words dotted
    have one : u.keywords.length = 1 := by rw [length, words]; rfl
    have stop := u.dottedEnd_keywords dotted
    rw [one] at first positive stop
    rw [parseDescribe, if_pos positive]
    simp only [Nat.zero_add, first, query, one, stop, Option.bind_eq_bind,
      Option.bind_some, if_true]
  cases kind : u.kind with
  | createTable ifNotExists =>
    have words : u.kind.keywords = .sqlCreate :: .sqlTable ::
        if ifNotExists then [.sqlIf, .sqlNot, .sqlExists] else [] := by rw [kind]; rfl
    rw [parseSubQuery_first (begins _ _ words) (by decide)]
    refine create _ _ words (by rw [kind]; rfl) (by decide) ?_
    cases ifNotExists <;> simp
  | alterTable =>
    have words : u.kind.keywords = [.sqlAlter, .sqlTable] := by rw [kind]; rfl
    rw [parseSubQuery_first (begins _ _ words) (by decide)]
    exact create _ _ words (by rw [kind]; rfl) (by decide) (by simp)
  | dropTable ifExists =>
    have words : u.kind.keywords = .sqlDrop :: .sqlTable ::
        if ifExists then [.sqlIf, .sqlExists] else [] := by rw [kind]; rfl
    rw [parseSubQuery_first (begins _ _ words) (by decide)]
    refine create _ _ words (by rw [kind]; rfl) (by decide) ?_
    cases ifExists <;> simp
  | truncate table =>
    cases table with
    | true =>
      have words : u.kind.keywords = [.sqlTruncate, .sqlTable] := by rw [kind]; rfl
      have two : u.keywords.length = 2 := by rw [length, words]; rfl
      have dotted := u.dottedEnd_keywords (by rw [kind]; rfl)
      have here : tokenId u.tokens 1 = some .sqlTable := by
        rw [u.tokenId_keyword (by rw [words]; decide), words]
        rfl
      rw [two] at dotted positive
      rw [parseSubQuery_first (begins _ _ words) (by decide), parseStatement, parseTruncate,
        if_pos positive]
      simp only [Nat.zero_add, here, dotted, query, two, Option.bind_eq_bind, Option.bind_some,
        if_true]
    | false =>
      have words : u.kind.keywords = [.sqlTruncate] := by rw [kind]; rfl
      rw [parseSubQuery_first (begins _ _ words) (by decide), parseStatement, parseTruncate]
      have one : u.keywords.length = 1 := by rw [length, words]; rfl
      have plain := single words (by rw [kind]; rfl)
      rw [one] at first
      split
      · simp only [Nat.zero_add, first, Option.bind_eq_bind, Option.bind_some]
        exact plain
      · exact plain
  | desc =>
    have words : u.kind.keywords = [.sqlDesc] := by rw [kind]; rfl
    rw [parseSubQuery_first (begins _ _ words) (by decide)]
    exact described words (by rw [kind]; rfl)
  | describe =>
    have words : u.kind.keywords = [.sqlDescribe] := by rw [kind]; rfl
    rw [parseSubQuery_first (begins _ _ words) (by decide)]
    exact described words (by rw [kind]; rfl)
  | showColumns =>
    have words : u.kind.keywords = [.sqlShow, .sqlColumns, .sqlFrom] := by rw [kind]; rfl
    have three : u.keywords.length = 3 := by rw [length, words]; rfl
    have dotted := u.dottedEnd_keywords (by rw [kind]; rfl)
    rw [three] at dotted positive
    have columns : findToken u.tokens 1 u.tokens.length .sqlColumns = some (true, 1) :=
      findToken_here (by rw [u.tokenId_keyword (by rw [words]; decide), words]; rfl) (by omega)
    have named : findToken u.tokens 2 u.tokens.length .sqlFrom = some (true, 2) :=
      findToken_here (by rw [u.tokenId_keyword (by rw [words]; decide), words]; rfl) (by omega)
    rw [parseSubQuery_first (begins _ _ words) (by decide), parseStatement, parseShow,
      if_pos (by omega), columns]
    simp only [Option.bind_eq_bind, Option.bind_some, named, if_true, dotted, query, three]
  | vacuum =>
    have words : u.kind.keywords = [.sqlVacuum] := by rw [kind]; rfl
    rw [parseSubQuery_first (begins _ _ words) (by decide)]
    exact single words (by rw [kind]; rfl)

/-- The tokens that the table is taken from are the name of the reported one. -/
theorem window_query : ∃ w aliasName place last t, window u.tokens u.keywords.length
    (u.keywords.length + u.width) = w ∧ simpleTable w = some (u.reported.text, aliasName, place) ∧
      u.keywords.length + u.width = last + 1 ∧ u.keywords.length ≤ last ∧
        u.tokens[last]? = some t ∧ t.tokenId = .literal := by
  have behind : u.tokens.drop u.keywords.length = u.name ++ u.more := by
    rw [tokens, List.drop_left]
  have at_ : ∀ i, u.tokens[u.keywords.length + i]? = (u.name ++ u.more)[i]? := by
    intro i
    rw [← behind, List.getElem?_drop]
  rw [window, behind, Nat.add_sub_cancel_left]
  cases there : u.qualifier with
  | none =>
    have name : u.name = [u.table] := by rw [name, there]; rfl
    have width : u.width = 1 := by simp [width, there]
    have reported : u.reported = u.table := by rw [reported, there]
    refine ⟨_, [], 0, u.keywords.length, u.table, rfl, ?_, by rw [width],
      Nat.le_refl _, ?_, u.named⟩
    · rw [name, width, reported]
      simp [simpleTable, u.named]
    · have zero := at_ 0
      rwa [name] at zero
  | some q =>
    obtain ⟨ns, dot⟩ := q
    have literal : ns.tokenId = .literal := (u.qualified _ there).1
    have isDot : dot.tokenId = .dot := (u.qualified _ there).2
    have name : u.name = [ns, dot, u.table] := by rw [name, there]; rfl
    -- A kind that does not look for the dot takes the qualifier for the table.
    cases dotted : u.kind.dotted with
    | true =>
      have width : u.width = 3 := by simp [width, there, dotted]
      have reported : u.reported = u.table := by simp [reported, there, dotted]
      refine ⟨_, [], 2, u.keywords.length + 2, u.table,
        rfl, ?_, by rw [width], by omega, ?_, u.named⟩
      · rw [name, width, reported]
        simp [simpleTable, isDot, literal, u.named]
      · have two := at_ 2
        rwa [name] at two
    | false =>
      have width : u.width = 1 := u.width_plain dotted
      have reported : u.reported = ns := by simp [reported, there, dotted]
      refine ⟨_, [], 0, u.keywords.length, ns, rfl, ?_, by rw [width], Nat.le_refl _, ?_, literal⟩
      · rw [name, width, reported]
        simp [simpleTable, literal]
      · have zero := at_ 0
        rwa [name] at zero

/-- The first token is a keyword. -/
theorem begins_query : ∃ id ∈ oneTableIds, tokenId u.tokens u.query.tbegin = some id := by
  have keyword : ∀ id ids, u.kind.keywords = id :: ids → tokenId u.tokens 0 = some id := by
    intro id ids words
    rw [u.tokenId_keyword (by rw [words]; simp), words]
    rfl
  cases kind : u.kind with
  | createTable _ => exact ⟨.sqlCreate, by decide, keyword _ _ (by rw [kind]; rfl)⟩
  | alterTable => exact ⟨.sqlAlter, by decide, keyword _ _ (by rw [kind]; rfl)⟩
  | dropTable _ => exact ⟨.sqlDrop, by decide, keyword _ _ (by rw [kind]; rfl)⟩
  | truncate _ => exact ⟨.sqlTruncate, by decide, keyword _ _ (by rw [kind]; rfl)⟩
  | desc => exact ⟨.sqlDesc, by decide, keyword _ _ (by rw [kind]; rfl)⟩
  | describe => exact ⟨.sqlDescribe, by decide, keyword _ _ (by rw [kind]; rfl)⟩
  | showColumns => exact ⟨.sqlShow, by decide, keyword _ _ (by rw [kind]; rfl)⟩
  | vacuum => exact ⟨.sqlVacuum, by decide, keyword _ _ (by rw [kind]; rfl)⟩

/-- Every statement reports one table. -/
theorem tables_eq : tables u.tokens = some [cString u.reported.text] := by
  obtain ⟨w, aliasName, place, last, t, win, simple, stop, le, there, named⟩ := u.window_query
  obtain ⟨id, kind, begins⟩ := u.begins_query
  exact tables_oneQuery u.parsed_query begins kind stop there named le (stop ▸ win) simple

end UtilityStatement

/-- `CREATE TABLE ns.t`. -/
def createQualified : UtilityStatement where
  kind := .createTable false
  keywords := [⟨.sqlCreate, []⟩, ⟨.sqlTable, []⟩]
  keywordIds := rfl
  qualifier := some (⟨.literal, [110, 115]⟩, ⟨.dot, [46]⟩)
  qualified := by simp
  table := ⟨.literal, [116]⟩
  named := rfl
  more := []
  noDot := by simp

end OneProxy.Sql
