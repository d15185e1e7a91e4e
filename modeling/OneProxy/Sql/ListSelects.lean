import OneProxy.Sql.FoundQueries
import OneProxy.Sql.TableLists
import OneProxy.Sql.Tokenizer

/-! SELECTs from a list of tables, and when exactly these tables are reported. -/

namespace OneProxy.Sql

open TopLevel

variable {ts : List SqlToken}

/-! ## Tables of other SELECTs -/

/-- The tables of a statement are named in its FROM. -/
theorem queryEntries_within {query : SQLQuery} {es : List (Bytes × Nat)}
    (found : queryEntries ts query = some es) :
    ∀ e ∈ es, query.fromstart ≤ e.2 ∧ e.2 < query.fromend := by
  obtain ⟨s, done, rfl⟩ := Option.map_eq_some_iff.mp found
  obtain ⟨id, _, done⟩ := Option.bind_eq_some_iff.mp done
  have within : AddedWithin query.fromstart query.fromend .new s := by
    dsimp only at done
    split at done
    · obtain ⟨r, tables, done⟩ := Option.bind_eq_some_iff.mp done
      obtain rfl := Option.some.inj done
      exact added_parseFirstTable tables
    iterate 12
      · obtain ⟨r, table, done⟩ := Option.bind_eq_some_iff.mp done
        obtain rfl := Option.some.inj done
        exact added_parseSimple table
    · obtain rfl := Option.some.inj done
      exact .refl _ _ _
  obtain ⟨added, same, all⟩ := within
  intro e member
  rw [same] at member
  exact all e member

/-- So are those of several statements. -/
theorem entriesOf_within {queries : List SQLQuery} {es : List (Bytes × Nat)}
    (found : entriesOf ts queries = some es) :
    ∀ e ∈ es, ∃ query ∈ queries, query.fromstart ≤ e.2 ∧ e.2 < query.fromend := by
  induction queries generalizing es with
  | nil =>
    obtain rfl := Option.some.inj found
    exact fun e member => absurd member List.not_mem_nil
  | cons query queries ih =>
    obtain ⟨first, own, found⟩ := Option.bind_eq_some_iff.mp found
    obtain ⟨rest, others, found⟩ := Option.bind_eq_some_iff.mp found
    obtain rfl := Option.some.inj found
    intro e member
    rcases List.mem_append.mp member with here | later
    · exact ⟨query, List.mem_cons_self, queryEntries_within own e here⟩
    · obtain ⟨other, there, bounds⟩ := ih others e later
      exact ⟨other, List.mem_cons_of_mem _ there, bounds⟩

/-- The tables of SELECTs in braces stand within the braces. -/
theorem bracedEntries_within {start stop : Nat} (inside : stop ≤ ts.length)
    {es : List (Bytes × Nat)}
    (found : bracedEntries ts start stop = some es) :
    ∀ e ∈ es, ∃ range ∈ subSelects ts start stop, range.1 ≤ e.2 ∧ e.2 < range.2 := by
  obtain ⟨s, done, tables⟩ := Option.bind_eq_some_iff.mp found
  rw [reported, finds_handleSubQuery (finds_parseSubQuery _) inside done] at tables
  intro e member
  obtain ⟨query, there, bounds⟩ := entriesOf_within tables e member
  obtain ⟨range, braces, inRange⟩ := List.mem_flatMap.mp there
  have within := @mem_queries_bounds ts query range.1 range.2 inRange
  exact ⟨range, braces, by omega⟩

/-! ## Tokens of lists -/

/-- What a JOIN is made of. -/
theorem JoinWord.is_tokens (word : JoinWord) : ∀ t ∈ word.tokens, t.Is (sideIds ++ joinIds) := by
  intro t member
  rcases List.mem_append.mp member with side | join
  · exact List.mem_append_left _ (word.isSide t (Option.mem_toList.mp side)).1
  · obtain rfl := List.mem_singleton.mp join
    exact List.mem_append_right _ word.isJoin

namespace MoreTable

variable (m : MoreTable)

theorem depth_before : depth SqlToken.brace m.before = 0 := by
  cases m with
  | comma ref => rfl
  | join word ref cond => exact depth_of_kinds word.is_tokens (by decide)

theorem depth_behind : depth SqlToken.brace m.behind = 0 := by
  rcases m with _ | ⟨word, ref, _ | cond⟩
  · rfl
  · rfl
  · have flat : cond.word.brace = 0 := cond.isWord.brace_eq (by decide)
    rw [behind, conditionTokens, depth_cons, flat, cond.balanced, Int.zero_add]

theorem depth_tokens : depth SqlToken.brace m.tokens = 0 := by
  rw [tokens, depth_append, depth_append, m.depth_before, m.ref.depth_tokens, m.depth_behind]
  rfl

/-- No token of another table ends the list. -/
theorem noEnd : firstIn fromEndIds m.tokens = none := by
  have before : firstIn fromEndIds m.before = none := by
    cases m with
    | comma ref => rfl
    | join word ref cond => exact firstIn_of_kinds word.is_tokens (by decide)
  have behind : firstIn fromEndIds m.behind = none := by
    rcases m with _ | ⟨word, ref, _ | cond⟩
    · rfl
    · rfl
    · have isWord : ∀ t ∈ [cond.word], t.Is [.sqlOn, .sqlUsing] := by
        intro t member
        obtain rfl := List.mem_singleton.mp member
        exact cond.isWord
      exact @firstIn_append _ [cond.word] _ (firstIn_of_kinds isWord (by decide))
        (depth_of_kinds isWord (by decide)) cond.noEnd
  have front := firstIn_append before m.depth_before (m.ref.firstIn_tokens (by decide))
  refine firstIn_append front ?_ behind
  rw [depth_append, m.depth_before, m.ref.depth_tokens]
  rfl

end MoreTable

theorem depth_moreTokens (more : List MoreTable) : depth SqlToken.brace (moreTokens more) = 0 := by
  induction more with
  | nil => rfl
  | cons m more ih =>
    rw [moreTokens, List.flatMap_cons, depth_append, m.depth_tokens]
    exact (Int.zero_add _).trans ih

theorem noEnd_moreTokens (more : List MoreTable) : firstIn fromEndIds (moreTokens more) = none := by
  induction more with
  | nil => rfl
  | cons m more ih => exact firstIn_append m.noEnd m.depth_tokens ih

/-- A place in a list of tokens, outside of braces. -/
def PlaceIn (l : List SqlToken) (place : Nat) : Prop :=
  ∃ before rest, l = before ++ rest ∧ rest ≠ [] ∧ before.length = place ∧
    depth SqlToken.brace before = 0

/-- A place further back. -/
theorem PlaceIn.append {front l : List SqlToken} {place : Nat} (here : PlaceIn l place)
    (flat : depth SqlToken.brace front = 0) (back : List SqlToken) :
    PlaceIn (front ++ (l ++ back)) (front.length + place) := by
  obtain ⟨before, rest, rfl, some_, rfl, outside⟩ := here
  refine ⟨front ++ before, rest ++ back, by simp only [List.append_assoc], ?_,
    List.length_append, ?_⟩
  · exact fun none_ => some_ (List.append_eq_nil_iff.mp none_).1
  · rw [depth_append, flat, outside]
    rfl

/-- The name of a table is outside of braces. -/
theorem TableRef.placeIn (ref : TableRef) : PlaceIn ref.tokens ref.place := by
  have within := ref.place_lt
  refine ⟨ref.tokens.take ref.place, ref.tokens.drop ref.place,
    (List.take_append_drop _ _).symm, ?_, ?_, ?_⟩
  · intro none_
    have length := congrArg List.length none_
    rw [List.length_drop, List.length_nil] at length
    omega
  · rw [List.length_take]
    omega
  · exact depth_of_kinds (fun t member => ref.is_tokens t (List.mem_of_mem_take member)) (by decide)

/-- So are the names of more tables. -/
theorem placeIn_moreEntries (more : List MoreTable) : ∀ (start : Nat), ∀ e ∈ moreEntries start more,
    ∃ place, e.2 = start + place ∧ PlaceIn (moreTokens more) place := by
  induction more with
  | nil => exact fun start e member => absurd member List.not_mem_nil
  | cons m more ih =>
    intro start e member
    rcases List.mem_cons.mp member with rfl | later
    · refine ⟨m.before.length + m.ref.place, Nat.add_assoc _ _ _, ?_⟩
      have here := m.ref.placeIn.append m.depth_before (m.behind ++ moreTokens more)
      simpa [moreTokens, MoreTable.tokens] using here
    · obtain ⟨place, same, there⟩ := ih _ e later
      refine ⟨m.tokens.length + place, by rw [same, Nat.add_assoc], ?_⟩
      have further := there.append m.depth_tokens []
      rwa [List.append_nil] at further

namespace TableList

variable (list : TableList)

theorem depth_tokens : depth SqlToken.brace list.tokens = 0 := by
  rw [tokens, depth_append, list.first.depth_tokens, depth_moreTokens]
  rfl

theorem noEnd : firstIn fromEndIds list.tokens = none :=
  firstIn_append (list.first.firstIn_tokens (by decide)) list.first.depth_tokens
    (noEnd_moreTokens list.more)

/-- The names of the tables of a list are outside of braces. -/
theorem placeIn_entries {start : Nat} : ∀ e ∈ list.entries start,
    ∃ place, e.2 = start + place ∧ PlaceIn list.tokens place := by
  intro e member
  rcases List.mem_cons.mp member with rfl | later
  · have first := @PlaceIn.append [] _ _ list.first.placeIn rfl (moreTokens list.more)
    rw [List.nil_append, List.length_nil, Nat.zero_add] at first
    exact ⟨list.first.place, rfl, first⟩
  · obtain ⟨place, same, there⟩ := placeIn_moreEntries list.more _ e later
    refine ⟨list.first.tokens.length + place, by rw [same, Nat.add_assoc], ?_⟩
    have further := there.append list.first.depth_tokens []
    rwa [List.append_nil] at further

end TableList

/-! ## SELECTs from lists -/

/-- A SELECT without UNION before its FROM, which is a list of tables, with semicolons behind it. -/
structure ListSelect where
  head : List SqlToken
  from_ : SqlToken
  list : TableList
  semicolons : List SqlToken
  rest : List SqlToken
  select : tokenId head 0 = some .sqlSelect
  balanced : depth SqlToken.brace head = 0
  noFrom : firstIn [.sqlFrom] head = none
  noUnion : firstIn [.sqlUnion] head = none
  isFrom : from_.Is [.sqlFrom]
  areSemicolons : ∀ t ∈ semicolons, t.tokenId = .semicolon
  ends : ∀ t ∈ rest.head?, t.Is fromEndIds

namespace ListSelect

variable (S : ListSelect)

/-- The tokens up to the end of the list. -/
def ahead : List SqlToken := S.head ++ S.from_ :: (S.list.tokens ++ S.semicolons)

def tokens : List SqlToken := S.ahead ++ S.rest

/-- Where the list of tables begins. -/
def fromstart : Nat := S.head.length + 1

/-- Where it ends. -/
def fromend : Nat := S.ahead.length

/-- The tables of all other SELECTs: behind a UNION, and in braces. -/
def otherEntries : Option (List (Bytes × Nat)) := do
  let (isUnion, unionPos) ← findToken S.tokens 0 S.tokens.length .sqlUnion
  let queryEnd := if isUnion then unionPos else S.tokens.length
  let (_, wherestart, whereend) ← getSqlWhere S.tokens .new S.fromend queryEnd
  joined
    (if isUnion then
      (parseUnion S.tokens (parseSubQuery S.tokens S.tokens.length) .new unionPos
        S.tokens.length).bind (reported S.tokens)
    else some [])
    (joined (bracedEntries S.tokens 0 S.fromstart)
      (joined (bracedEntries S.tokens S.fromstart S.fromend)
        (bracedEntries S.tokens wherestart whereend)))

/-- The tables of the list are reported, in order, each once, and nothing else. -/
def Reports : Prop := parsedEntries S.tokens = some (S.list.entries S.fromstart)

/-! ## Where the list is -/

theorem length_ahead :
    S.fromend = S.fromstart + (S.list.tokens ++ S.semicolons).length := by
  rw [fromend, ahead, fromstart, List.length_append, List.length_cons]
  omega

theorem select_tokens : tokenId S.tokens 0 = some .sqlSelect := by
  have positive := lt_of_tokenId S.select
  rw [tokenId, tokens, ahead, List.append_assoc, List.getElem?_append_left positive]
  exact S.select

/-- The FROM comes first, and then the list. -/
theorem firstIn_from : firstIn [.sqlFrom] S.tokens = some S.head.length := by
  refine find_eq_some_iff.mpr
    ⟨S.head, S.from_, S.list.tokens ++ S.semicolons ++ S.rest, ?_, rfl, S.noFrom, ?_, S.isFrom⟩
  · rw [tokens, ahead, List.append_assoc, List.cons_append]
  · rw [S.balanced]
    rfl

theorem window_list :
    window S.tokens S.fromstart S.fromend = S.list.tokens ++ S.semicolons := by
  have drop : S.tokens.drop S.fromstart = S.list.tokens ++ S.semicolons ++ S.rest := by
    rw [tokens, ahead, fromstart, List.append_assoc, List.cons_append, ← List.drop_drop,
      List.drop_left]
    rfl
  rw [window, drop, length_ahead, Nat.add_sub_cancel_left, List.take_left]

/-- The semicolons are flat. -/
theorem depth_list : depth SqlToken.brace (S.list.tokens ++ S.semicolons) = 0 := by
  have kinds : ∀ t ∈ S.semicolons, t.Is [.semicolon] := fun t member =>
    List.mem_singleton.mpr (S.areSemicolons t member)
  rw [depth_append, S.list.depth_tokens, depth_of_kinds kinds (by decide)]
  rfl

theorem noEnd_list : firstIn fromEndIds (S.list.tokens ++ S.semicolons) = none :=
  firstIn_append S.list.noEnd S.list.depth_tokens (firstIn_semicolons S.areSemicolons (by decide))

theorem depth_ahead : depth SqlToken.brace S.ahead = 0 := by
  have flat : S.from_.brace = 0 := S.isFrom.brace_eq (by decide)
  rw [ahead, depth_append, depth_cons, S.balanced, flat, S.depth_list]
  rfl

/-- The list is the FROM of the statement. -/
theorem getSqlFrom_tokens :
    getSqlFrom S.tokens 0 S.tokens.length = some (true, S.fromstart, S.fromend) := by
  have drop : S.tokens.drop S.fromstart = S.list.tokens ++ S.semicolons ++ S.rest := by
    rw [tokens, ahead, fromstart, List.append_assoc, List.cons_append, ← List.drop_drop,
      List.drop_left]
    rfl
  have last : S.fromend = S.fromstart + (S.list.tokens ++ S.semicolons).length := S.length_ahead
  rw [getSqlFrom_whole S.firstIn_from]
  change some (true, S.fromstart, ((firstIn fromEndIds (S.tokens.drop S.fromstart)).map
    (S.fromstart + ·)).getD S.tokens.length) = _
  cases rest : S.rest with
  | nil =>
    rw [drop, rest, List.append_nil, S.noEnd_list, Option.map_none, Option.getD_none, tokens, rest,
      List.append_nil]
    rfl
  | cons t more =>
    have kind : t.Is fromEndIds := S.ends t (by rw [rest]; rfl)
    have found : firstIn fromEndIds (S.list.tokens ++ S.semicolons ++ t :: more) =
        some (S.list.tokens ++ S.semicolons).length :=
      find_eq_some_iff.mpr ⟨_, t, more, rfl, rfl, S.noEnd_list, by rw [S.depth_list]; rfl, kind⟩
    rw [drop, rest, found, Option.map_some, Option.getD_some, ← last]

/-- A UNION is behind the list. -/
theorem findToken_union {isUnion : Bool} {unionPos : Nat}
    (found : findToken S.tokens 0 S.tokens.length .sqlUnion = some (isUnion, unionPos)) :
    S.fromend ≤ unionPos ∧ unionPos ≤ S.tokens.length := by
  have inList : firstIn [.sqlUnion] (S.list.tokens ++ S.semicolons) = none :=
    firstIn_mono (by decide) S.noEnd_list
  have kinds : ∀ t ∈ [S.from_], t.Is [.sqlFrom] := by
    intro t member
    obtain rfl := List.mem_singleton.mp member
    exact S.isFrom
  have behind : firstIn [.sqlUnion] (S.from_ :: (S.list.tokens ++ S.semicolons)) = none :=
    @firstIn_append _ [S.from_] _ (firstIn_of_kinds kinds (by decide))
      (depth_of_kinds kinds (by decide)) inList
  have nothing : firstIn [.sqlUnion] S.ahead = none := firstIn_append S.noUnion S.balanced behind
  have later : firstIn [.sqlUnion] S.tokens =
      (firstIn [.sqlUnion] S.rest).map (· + S.ahead.length) := by
    rw [firstIn] at nothing
    rw [tokens, firstIn, find_append, nothing, S.depth_ahead]
    rfl
  have length : S.tokens.length = S.fromend + S.rest.length := List.length_append
  rw [findToken_drop (by decide) (Nat.zero_le _), List.drop_zero, later] at found
  cases there : firstIn [.sqlUnion] S.rest with
  | none =>
    rw [there, Option.map_none, Option.elim_none, Option.some.injEq, Prod.mk.injEq] at found
    omega
  | some i =>
    have upper := firstIn_lt there
    rw [there, Option.map_some, Option.elim_some, Option.some.injEq, Prod.mk.injEq] at found
    rw [fromend] at length ⊢
    omega

/-- The statement of the list, and then all others. -/
theorem parsedEntries_tokens : ∃ queryEnd wherestart whereend, parsedEntries S.tokens =
    joined (queryEntries S.tokens ⟨0, queryEnd, S.fromstart, S.fromend, wherestart, whereend⟩)
      S.otherEntries := by
  obtain ⟨isUnion, unionPos, union, _, _, _⟩ :=
    @findToken_spec S.tokens _ (by decide : NoBrace [.sqlUnion]) _ _ (Nat.le_refl _)
      (Nat.zero_le S.tokens.length)
  have last := (S.findToken_union union).2
  have within : (if isUnion = true then unionPos else S.tokens.length) ≤ S.tokens.length := by
    split <;> omega
  obtain ⟨s, wherestart, whereend, condition, _, _, _⟩ :=
    @getSqlWhere_spec S.tokens .new S.fromend _ within
  refine ⟨if isUnion = true then unionPos else S.tokens.length, wherestart, whereend, ?_⟩
  rw [parsedEntries_from S.select_tokens S.getSqlFrom_tokens union rfl condition, joined_assoc,
    otherEntries, union, Option.bind_eq_bind, Option.bind_some]
  simp only [condition, Option.bind_eq_bind, Option.bind_some]

/-! ## The tables of the list and the others -/

/-- No table of another SELECT is one of the list. -/
theorem otherEntries_apart {other : List (Bytes × Nat)} (found : S.otherEntries = some other) :
    ∀ e ∈ other, e ∉ S.list.entries S.fromstart := by
  obtain ⟨⟨isUnion, unionPos⟩, union, found⟩ := Option.bind_eq_some_iff.mp found
  obtain ⟨⟨s, wherestart, whereend⟩, condition, found⟩ := Option.bind_eq_some_iff.mp found
  dsimp only at condition found
  obtain ⟨behind, upper⟩ := S.findToken_union union
  have last := S.length_ahead
  have within : (if isUnion = true then unionPos else S.tokens.length) ≤ S.tokens.length := by
    split <;> omega
  obtain ⟨_, _, _, condition', _, lower, upperWhere⟩ :=
    @getSqlWhere_spec S.tokens .new S.fromend _ within
  rw [condition, Option.some.injEq, Prod.mk.injEq, Prod.mk.injEq] at condition'
  obtain ⟨rfl, rfl, rfl⟩ := condition'
  obtain ⟨es₁, braced, inUnion, inBraces, rfl⟩ := joined_eq_some_iff.mp found
  obtain ⟨es₂, behindHead, inHead, inOthers, rfl⟩ := joined_eq_some_iff.mp inBraces
  obtain ⟨es₃, es₄, inList, inWhere, rfl⟩ := joined_eq_some_iff.mp inOthers
  have bound : S.fromend ≤ S.tokens.length := Nat.le_trans behind upper
  intro e member listed
  obtain ⟨place, same, before, rest, split, some_, length, flat⟩ := S.list.placeIn_entries e listed
  -- The place of a table of the list: within the list, and outside of braces.
  have inside : e.2 < S.fromend := by
    have positive := List.length_pos_of_ne_nil some_
    have sizes := congrArg List.length split
    rw [List.length_append] at sizes
    rw [List.length_append] at last
    omega
  have outside : level S.tokens S.fromstart e.2 = 0 := by
    have whole : window S.tokens S.fromstart S.fromend = before ++ (rest ++ S.semicolons) := by
      rw [S.window_list, split, List.append_assoc]
    obtain ⟨_, front, _⟩ := window_parts whole (by omega) bound
    rw [level, same, ← length, front, flat]
  rcases List.mem_append.mp member with union_ | member
  · split at inUnion
    · next isUnion =>
      -- Behind the UNION.
      subst isUnion
      obtain ⟨r, done, tables⟩ := Option.bind_eq_some_iff.mp inUnion
      have first := firstOf_of_findToken (by decide) (Nat.le_refl _) union
      rw [reported, finds_parseUnion (finds_parseSubQuery _) (Or.inl rfl) first done] at tables
      obtain ⟨query, there, bounds⟩ := entriesOf_within tables e union_
      cases arm : nextArm S.tokens 0 S.tokens.length with
      | none =>
        rw [arm] at there
        exact absurd there List.not_mem_nil
      | some next =>
        rw [arm] at there
        obtain ⟨_, u, union', _, _, further⟩ := nextArm_spec arm
        have within := mem_queries_bounds there
        rw [first, Option.some.injEq] at union'
        omega
    · obtain rfl := Option.some.inj inUnion
      exact absurd union_ List.not_mem_nil
  · rcases List.mem_append.mp member with head | member
    · -- In the braces of the head.
      obtain ⟨range, there, bounds⟩ := bracedEntries_within (by omega) inHead e head
      have braces := inBraces_of_subSelects there
      have first := braces.upper
      omega
    · rcases List.mem_append.mp member with list | condition
      · -- In the braces of the list itself.
        obtain ⟨range, there, bounds⟩ := bracedEntries_within bound inList e list
        have deep := level_of_subSelects bound there bounds.1 (Nat.le_of_lt bounds.2)
        omega
      · -- In the braces of the condition.
        obtain ⟨range, there, bounds⟩ := bracedEntries_within (by omega) inWhere e condition
        have braces := inBraces_of_subSelects there
        have first := braces.lower
        omega

/-- `select * from a, b join c on x = y`. -/
def joinBehindComma : ListSelect where
  head := [⟨.sqlSelect, [115, 101, 108, 101, 99, 116]⟩, ⟨.star, [42]⟩]
  from_ := ⟨.sqlFrom, [102, 114, 111, 109]⟩
  list :=
    { first := ⟨[], [97], none, by decide, by decide⟩
      more :=
        [.comma ⟨[], [98], none, by decide, by decide⟩,
          .join ⟨none, ⟨.sqlJoin, [106, 111, 105, 110]⟩, by simp, by decide⟩
            ⟨[], [99], none, by decide, by decide⟩
            (some
              { word := ⟨.sqlOn, [111, 110]⟩
                body := [⟨.literal, [120]⟩, ⟨.eq, [61]⟩, ⟨.literal, [121]⟩]
                isWord := by decide
                balanced := by decide
                noSeparator := by decide
                noEnd := by decide
                noSemicolon := by decide })] }
  semicolons := []
  rest := []
  select := by decide
  balanced := by decide
  noFrom := by decide
  noUnion := by decide
  isFrom := by decide
  areSemicolons := by decide
  ends := by decide

end ListSelect

end OneProxy.Sql
