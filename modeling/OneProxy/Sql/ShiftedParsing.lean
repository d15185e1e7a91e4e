import OneProxy.Sql.Shifting
import OneProxy.Sql.StatementReads

/-! What the parser finds when the tokens of a statement stand further back. -/

namespace OneProxy.Sql

open TopLevel

/-- What no search that begins before a statement may come upon there. -/
def searchedIds : List SqlTokenId := [.obrace, .cbrace, .sqlColumns, .dot]

/-- Nothing that is searched for stands before a place, or at it. -/
def Leads (ts : List SqlToken) (k : Nat) : Prop :=
  ∀ i, i ≤ k → ∀ id, tokenId ts i = some id → id ∉ searchedIds

/-- The tables that were found: their names, and the tokens that name them. -/
def Parsing.entries (s : Parsing) : List (Bytes × Nat) :=
  s.tablelist.map fun t => (t.table, t.position)

/-- A table that stands further back. -/
def movedEntry (k : Nat) (entry : Bytes × Nat) : Bytes × Nat := (entry.1, entry.2 + k)

/-- A statement that was found, and the same statement further back. -/
structure Moved (k : Nat) (ts : List SqlToken) (query query' : SQLQuery) : Prop where
  tbegin : query'.tbegin = query.tbegin + k
  fromstart : query'.fromstart = query.fromstart + k
  fromend : query'.fromend = query.fromend + k
  positive : tokenId ts query.tbegin = some .sqlSelect → 1 ≤ query.fromstart

/--
What was found out about tokens, and the same of tokens further back, on top of other findings.
-/
structure Alike (k : Nat) (ts : List SqlToken) (base s s' : Parsing) : Prop where
  queries : ∃ found, s'.querylist = base.querylist ++ found ∧
    List.Forall₂ (Moved k ts) s.querylist found
  entries : s'.entries = base.entries ++ s.entries.map (movedEntry k)

variable {both : Prop} {ts ts' : List SqlToken} {k : Nat} {base s s' : Parsing}

namespace Alike

/-- Nothing has been found yet. -/
theorem start (k : Nat) (ts : List SqlToken) (base : Parsing) : Alike k ts base .new base where
  queries := ⟨[], (List.append_nil _).symm, .nil⟩
  entries := (List.append_nil _).symm

/-- A statement more. -/
theorem push {query query' : SQLQuery} (alike : Alike k ts base s s')
    (moved : Moved k ts query query') :
    Alike k ts base (s.pushQuery query) (s'.pushQuery query') where
  queries := by
    obtain ⟨found, split, related⟩ := alike.queries
    refine ⟨found ++ [query'], ?_, List.rel_append related (.cons moved .nil)⟩
    rw [Parsing.pushQuery, split, List.append_assoc]
  entries := alike.entries

/-- A table more. -/
theorem addTable (alike : Alike k ts base s s') (tableName aliasName : Bytes) (place : Nat)
    (query query' : SQLQuery) :
    Alike k ts base (s.addTableInfo tableName aliasName place query)
      (s'.addTableInfo tableName aliasName (place + k) query') where
  queries := alike.queries
  entries := by
    have entries := alike.entries
    simp only [Parsing.entries] at entries
    simp only [Parsing.entries, Parsing.addTableInfo, List.map_append, entries, List.append_assoc,
      List.map_cons, List.map_nil, movedEntry]

/-- What is known about the statement as a whole does not matter. -/
theorem congr {r r' : Parsing} (alike : Alike k ts base s s') (queries : r.querylist = s.querylist)
    (queries' : r'.querylist = s'.querylist) (tables : r.tablelist = s.tablelist)
    (tables' : r'.tablelist = s'.tablelist) : Alike k ts base r r' := by
  obtain ⟨found, entries⟩ := alike
  refine ⟨?_, ?_⟩
  · rwa [queries, queries']
  · simp only [Parsing.entries] at entries
    simp only [Parsing.entries, tables, tables', entries]

end Alike

/-- A token further back is not one that is searched for. -/
theorem Leads.first (leads : Leads ts' k) (agree : Agree both ts ts' k) {id : SqlTokenId}
    (there : tokenId ts 0 = some id) : id ∉ searchedIds := by
  have moved := agree.tokenId_eq there
  rw [Nat.zero_add] at moved
  exact leads k (Nat.le_refl k) id moved

/-! ## Statements within a statement -/

/-- A range further back. -/
def movedRange (k : Nat) (range : Nat × Nat) : Nat × Nat := (range.1 + k, range.2 + k)

/-- The same SELECTs are peeled. -/
theorem peeled_shift (agree : Agree both ts ts' k) (stop : Nat) : ∀ startBrace, stop ≤ ts.length →
    (startBrace < stop ∨ ∃ id, tokenId ts startBrace = some id ∧ id ≠ .obrace) →
    peeled ts' (startBrace + k) (stop + k) = (peeled ts startBrace stop).map (movedRange k) := by
  have at_ : ∀ {i}, i < ts.length → tokenId ts' (i + k) = tokenId ts i := by
    intro i inside
    obtain ⟨t, _, there⟩ := tokenId_lt inside
    rw [there, agree.tokenId_eq there]
  -- A range that does not begin with a brace is not peeled.
  have unopened : ∀ startBrace stop, (∃ id, tokenId ts startBrace = some id ∧ id ≠ .obrace) →
      peeled ts' (startBrace + k) stop = [] := by
    intro startBrace stop there
    obtain ⟨id, there, other⟩ := there
    cases stop with
    | zero => rfl
    | succ stop =>
      rw [peeled, agree.tokenId_eq there, if_neg]
      simp [other]
  induction stop with
  | zero =>
    intro startBrace _ there
    obtain impossible | there := there
    · omega
    · rw [unopened _ _ there]
      rfl
  | succ endBrace ih =>
    intro startBrace inside there
    have within : startBrace < ts.length := by
      obtain before | ⟨id, there, _⟩ := there
      · omega
      · exact lt_of_tokenId there
    rw [Nat.add_right_comm, peeled, peeled, at_ within, at_ inside]
    by_cases braces : tokenId ts startBrace = some .obrace ∧ tokenId ts endBrace = some .cbrace
    · have before : startBrace < endBrace := by
        obtain before | ⟨id, there, other⟩ := there
        · have apart : startBrace ≠ endBrace := by
            intro same
            rw [← same, braces.1] at braces
            cases braces.2
          omega
        · rw [braces.1] at there
          exact absurd (Option.some.inj there).symm other
      have deeper := ih (startBrace + 1) (by omega) (by
        by_cases more : startBrace + 1 < endBrace
        · exact Or.inl more
        · have same : startBrace + 1 = endBrace := by omega
          exact Or.inr ⟨_, same ▸ braces.2, by simp⟩)
      rw [Nat.add_right_comm] at deeper
      have next := @at_ (startBrace + 1) (by omega)
      rw [Nat.add_right_comm] at next
      rw [if_pos braces, if_pos braces, next, deeper]
      split
      · simp only [List.map_cons, movedRange, Nat.add_right_comm startBrace 1]
      · rfl
    · rw [if_neg braces, if_neg braces, List.map_nil]

/-- A walk finds the same SELECTs; where braces are open, it knows where they were opened. -/
theorem subSelectsFrom_shift (agree : Agree both ts ts' k) (count : Nat) :
    ∀ (i startBrace startBrace' : Nat) (c : Int), i + count ≤ ts.length →
      (1 ≤ c → startBrace' = startBrace + k ∧ startBrace < i) →
      subSelectsFrom ts' count (i + k) startBrace' c =
        (subSelectsFrom ts count i startBrace c).map (movedRange k) := by
  induction count with
  | zero => exact fun i startBrace startBrace' c _ _ => rfl
  | succ count ih =>
    intro i startBrace startBrace' c inside opened
    obtain ⟨t, _, there⟩ := @tokenId_lt ts i (by omega)
    -- The three ways on: an opening brace, a closing one, and any other token.
    have deeper := ih (i + 1) (if c = 0 then i else startBrace)
      (if c = 0 then i + k else startBrace') (c + 1) (by omega) (fun deep => by split <;> omega)
    have shallower := ih (i + 1) startBrace startBrace' (c - 1) (by omega)
      (fun deep => by have := opened (by omega); omega)
    have level := ih (i + 1) startBrace startBrace' c (by omega)
      (fun deep => by have := opened deep; omega)
    rw [Nat.add_right_comm] at deeper shallower level
    rw [subSelectsFrom, subSelectsFrom, there, agree.tokenId_eq there, deeper, shallower, level]
    split
    · rfl
    · split
      · by_cases last : c = 1
        · obtain ⟨same, before⟩ := opened (by omega)
          have peel := peeled_shift agree (i + 1) startBrace (by omega) (Or.inl (by omega))
          rw [Nat.add_right_comm] at peel
          rw [if_pos last, if_pos last, same, peel, List.map_append]
        · rw [if_neg last, if_neg last, List.nil_append, List.nil_append]
      · rfl

/-- The SELECTs in braces are the same. -/
theorem subSelects_shift (agree : Agree both ts ts' k) (substart : Nat) {subend : Nat}
    (inside : subend ≤ ts.length) :
    subSelects ts' (substart + k) (subend + k) = (subSelects ts substart subend).map
      (movedRange k) := by
  rw [subSelects, subSelects, Nat.add_sub_add_right]
  by_cases order : substart ≤ subend
  · exact subSelectsFrom_shift agree _ substart 0 0 0 (by omega) (by omega)
  · have empty : subend - substart = 0 := by omega
    rw [empty]
    rfl

section

variable {sub sub' : Parsing → Nat → Nat → Option Parsing} {tbegin : Nat}

/-- The parsers of the statements within a statement find the same. -/
def SubAlike (both : Prop) (k : Nat) (ts ts' : List SqlToken) (base : Parsing) (tbegin : Nat)
    (sub sub' : Parsing → Nat → Nat → Option Parsing) : Prop :=
  ∀ s s' b e, tbegin < b → b ≤ e → Ends ts e → (Leads ts' k ∨ tokenId ts b = some .sqlSelect) →
    Alike k ts base s s' →
    Alongside both (Alike k ts base) (sub s b e) (sub' s' (b + k) (e + k))

variable (agree : Agree both ts ts' k) (subAlike : SubAlike both k ts ts' base tbegin sub sub')

include subAlike in
theorem alike_parseAll (ranges : List (Nat × Nat)) :
    ∀ s s', (∀ range ∈ ranges, tbegin < range.1 ∧ range.1 ≤ range.2 ∧ Ends ts range.2 ∧
        tokenId ts range.1 = some .sqlSelect) → Alike k ts base s s' →
      Alongside both (Alike k ts base) (parseAll sub s ranges)
        (parseAll sub' s' (ranges.map (movedRange k))) := by
  induction ranges with
  | nil => exact fun s s' _ alike => Alongside.of_some alike
  | cons range ranges ih =>
    intro s s' within alike
    obtain ⟨after, order, ends, select⟩ := within range (by simp)
    rw [List.map_cons, parseAll_cons, parseAll_cons]
    refine (subAlike s s' _ _ after order ends (Or.inr select) alike).bind fun r r' _ alike' => ?_
    exact ih r r' (fun other member => within other (List.mem_cons_of_mem range member)) alike'

include agree subAlike

theorem alike_handleSubQuery (alike : Alike k ts base s s') {substart subend : Nat}
    (lower : tbegin ≤ substart) (inside : subend ≤ ts.length) :
    Alongside both (Alike k ts base) (handleSubQuery ts sub s substart subend)
      (handleSubQuery ts' sub' s' (substart + k) (subend + k)) := by
  have inside' : subend + k ≤ ts'.length := Nat.le_trans (by omega) agree.length
  rw [handleSubQuery_eq s inside, handleSubQuery_eq s' inside', subSelects_shift agree _ inside]
  refine alike_parseAll subAlike _ s s' (fun range member => ?_) alike
  have braces := inBraces_of_subSelects member
  have before := braces.lower
  exact ⟨by omega, Nat.le_of_lt braces.order, Or.inr (Or.inl braces.closed), braces.select⟩

/-! ## The statements of each kind -/

theorem alike_parseUnion (alike : Alike k ts base s s')
    {unionPos tend : Nat} (lower : tbegin ≤ unionPos) (upper : unionPos < tend)
    (ends : Ends ts tend) :
    Alongside both (Alike k ts base) (parseUnion ts sub s unionPos tend)
      (parseUnion ts' sub' s' (unionPos + k) (tend + k)) := by
  refine Alongside.bind_same (agree.next unionPos 1) fun id after => ?_
  -- The next statement begins behind the UNION, or behind its ALL.
  have behind : (if id = SqlTokenId.sqlAll then unionPos + k + 2 else unionPos + k + 1) =
      (if id = SqlTokenId.sqlAll then unionPos + 2 else unionPos + 1) + k := by
    split <;> omega
  have later : tbegin < if id = SqlTokenId.sqlAll then unionPos + 2 else unionPos + 1 := by
    split <;> omega
  dsimp only
  rw [behind]
  refine Alongside.bind_same (agree.id _) fun next there =>
    Alongside.ite Iff.rfl (fun select => ?_) fun _ => ?_
  · refine subAlike s s' _ _ later ?_ ends (Or.inr (select ▸ there)) alike
    have within := lt_of_tokenId there
    by_cases last : tend = ts.length
    · omega
    · -- The end of the statement is no ALL.
      obtain ⟨stop, there, kind⟩ := ends.token last
      split
      · rename_i all
        have apart : unionPos + 1 ≠ tend := by
          intro same
          rw [same, there, all] at after
          obtain kind | kind := kind <;> simp [kind] at after
        omega
      · omega
  · exact Alongside.of_some alike

end

/-- Where a list of tables is, if there is one. -/
theorem getSqlFrom_bounds {start stop fromstart fromend : Nat} (inside : stop ≤ ts.length)
    (done : getSqlFrom ts start stop = some (true, fromstart, fromend)) :
    start < fromstart ∧ fromstart ≤ fromend ∧ fromend ≤ stop := by
  cases from' : firstOf ts [.sqlFrom] start stop with
  | none => simp [getSqlFrom_none inside from'] at done
  | some f =>
    obtain ⟨lower, upper, _⟩ := firstOf_spec from'
    obtain ⟨order, within⟩ := @firstOf_getD ts fromEndIds (f + 1) stop upper
    rw [getSqlFrom_some inside from'] at done
    simp only [Option.some.injEq, Prod.mk.injEq, true_and] at done
    omega

/-- A SELECT has no header to be skipped. -/
theorem skipExtern_select {b e h : Nat} (select : tokenId ts b = some .sqlSelect)
    (skipped : skipExternTokensInHeader ts b e = some h) : h = b := by
  have skip : ∀ tokId count, tokId ≠ .sqlSelect → skipSomeHeaderTokens ts tokId count b =
      some b := by
    intro tokId count differ
    cases count with
    | zero => rfl
    | succ count => simp [skipSomeHeaderTokens, select, differ.symm]
  rw [skipExternTokensInHeader, skip .comment _ (by decide)] at skipped
  simp only [Option.bind_eq_bind, Option.bind_some, skip .sqlExplain _ (by decide),
    Option.some.injEq] at skipped
  exact skipped.symm

section

variable {sub sub' : Parsing → Nat → Nat → Option Parsing} {tbegin : Nat}
  (agree : Agree both ts ts' k)

include agree

/-- A condition is found at the same tokens, and its end, if there is a condition. -/
theorem alike_getSqlWhere (alike : Alike k ts base s s') (start stop : Nat) :
    Alongside both (fun r r' => Alike k ts base r.1 r'.1 ∧ r'.2.1 = r.2.1 + k ∧
        (r.2.2 = 0 ∧ r'.2.2 = 0 ∨ r'.2.2 = r.2.2 + k))
      (getSqlWhere ts s start stop)
      (getSqlWhere ts' s' (start + k) (stop + k)) := by
  refine Alongside.bind_map (findToken_shift agree _ _ _) fun found _ => ?_
  refine Alongside.ite Iff.rfl (fun _ => ?_) fun _ => ?_
  · exact Alongside.of_some ⟨alike.congr rfl rfl rfl rfl, rfl, Or.inl ⟨rfl, rfl⟩⟩
  refine Alongside.bind_map (findTokens_shift_next agree _ _ _) fun ended _ => ?_
  refine Alongside.ite Iff.rfl (fun _ => ?_) fun _ => ?_
  · refine Alongside.bind_same (agree.id _) fun id _ =>
      Alongside.of_some ⟨?_, Nat.add_right_comm _ _ _, Or.inr rfl⟩
    dsimp only
    split
    · exact alike.congr rfl rfl rfl rfl
    · exact alike
  · exact Alongside.of_some ⟨alike, Nat.add_right_comm _ _ _, Or.inr rfl⟩

theorem alike_parseSelect (subAlike : SubAlike both k ts ts' base tbegin sub sub')
    (alike : Alike k ts base s s') {tend : Nat} (upper : tbegin < tend) (ends : Ends ts tend) :
    Alongside both (Alike k ts base) (parseSelect ts sub s tbegin tend)
      (parseSelect ts' sub' s' (tbegin + k) (tend + k)) := by
  have inside := ends.le
  refine Alongside.bind_map (getSqlFrom_shift agree tbegin tend) fun from' first => ?_
  obtain ⟨found, fromstart, fromend⟩ := from'
  refine Alongside.ite Iff.rfl (fun _ => Alongside.of_some alike) fun there => ?_
  simp only [Bool.not_eq_false] at there
  subst there
  obtain ⟨before, order, last⟩ := getSqlFrom_bounds inside first
  refine Alongside.bind_map (findToken_shift agree _ _ _) fun union search => ?_
  obtain ⟨isUnion, unionPos⟩ := union
  obtain ⟨found, u, search', lowerUnion, upperUnion, beforeUnion⟩ :=
    @findToken_spec ts _ (by decide : NoBrace [.sqlUnion]) _ _ inside (Nat.le_of_lt upper)
  rw [search, Option.some.injEq, Prod.mk.injEq] at search'
  obtain ⟨rfl, rfl⟩ := search'
  have queryEnd : (if isUnion = true then unionPos + k else tend + k) =
      (if isUnion = true then unionPos else tend) + k := by
    split <;> rfl
  have within : (if isUnion = true then unionPos else tend) ≤ ts.length := by
    split <;> omega
  dsimp only [movedFound]
  rw [queryEnd]
  generalize (if isUnion = true then unionPos else tend) = stop at within
  refine Alongside.bind (alike_getSqlWhere agree alike fromend stop) fun x y condition related => ?_
  obtain ⟨s₁, wherestart, whereend⟩ := x
  obtain ⟨s₁', wherestart', whereend'⟩ := y
  obtain ⟨alike₁, same, ended⟩ := related
  obtain ⟨_, _, _, condition', _, lowerWhere, upperWhere⟩ :=
    @getSqlWhere_spec ts s fromend stop within
  rw [condition, Option.some.injEq, Prod.mk.injEq, Prod.mk.injEq] at condition'
  obtain ⟨rfl, rfl, rfl⟩ := condition'
  dsimp only at same ended ⊢
  subst same
  have moved : Moved k ts ⟨tbegin, stop, fromstart, fromend, wherestart, whereend⟩
      ⟨tbegin + k, stop + k, fromstart + k, fromend + k,
        wherestart + k, whereend'⟩ := ⟨rfl, rfl, rfl, fun _ => by dsimp only; omega⟩
  have pushed := alike₁.push moved
  -- The statements within the statement.
  have rest : ∀ r r', Alike k ts base r r' → Alongside both (Alike k ts base)
      ((handleSubQuery ts sub r tbegin fromstart).bind fun s =>
        (handleSubQuery ts sub s fromstart fromend).bind fun s =>
          handleSubQuery ts sub s wherestart whereend)
      ((handleSubQuery ts' sub' r' (tbegin + k) (fromstart + k)).bind fun s =>
        (handleSubQuery ts' sub' s (fromstart + k) (fromend + k)).bind fun s =>
          handleSubQuery ts' sub' s (wherestart + k) whereend') := by
    intro r r' alike
    refine Alongside.bind (alike_handleSubQuery agree subAlike alike (Nat.le_refl _) (by omega))
      fun r r' _ alike => ?_
    refine Alongside.bind (alike_handleSubQuery agree subAlike alike (by omega) (by omega))
      fun r r' _ alike => ?_
    obtain ⟨rfl, rfl⟩ | rfl := ended
    · -- Without a condition the range is empty.
      simp only [handleSubQuery, Nat.zero_sub, handleSubQueryFrom]
      exact Alongside.of_some alike
    · exact alike_handleSubQuery agree subAlike alike (by omega) (by omega)
  refine Alongside.ite Iff.rfl (fun isUnion => ?_) fun _ => ?_
  · exact Alongside.bind
      (alike_parseUnion agree subAlike pushed lowerUnion (beforeUnion isUnion) ends)
      fun r r' _ alike => rest r r' alike
  · exact rest _ _ pushed

theorem alike_parseUpdate (subAlike : SubAlike both k ts ts' base tbegin sub sub')
    (alike : Alike k ts base s s') {tend : Nat} (inside : tend ≤ ts.length)
    (begins : tokenId ts tbegin = some .sqlUpdate) :
    Alongside both (Alike k ts base) (parseUpdate ts sub s tbegin tend)
      (parseUpdate ts' sub' s' (tbegin + k) (tend + k)) := by
  refine Alongside.bind_map (findToken_shift agree _ _ _) fun set search => ?_
  obtain ⟨found, setPos⟩ := set
  refine Alongside.ite Iff.rfl (fun _ => Alongside.of_some alike) fun there => ?_
  simp only [Bool.not_eq_false] at there
  subst there
  have set' := firstOf_of_findToken (by decide : NoBrace [.sqlSet]) inside search
  obtain ⟨lower, before, _⟩ := firstOf_spec set'
  -- The SET comes after the UPDATE, so there is a token before it.
  have apart : setPos ≠ tbegin := by
    intro same
    have there := tokenId_of_firstOf set'
    rw [same, begins] at there
    cases there
  refine Alongside.bind_same (tokenBefore_shift agree (by omega)) fun id previous => ?_
  refine Alongside.ite Iff.rfl (fun _ => Alongside.of_some alike) fun literal => ?_
  simp only [ne_eq, not_not] at literal
  subst literal
  refine Alongside.bind_map (findToken_shift agree _ _ _) fun name searchName => ?_
  obtain ⟨named, name⟩ := name
  -- The token before the SET is a name, so there is one.
  have named' : named = true := by
    obtain ⟨i, rfl⟩ : ∃ i, setPos = i + 1 := ⟨setPos - 1, by omega⟩
    have found := firstOf_literal set' (by omega) previous
    have search' := @findToken_eq ts _ (by decide : NoBrace [.literal]) tbegin (i + 1) (by omega)
    obtain ⟨k, there⟩ := Option.isSome_iff_exists.mp found
    rw [there, searchName] at search'
    exact congrArg Prod.fst (Option.some.inj search')
  subst named'
  have lowerName := (firstOf_spec (firstOf_of_findToken (by decide : NoBrace [.literal])
    (by omega) searchName)).1
  refine Alongside.bind_map (findToken_shift agree _ _ _) fun condition searchWhere => ?_
  obtain ⟨found, wherestart⟩ := condition
  obtain ⟨_, _, searchWhere', lowerWhere, upperWhere, _⟩ :=
    @findToken_spec ts _ (by decide : NoBrace [.sqlWhere]) setPos _ inside (by omega)
  rw [searchWhere, Option.some.injEq, Prod.mk.injEq] at searchWhere'
  obtain ⟨rfl, rfl⟩ := searchWhere'
  have moved : Moved k ts ⟨tbegin, tend, name, setPos, wherestart, wherestart⟩
      ⟨tbegin + k, tend + k, name + k, setPos + k,
        wherestart + k, wherestart + k⟩ :=
    ⟨rfl, rfl, rfl, fun select => by simp [begins] at select⟩
  refine Alongside.bind (alike_handleSubQuery agree subAlike (alike.push moved) lowerName
    (by omega)) fun r r' _ alike => ?_
  exact alike_handleSubQuery agree subAlike alike (by omega) inside

theorem alike_parseDelete (subAlike : SubAlike both k ts ts' base tbegin sub sub')
    (alike : Alike k ts base s s') {tend : Nat} (upper : tbegin < tend)
    (inside : tend ≤ ts.length) :
    Alongside both (Alike k ts base) (parseDelete ts sub s tbegin tend)
      (parseDelete ts' sub' s' (tbegin + k) (tend + k)) := by
  refine Alongside.bind_map (findToken_shift agree _ _ _) fun from' search => ?_
  obtain ⟨found, fromPos⟩ := from'
  have lower := (findToken_spec (by decide : NoBrace [.sqlFrom]) inside (Nat.le_of_lt upper))
  obtain ⟨_, _, search', lower, _⟩ := lower
  rw [search, Option.some.injEq, Prod.mk.injEq] at search'
  obtain ⟨rfl, rfl⟩ := search'
  refine Alongside.ite (and_congr Iff.rfl ?_) (fun more => ?_) fun _ => Alongside.of_some alike
  · dsimp only [movedFound]
    omega
  refine Alongside.bind_map (findToken_shift_next agree _ _ _) fun condition searchWhere => ?_
  obtain ⟨found', wherestart⟩ := condition
  obtain ⟨_, _, searchWhere', lowerWhere, upperWhere, _⟩ :=
    @findToken_spec ts _ (by decide : NoBrace [.sqlWhere]) (fromPos + 1) _ inside (by omega)
  rw [searchWhere, Option.some.injEq, Prod.mk.injEq] at searchWhere'
  obtain ⟨rfl, rfl⟩ := searchWhere'
  -- The ranges of the statement are moved as a whole.
  have moved : Moved k ts ⟨tbegin, tend, fromPos + 1, wherestart, wherestart, tend⟩
      ⟨tbegin + k, tend + k, fromPos + k + 1, wherestart + k,
        wherestart + k, tend + k⟩ :=
    ⟨rfl, Nat.add_right_comm _ _ _, rfl, fun _ => Nat.le_add_left _ _⟩
  refine Alongside.bind (alike_handleSubQuery agree subAlike (alike.push moved) (by omega)
    (by omega)) fun r r' _ alike => ?_
  exact alike_handleSubQuery agree subAlike alike (by omega) inside

theorem alike_parseInsert (subAlike : SubAlike both k ts ts' base tbegin sub sub')
    (alike : Alike k ts base s s')
    {tend : Nat} (upper : tbegin < tend) (ends : Ends ts tend) :
    Alongside both (Alike k ts base) (parseInsert ts sub s tbegin tend)
      (parseInsert ts' sub' s' (tbegin + k) (tend + k)) := by
  have inside := ends.le
  refine Alongside.bind_map (findToken_shift agree _ _ _) fun into search => ?_
  obtain ⟨found, into⟩ := into
  obtain ⟨_, _, search', lower, _⟩ :=
    findToken_spec (by decide : NoBrace [.sqlInto]) inside (Nat.le_of_lt upper)
  rw [search, Option.some.injEq, Prod.mk.injEq] at search'
  obtain ⟨rfl, rfl⟩ := search'
  refine Alongside.ite (and_congr Iff.rfl ?_) (fun more => ?_) fun _ => Alongside.of_some alike
  · dsimp only [movedFound]
    omega
  have count : tend + k - (into + k + 2) = tend - (into + 2) := by omega
  have place : into + k + 2 = into + 2 + k := by omega
  dsimp only [movedFound]
  rw [count, place]
  refine Alongside.bind_map (insertTableEnd_shift agree _ _) fun fromend ended => ?_
  obtain ⟨_, ended', behind, _⟩ := @insertTableEnd_spec ts (tend - (into + 2)) (into + 2) (by omega)
  rw [ended, Option.some.injEq] at ended'
  subst ended'
  refine Alongside.bind (insertValues_shift agree fromend tend) fun x y _ same => ?_
  obtain ⟨values, searched⟩ := x
  obtain ⟨values', searched'⟩ := y
  dsimp only at same ⊢
  subst same
  have moved : Moved k ts ⟨tbegin, tend, into + 1, fromend, values, values⟩
      ⟨tbegin + k, tend + k, into + k + 1, fromend + k, values',
        values'⟩ := ⟨rfl, Nat.add_right_comm _ _ _, rfl, fun _ => Nat.le_add_left _ _⟩
  have pushed := alike.push moved
  -- The SELECT that the rows are taken from, if there is one.
  have rest : ∀ selects : Bool, Alongside both (Alike k ts base)
      (if selects = true then
        (findToken ts fromend tend .sqlSelect).bind fun r =>
          if r.1 = true then
            sub { s.pushQuery ⟨tbegin, tend, into + 1, fromend, values, values⟩ with
              isInsertSelect := true } r.2 tend
          else some (s.pushQuery ⟨tbegin, tend, into + 1, fromend, values, values⟩)
      else some (s.pushQuery ⟨tbegin, tend, into + 1, fromend, values, values⟩))
      (if selects = true then
        (findToken ts' (fromend + k) (tend + k) .sqlSelect).bind fun r =>
          if r.1 = true then
            sub' { s'.pushQuery ⟨tbegin + k, tend + k, into + k + 1,
              fromend + k, values', values'⟩ with isInsertSelect := true } r.2 (tend + k)
          else some (s'.pushQuery ⟨tbegin + k, tend + k, into + k + 1,
            fromend + k, values', values'⟩)
      else some (s'.pushQuery ⟨tbegin + k, tend + k, into + k + 1,
        fromend + k, values', values'⟩)) := by
    intro selects
    refine Alongside.ite Iff.rfl (fun _ => ?_) fun _ => Alongside.of_some pushed
    refine Alongside.bind_map (findToken_shift agree _ _ _) fun select searchSelect => ?_
    obtain ⟨found, i⟩ := select
    refine Alongside.ite Iff.rfl (fun there => ?_) fun _ => Alongside.of_some pushed
    dsimp only at there
    subst there
    have select' := firstOf_of_findToken (by decide : NoBrace [.sqlSelect]) inside searchSelect
    obtain ⟨lowerSelect, upperSelect, _⟩ := firstOf_spec select'
    exact subAlike _ _ _ _ (by omega) (by omega) ends (Or.inr (tokenId_of_firstOf select'))
      (pushed.congr rfl rfl rfl rfl)
  refine Alongside.ite (by omega) (fun _ => rest true) fun _ => ?_
  refine Alongside.bind_same ?_ fun selects _ => rest selects
  exact (agree.id searched).map fun _ _ same => by rw [same]

omit agree in
/-- A statement with one table, found at the same tokens. -/
theorem alike_pushed (alike : Alike k ts base s s') {tbegin tend fromstart fromend : Nat}
    (positive : tokenId ts tbegin = some .sqlSelect → 1 ≤ fromstart) :
    Alongside both (Alike k ts base) (some (s.pushQuery ⟨tbegin, tend, fromstart, fromend, 0, 0⟩))
      (some (s'.pushQuery ⟨tbegin + k, tend + k, fromstart + k, fromend + k, 0, 0⟩)) :=
  Alongside.of_some (alike.push ⟨rfl, rfl, rfl, positive⟩)

theorem alike_parseCreate (leads : Leads ts' k) (alike : Alike k ts base s s') {tend : Nat}
    (inside : tend ≤ ts.length) {id : SqlTokenId} (begins : tokenId ts tbegin = some id)
    (other : id ≠ .sqlSelect) :
    Alongside both (Alike k ts base) (parseCreate ts s tbegin tend)
      (parseCreate ts' s' (tbegin + k) (tend + k)) := by
  have positive : ∀ fromstart, tokenId ts tbegin = some .sqlSelect → 1 ≤ fromstart := by
    intro fromstart select
    rw [begins] at select
    exact absurd (Option.some.inj select) other
  refine Alongside.ite (by omega) (fun long => ?_) fun _ => Alongside.of_some alike
  refine Alongside.bind_same (agree.next tbegin 1) fun kind _ => ?_
  refine Alongside.ite Iff.rfl (fun _ => ?_) fun _ => Alongside.of_some alike
  have skip : Alongside both (fun place place' => place' = place + k)
      (skipIfNotExists ts (ts.length + 1) (tbegin + 2))
      (skipIfNotExists ts' (ts'.length + 1) (tbegin + k + 2)) := by
    rw [Nat.add_right_comm]
    exact skipIfNotExists_shift agree _ _ _ (by omega) (by omega)
  refine skip.bind_map fun fromstart _ => ?_
  refine Alongside.ite ?_ (fun _ => ?_) fun _ => ?_
  · omega
  · -- Neither token before the statement is a dot, so both ends are one token further.
    have length := agree.length
    obtain ⟨t, _, there⟩ := @tokenId_lt ts 0 (by omega)
    obtain ⟨t', _, there'⟩ := @tokenId_lt ts' 0 (by omega)
    have noDot : t.tokenId ≠ .dot := by
      intro same
      exact leads.first agree there (by simp [same, searchedIds])
    have noDot' : t'.tokenId ≠ .dot := by
      intro same
      exact leads 0 (Nat.zero_le k) _ there' (by simp [same, searchedIds])
    simp only [there, there', Option.bind_eq_bind, Option.bind_some, if_neg noDot, if_neg noDot',
      Nat.add_right_comm _ k]
    exact alike_pushed alike (positive _)
  · rw [Nat.add_right_comm]
    exact alike_pushed alike (positive _)

theorem alike_parseDescribe (alike : Alike k ts base s s') (tbegin tend : Nat) :
    Alongside both (Alike k ts base) (parseDescribe ts s tbegin tend)
      (parseDescribe ts' s' (tbegin + k) (tend + k)) := by
  refine Alongside.ite (by omega) (fun _ => ?_) fun _ => Alongside.of_some alike
  refine Alongside.bind_same (agree.next tbegin 1) fun kind _ => ?_
  refine Alongside.ite Iff.rfl (fun _ => ?_) fun _ => Alongside.of_some alike
  rw [Nat.add_right_comm]
  refine Alongside.bind_map (dottedEnd_shift agree _ _) fun fromend _ => ?_
  exact alike_pushed alike fun _ => Nat.le_add_left _ _

theorem alike_parseVacuum (alike : Alike k ts base s s') (tbegin tend : Nat) :
    Alongside both (Alike k ts base) (parseVacuum ts s tbegin tend)
      (parseVacuum ts' s' (tbegin + k) (tend + k)) := by
  refine Alongside.ite (by omega) (fun _ => ?_) fun _ => Alongside.of_some alike
  refine Alongside.bind_same (agree.next tbegin 1) fun kind _ => ?_
  refine Alongside.ite Iff.rfl (fun _ => ?_) fun _ => Alongside.of_some alike
  rw [Nat.add_right_comm, Nat.add_right_comm tbegin k 2]
  exact alike_pushed alike fun _ => Nat.le_add_left _ _

theorem alike_parseTruncate (alike : Alike k ts base s s') (tbegin tend : Nat) :
    Alongside both (Alike k ts base) (parseTruncate ts s tbegin tend)
      (parseTruncate ts' s' (tbegin + k) (tend + k)) := by
  refine Alongside.ite (by omega) (fun _ => ?_) fun _ => alike_parseVacuum agree alike tbegin tend
  refine Alongside.bind_same (agree.next tbegin 1) fun kind _ => ?_
  refine Alongside.ite Iff.rfl (fun _ => ?_) fun _ => alike_parseVacuum agree alike tbegin tend
  rw [Nat.add_right_comm]
  refine Alongside.bind_map (dottedEnd_shift agree _ _) fun fromend _ => ?_
  exact alike_pushed alike fun _ => Nat.le_trans (by decide) (Nat.le_add_left 2 tbegin)

omit agree in
/-- A search passes tokens that it is not looking for. -/
theorem findTokenFrom_skip {tokens : List SqlToken} {tokId : SqlTokenId} {passed : Nat}
    (count : Nat) :
    ∀ i, (∀ j, j < passed → ∃ id, tokenId tokens (i + j) = some id ∧ id ≠ tokId ∧ id ≠ .obrace ∧
        id ≠ .cbrace) →
      findTokenFrom tokens tokId (passed + count) i 0 =
        findTokenFrom tokens tokId count (i + passed) 0 := by
  induction passed with
  | zero => exact fun i _ => by rw [Nat.zero_add, Nat.add_zero]
  | succ passed ih =>
    intro i skips
    obtain ⟨id, there, other, notOpen, notClose⟩ := skips 0 (by omega)
    have later := ih (i + 1) fun j before => by
      have next := skips (j + 1) (by omega)
      rwa [← Nat.add_assoc, Nat.add_right_comm] at next
    rw [Nat.add_zero] at there
    rw [Nat.add_right_comm, findTokenFrom, there]
    simp only [Option.bind_eq_bind, Option.bind_some, ne_eq, not_true_eq_false, false_or, other,
      not_false_eq_true, if_true, notOpen, notClose, if_false, later, Nat.add_assoc, Nat.add_comm 1]

/-- A search from the second token on passes what stands before the statement. -/
theorem findToken_leads (leads : Leads ts' k) {tend : Nat} (positive : 1 ≤ tend)
    (inside : tend ≤ ts.length) :
    Alongside both (fun r r' => r' = movedFound k r) (findToken ts 1 tend .sqlColumns)
      (findToken ts' 1 (tend + k) .sqlColumns) := by
  have length := agree.length
  have passes : ∀ j, j < k → ∃ id, tokenId ts' (1 + j) = some id ∧ id ≠ .sqlColumns ∧
      id ≠ .obrace ∧ id ≠ .cbrace := by
    intro j before
    obtain ⟨t, _, there⟩ := @tokenId_lt ts' (1 + j) (by omega)
    have other := leads _ (by omega) _ there
    simp only [searchedIds, List.mem_cons, List.not_mem_nil, or_false, not_or] at other
    exact ⟨_, there, other.2.2.1, other.1, other.2.1⟩
  have shift := findToken_shift agree .sqlColumns 1 tend
  rw [findToken, findToken, Nat.add_sub_add_right] at shift
  have count : tend + k - 1 = k + (tend - 1) := by omega
  rw [findToken, findToken, count, findTokenFrom_skip _ _ passes]
  refine (findTokenFrom_shift agree .sqlColumns (tend - 1) 1 0).bind_map fun i _ =>
    Alongside.of_some ?_
  simp [movedFound]

theorem alike_parseShow (leads : Leads ts' k) (alike : Alike k ts base s s') (tbegin : Nat)
    {tend : Nat}
    (inside : tend ≤ ts.length) :
    Alongside both (Alike k ts base) (parseShow ts s tbegin tend)
      (parseShow ts' s' (tbegin + k) (tend + k)) := by
  refine Alongside.ite (by omega) (fun _ => ?_) fun _ => Alongside.of_some alike
  refine Alongside.bind_map (findToken_leads agree leads (by omega) inside) fun columns _ => ?_
  obtain ⟨found, poscol⟩ := columns
  refine Alongside.ite Iff.rfl (fun _ => ?_) fun _ => Alongside.of_some alike
  refine Alongside.bind_map (findToken_shift_next agree _ _ _) fun from' _ => ?_
  obtain ⟨named, posfrom⟩ := from'
  have behind : (if named = true then posfrom + k + 1 else poscol + k + 1) =
      (if named = true then posfrom + 1 else poscol + 1) + k := by
    split <;> omega
  dsimp only [movedFound]
  rw [behind]
  refine Alongside.bind_map (dottedEnd_shift agree _ _) fun fromend _ => ?_
  exact alike_pushed alike fun _ => by split <;> omega

theorem alike_parseStatements (leads : Leads ts' k)
    (subAlike : SubAlike both k ts ts' base tbegin sub sub') {tend : Nat}
    (ends : Ends ts tend) (fuel : Nat) : ∀ s s' fromstart fromend,
      fromstart ≤ fromend → Alike k ts base s s' →
      Alongside both (Alike k ts base) (parseStatements ts sub tbegin tend fuel s fromstart fromend)
        (parseStatements ts' sub' (tbegin + k) (tend + k) fuel s'
          (fromstart + k) (fromend + k)) := by
  have inside := ends.le
  induction fuel with
  | zero => exact fun s s' fromstart fromend _ _ => Alongside.of_none
  | succ fuel ih =>
    intro s s' fromstart fromend order alike
    refine Alongside.ite (by omega) (fun more => ?_) fun _ => Alongside.of_some alike
    rw [Nat.add_sub_add_right]
    refine Alongside.bind_map (findSemicolon_shift agree _ _) fun stop found => ?_
    obtain ⟨_, found', lower, upper, semicolon, _⟩ :=
      @findSemicolon_spec ts (tend - fromend) fromend (by omega)
    rw [found, Option.some.injEq] at found'
    subst found'
    have endsStop : Ends ts stop := by
      by_cases less : stop < tend
      · exact Or.inr (Or.inr (semicolon (by omega)))
      · have same : stop = tend := by omega
        exact same ▸ ends
    -- The statement that ends there has been parsed; the next one follows.
    have rest : ∀ r r', Alike k ts base r r' → Alongside both (Alike k ts base)
        (if stop < tend then parseStatements ts sub tbegin tend fuel r (stop + 1) (stop + 1)
        else parseStatements ts sub tbegin tend fuel r fromstart stop)
        (if stop + k < tend + k then
          parseStatements ts' sub' (tbegin + k) (tend + k) fuel r'
            (stop + k + 1) (stop + k + 1)
        else parseStatements ts' sub' (tbegin + k) (tend + k) fuel r'
          (fromstart + k) (stop + k)) := by
      intro r r' alike
      refine Alongside.ite (by omega) (fun _ => ?_) fun _ => ih _ _ _ _ (by omega) alike
      rw [Nat.add_right_comm]
      exact ih _ _ _ _ (Nat.le_refl _) alike
    refine Alongside.ite (by omega) (fun later => ?_) fun _ => rest _ _ alike
    exact Alongside.bind (subAlike s s' _ _ later (by omega) endsStop (Or.inl leads) alike)
      fun r r' _ alike => rest r r' alike

/-- A statement of any kind is found at the same tokens. -/
theorem alike_parseStatement (subAlike : SubAlike both k ts ts' base tbegin sub sub')
    (alike : Alike k ts base s s') {tend : Nat} (upper : tbegin < tend) (ends : Ends ts tend)
    {id : SqlTokenId} (begins : tokenId ts tbegin = some id)
    (leads : Leads ts' k ∨ id = .sqlSelect) :
    Alongside both (Alike k ts base) (parseStatement ts sub id s tbegin tend)
      (parseStatement ts' sub' id s' (tbegin + k) (tend + k)) := by
  have inside := ends.le
  by_cases select : id = .sqlSelect
  · subst select
    exact alike_parseSelect agree subAlike alike upper ends
  replace leads := leads.resolve_right select
  -- Every other kind needs that no token of the statement begins a clause of the text before.
  unfold parseStatement
  split
  · exact absurd rfl select
  · exact alike_parseUpdate agree subAlike alike inside begins
  · exact alike_parseDelete agree subAlike alike upper inside
  · exact alike_parseInsert agree subAlike alike upper ends
  · exact alike_parseInsert agree subAlike alike upper ends
  · exact alike_parseCreate agree leads alike inside begins (by decide)
  · exact alike_parseCreate agree leads alike inside begins (by decide)
  · exact alike_parseCreate agree leads alike inside begins (by decide)
  · exact alike_parseDescribe agree alike _ _
  · exact alike_parseDescribe agree alike _ _
  · exact alike_parseShow agree leads alike _ inside
  · exact alike_parseTruncate agree alike _ _
  · rw [parseBegin, parseBegin, Nat.add_sub_add_right]
    exact alike_parseStatements agree leads subAlike ends _ s s' _ _ (Nat.le_refl _) alike
  · exact alike_parseVacuum agree alike _ _
  · exact Alongside.of_some alike

/--
However deep the statements lie, the same ones are found, if there is fuel enough for either search.
-/
theorem alike_parseSubQuery (fuel : Nat) : ∀ fuel' s s' b e, b ≤ e → Ends ts e →
    (Leads ts' k ∨ tokenId ts b = some .sqlSelect) → ts.length < b + fuel →
    ts'.length < b + k + fuel' → Alike k ts base s s' →
    Alongside both (Alike k ts base) (parseSubQuery ts fuel s b e)
      (parseSubQuery ts' fuel' s' (b + k) (e + k)) := by
  have length := agree.length
  induction fuel with
  | zero =>
    intro fuel' s s' b e order ends _ enough
    have inside := ends.le
    omega
  | succ fuel ih =>
    intro fuel' s s' b e order ends reach enough enough' alike
    have inside := ends.le
    obtain ⟨fuel', rfl⟩ : ∃ less, fuel' = less + 1 := ⟨fuel' - 1, by omega⟩
    refine Alongside.bind_map (skipExternTokensInHeader_shift agree _ _) fun h skipped => ?_
    obtain ⟨_, skipped', lower, upper⟩ := skipExternTokensInHeader_spec order inside
    rw [skipped, Option.some.injEq] at skipped'
    subst skipped'
    refine Alongside.ite (by omega) (fun _ => Alongside.of_some alike) fun more => ?_
    refine Alongside.bind_same (agree.id h) fun id begins => ?_
    have subAlike : SubAlike both k ts ts' base h (parseSubQuery ts fuel)
        (parseSubQuery ts' fuel') := by
      intro s s' b' e' later order' ends' reach' alike'
      exact ih fuel' s s' b' e' order' ends' reach' (by omega) (by omega) alike'
    refine alike_parseStatement agree subAlike alike (by omega) ends begins ?_
    obtain leads | select := reach
    · exact Or.inl leads
    · -- A SELECT has no header.
      have same := skipExtern_select select skipped
      rw [same, select] at begins
      exact Or.inr (Option.some.inj begins).symm

end

end OneProxy.Sql
