import OneProxy.Lib.Recursion
import OneProxy.Sql.BraceGroups
import OneProxy.Sql.ShiftedParsing

/-! Which statements the search within a SELECT comes to, and where they stand. -/

namespace OneProxy.Sql

variable (ts : List SqlToken)

/-! ## What belongs to a SELECT -/

/-- What is pushed for a SELECT that has a FROM, of its own or behind a UNION. -/
def selectQuery (b e : Nat) : Option SQLQuery :=
  (firstOf ts [.sqlFrom] b e).map fun f =>
    let fromend := (firstOf ts fromEndIds (f + 1) e).getD e
    let queryEnd := (firstOf ts [.sqlUnion] b e).getD e
    let condition := whereRange ts fromend queryEnd
    ⟨b, queryEnd, f + 1, fromend, condition.1, condition.2⟩

/-- Where the SELECT behind the next UNION begins, if there is one. -/
def nextArm (b e : Nat) : Option Nat :=
  (firstOf ts [.sqlUnion] b e).bind fun u =>
    let next := if tokenId ts (u + 1) = some .sqlAll then u + 2 else u + 1
    if tokenId ts next = some .sqlSelect then some next else none

/-- The parts of a SELECT that are searched for SELECTs in braces. -/
def searchedParts (query : SQLQuery) : List (Nat × Nat) :=
  [(query.tbegin, query.fromstart), (query.fromstart, query.fromend),
    (query.wherestart, query.whereend)]

/-- What a SELECT comes to, from what those within it come to. -/
def queriesStep (found : Nat × Nat → List SQLQuery) (range : Nat × Nat) : List SQLQuery :=
  (selectQuery ts range.1 range.2).elim [] fun query =>
    query :: ((nextArm ts range.1 range.2).elim [] (fun next => found (next, range.2)) ++
      (searchedParts query).flatMap fun part => (subSelects ts part.1 part.2).flatMap found)

/-- The statements that are found in a SELECT, in the order in which they are pushed. -/
def queries (range : Nat × Nat) : List SQLQuery :=
  Recursion.bounded (queriesStep ts) (fun _ => []) (range.2 - range.1 + 1) range

variable {ts}

/-! ## Bounds -/

section

variable {b e : Nat} {query : SQLQuery}

/-- Where the ranges of a statement lie. -/
theorem selectQuery_bounds (found : selectQuery ts b e = some query) :
    query.tbegin = b ∧ b < query.fromstart ∧ query.fromstart ≤ query.fromend ∧ query.fromend ≤ e ∧
      query.fromend ≤ query.wherestart ∧ query.whereend ≤ e := by
  obtain ⟨f, from', rfl⟩ := Option.map_eq_some_iff.mp found
  obtain ⟨lower, upper, _⟩ := firstOf_spec from'
  obtain ⟨order, within⟩ := @firstOf_getD ts fromEndIds (f + 1) e upper
  have queryEnd := (@firstOf_getD ts [.sqlUnion] b e (by omega)).2
  obtain ⟨first, last⟩ := @whereRange_bounds ts ((firstOf ts fromEndIds (f + 1) e).getD e)
    ((firstOf ts [.sqlUnion] b e).getD e)
  dsimp only
  omega

/-- The next SELECT is behind the UNION. -/
theorem nextArm_spec {next : Nat} (found : nextArm ts b e = some next) :
    tokenId ts next = some .sqlSelect ∧
      ∃ u, firstOf ts [.sqlUnion] b e = some u ∧ b ≤ u ∧ u < e ∧ u < next := by
  obtain ⟨u, union, there⟩ := Option.bind_eq_some_iff.mp found
  obtain ⟨lower, upper, _⟩ := firstOf_spec union
  dsimp only at there
  generalize place : (if tokenId ts (u + 1) = some .sqlAll then u + 2 else u + 1) = behind at there
  have further : u < behind := by
    rw [← place]
    split <;> omega
  split at there
  · next select =>
    obtain rfl := Option.some.inj there
    exact ⟨select, u, union, lower, upper, further⟩
  · cases there

/-- What is searched is part of the SELECT. -/
theorem searchedParts_bounds (found : selectQuery ts b e = some query) {part : Nat × Nat}
    (member : part ∈ searchedParts query) : b ≤ part.1 ∧ part.2 ≤ e := by
  have bounds := selectQuery_bounds found
  simp only [searchedParts, List.mem_cons, List.not_mem_nil, or_false] at member
  rcases member with rfl | rfl | rfl <;> dsimp only <;> omega

end

/-! ## The recursion -/

theorem descends_queriesStep :
    Recursion.Descends (queriesStep ts) fun range => range.2 - range.1 := by
  intro found found' range same
  rw [queriesStep, queriesStep]
  cases here : selectQuery ts range.1 range.2 with
  | none => rfl
  | some query =>
    have behind : (nextArm ts range.1 range.2).elim [] (fun next => found (next, range.2)) =
        (nextArm ts range.1 range.2).elim [] fun next => found' (next, range.2) := by
      cases arm : nextArm ts range.1 range.2 with
      | none => rfl
      | some next =>
        obtain ⟨_, u, _, lower, upper, behind⟩ := nextArm_spec arm
        exact same (next, range.2) (by dsimp only; omega)
    have within : ∀ part ∈ searchedParts query,
        (subSelects ts part.1 part.2).flatMap found =
            (subSelects ts part.1 part.2).flatMap found' := by
      intro part member
      refine List.flatMap_congr fun inner there => same inner ?_
      have bounds := searchedParts_bounds here member
      have braces := inBraces_of_subSelects there
      have first := braces.lower
      have last := braces.upper
      have order := braces.order
      dsimp only
      omega
    rw [Option.elim_some, Option.elim_some, behind, List.flatMap_congr within]

/-- The statements that are found in a SELECT: itself, those behind a UNION, and those in braces. -/
theorem queries_eq (b e : Nat) : queries ts (b, e) =
    (selectQuery ts b e).elim [] fun query =>
      query :: ((nextArm ts b e).elim [] (fun next => queries ts (next, e)) ++
        (searchedParts query).flatMap fun part =>
          (subSelects ts part.1 part.2).flatMap (queries ts)) := by
  have step : queries ts (b, e) = queriesStep ts
      (Recursion.bounded (queriesStep ts) (fun _ => []) (e - b)) (b, e) := rfl
  rw [step, descends_queriesStep _ (queries ts) (b, e), queriesStep]
  intro range less
  exact descends_queriesStep.bounded_eq _ _ _ _ range less (Nat.lt_succ_self _)

/-- All statements that are found lie within the SELECT, and so do their tables. -/
theorem mem_queries_bounds {query : SQLQuery} : ∀ {b e : Nat}, query ∈ queries ts (b, e) →
    b ≤ query.tbegin ∧ query.tbegin < query.fromstart ∧ query.fromstart ≤ query.fromend ∧
      query.fromend ≤ e := by
  -- The induction is on how long the SELECT is.
  intro b e
  generalize size : e - b = n
  induction n using Nat.strong_induction_on generalizing b e with
  | _ n ih =>
    intro member
    rw [queries_eq] at member
    cases here : selectQuery ts b e with
    | none =>
      rw [here] at member
      exact absurd member List.not_mem_nil
    | some own =>
      rw [here, Option.elim_some] at member
      have bounds := selectQuery_bounds here
      rcases List.mem_cons.mp member with rfl | others
      · omega
      · rcases List.mem_append.mp others with behind | braced
        · cases arm : nextArm ts b e with
          | none =>
            rw [arm] at behind
            exact absurd behind List.not_mem_nil
          | some next =>
            rw [arm] at behind
            obtain ⟨_, u, _, lower, upper, further⟩ := nextArm_spec arm
            have within := ih (e - next) (by omega) rfl behind
            omega
        · obtain ⟨part, there, inPart⟩ := List.mem_flatMap.mp braced
          obtain ⟨inner, found, inInner⟩ := List.mem_flatMap.mp inPart
          have searched := searchedParts_bounds here there
          have braces := inBraces_of_subSelects found
          have first := braces.lower
          have last := braces.upper
          have order := braces.order
          have within := @ih (inner.2 - inner.1) (by omega) inner.1 inner.2 rfl inInner
          omega

/-! ## What the parser finds -/

/-- What is found in every SELECT that ends where a statement can end. -/
def SubFinds (ts : List SqlToken) (sub : Parsing → Nat → Nat → Option Parsing) : Prop :=
  ∀ s s' b e, tokenId ts b = some .sqlSelect → b < e → Ends ts e → sub s b e = some s' →
    s'.querylist = s.querylist ++ queries ts (b, e)

section

variable {sub : Parsing → Nat → Nat → Option Parsing} {s s' : Parsing}

/-- SELECTs in braces, one after the other. -/
theorem finds_parseAll (finds : SubFinds ts sub) {ranges : List (Nat × Nat)} {start stop : Nat}
    (braces : ∀ range ∈ ranges, InBraces ts start stop range)
    (done : parseAll sub s ranges = some s') :
    s'.querylist = s.querylist ++ ranges.flatMap (queries ts) := by
  induction ranges generalizing s with
  | nil =>
    obtain rfl := Option.some.inj done
    exact (List.append_nil _).symm
  | cons range ranges ih =>
    obtain ⟨here, others⟩ := List.forall_mem_cons.mp braces
    obtain ⟨middle, first, rest⟩ := Option.bind_eq_some_iff.mp done
    have found := finds s middle range.1 range.2 here.select here.order
      (Or.inr (Or.inl here.closed))
      first
    rw [ih others rest, found, List.flatMap_cons, List.append_assoc]

/-- The SELECTs in braces of a range. -/
theorem finds_handleSubQuery (finds : SubFinds ts sub) {start stop : Nat}
    (inside : stop ≤ ts.length)
    (done : handleSubQuery ts sub s start stop = some s') :
    s'.querylist = s.querylist ++ (subSelects ts start stop).flatMap (queries ts) := by
  rw [handleSubQuery_eq s inside] at done
  exact finds_parseAll finds (fun range member => inBraces_of_subSelects member) done

/-- The end of a statement is no part of the next one. -/
theorem lt_of_select {tend place : Nat} (ends : Ends ts tend) (order : place ≤ tend)
    {id : SqlTokenId}
    (there : tokenId ts place = some id) (notBrace : id ≠ .cbrace)
    (notSemicolon : id ≠ .semicolon) :
    place < tend := by
  have inside := lt_of_tokenId there
  by_contra last
  obtain rfl : place = tend := by omega
  obtain ⟨id', atEnd, kind⟩ := ends.token (by omega)
  rw [there, Option.some.injEq] at atEnd
  subst atEnd
  rcases kind with brace | semicolon
  · exact notBrace brace
  · exact notSemicolon semicolon

/-- The SELECT behind a UNION. -/
theorem finds_parseUnion (finds : SubFinds ts sub) {b e u : Nat} (ends : Ends ts e)
    (union : firstOf ts [.sqlUnion] b e = some u) (done : parseUnion ts sub s u e = some s') :
    s'.querylist = s.querylist ++ (nextArm ts b e).elim [] fun next => queries ts (next, e) := by
  obtain ⟨lower, upper, _⟩ := firstOf_spec union
  obtain ⟨id, after, done⟩ := Option.bind_eq_some_iff.mp done
  dsimp only at done
  have same : (if id = SqlTokenId.sqlAll then u + 2 else u + 1) =
      if tokenId ts (u + 1) = some .sqlAll then u + 2 else u + 1 := by
    rw [after]
    simp only [Option.some.injEq]
  rw [nextArm, union, Option.bind_some]
  dsimp only
  rw [same] at done
  obtain ⟨id', there, done⟩ := Option.bind_eq_some_iff.mp done
  rw [there]
  by_cases select : id' = .sqlSelect
  · subst select
    rw [if_pos rfl] at done
    rw [if_pos rfl, Option.elim_some]
    refine finds s s' _ e there ?_ ends done
    -- Neither the ALL nor the SELECT is the end of the statement.
    by_cases all : tokenId ts (u + 1) = some .sqlAll
    · rw [if_pos all] at there ⊢
      have first := lt_of_select ends upper all (by decide) (by decide)
      exact lt_of_select ends first there (by decide) (by decide)
    · rw [if_neg all] at there ⊢
      exact lt_of_select ends upper there (by decide) (by decide)
  · rw [if_neg select] at done
    rw [if_neg (by simpa using select), Option.elim_none, List.append_nil]
    obtain rfl := Option.some.inj done
    rfl

/-- A SELECT, with all that is within it. -/
theorem finds_parseSelect (finds : SubFinds ts sub) {tbegin tend : Nat} (ends : Ends ts tend)
    (done : parseSelect ts sub s tbegin tend = some s') :
    s'.querylist = s.querylist ++ queries ts (tbegin, tend) := by
  have inside := ends.le
  rw [queries_eq, selectQuery]
  cases from' : firstOf ts [.sqlFrom] tbegin tend with
  | none =>
    rw [parseSelect, getSqlFrom_none inside from'] at done
    obtain rfl := Option.some.inj done
    exact (List.append_nil _).symm
  | some f =>
    have upperFrom := (firstOf_spec from').2.1
    have upperEnd := (@firstOf_getD ts fromEndIds (f + 1) tend upperFrom).2
    have queryEnd := (@firstOf_getD ts [.sqlUnion] tbegin tend (by
      have := (firstOf_spec from').1
      omega)).2
    obtain ⟨s₁, condition, same⟩ := @getSqlWhere_eq ts s
      ((firstOf ts fromEndIds (f + 1) tend).getD tend)
        ((firstOf ts [.sqlUnion] tbegin tend).getD tend)
      (by omega)
    have whereEnd := (@whereRange_bounds ts ((firstOf ts fromEndIds (f + 1) tend).getD tend)
      ((firstOf ts [.sqlUnion] tbegin tend).getD tend)).2
    rw [Option.map_some, Option.elim_some]
    rw [parseSelect, getSqlFrom_some inside from',
      findToken_eq (by decide : NoBrace [.sqlUnion]) inside] at done
    generalize (firstOf ts fromEndIds (f + 1) tend).getD tend = fromend at *
    -- What is in braces: in the list, in the tables, and in the condition.
    have braced : ∀ {r r' : Parsing} {wherestart whereend : Nat}, whereend ≤ ts.length →
        ((handleSubQuery ts sub r tbegin (f + 1)).bind fun s =>
          (handleSubQuery ts sub s (f + 1) fromend).bind fun s =>
            handleSubQuery ts sub s wherestart whereend) = some r' →
        r'.querylist = r.querylist ++ ((subSelects ts tbegin (f + 1)).flatMap (queries ts) ++
          ((subSelects ts (f + 1) fromend).flatMap (queries ts) ++
            (subSelects ts wherestart whereend).flatMap (queries ts))) := by
      intro r r' wherestart whereend within done
      obtain ⟨r₁, inList, done⟩ := Option.bind_eq_some_iff.mp done
      obtain ⟨r₂, inTables, inWhere⟩ := Option.bind_eq_some_iff.mp done
      rw [finds_handleSubQuery finds within inWhere,
        finds_handleSubQuery finds (by omega) inTables,
        finds_handleSubQuery finds (by omega) inList]
      simp only [List.append_assoc]
    cases union : firstOf ts [.sqlUnion] tbegin tend with
    | none =>
      rw [union] at done condition whereEnd
      have noArm : nextArm ts tbegin tend = none := by
        rw [nextArm, union]
        rfl
      simp only [Option.bind_eq_bind, Option.bind_some, Bool.true_eq_false,
        Bool.false_eq_true, if_false,
        Option.getD_none] at done condition whereEnd
      rw [condition, Option.bind_some] at done
      have all := braced (Nat.le_trans whereEnd inside) done
      rw [Parsing.pushQuery, same] at all
      rw [all, noArm]
      simp [searchedParts]
    | some u =>
      rw [union] at done condition whereEnd
      simp only [Option.bind_eq_bind, Option.bind_some, Bool.true_eq_false, if_false, if_true,
        Option.getD_some] at done condition whereEnd
      rw [condition, Option.bind_some] at done
      obtain ⟨r, behind, done⟩ := Option.bind_eq_some_iff.mp done
      have within : u ≤ ts.length := Nat.le_of_lt (firstOf_spec union).2.2.1
      have all := braced (Nat.le_trans whereEnd within) done
      rw [finds_parseUnion finds ends union behind, Parsing.pushQuery, same] at all
      rw [all]
      simp [searchedParts]

end

/-- However deep the SELECTs lie. -/
theorem finds_parseSubQuery (fuel : Nat) : SubFinds ts (parseSubQuery ts fuel) := by
  induction fuel with
  | zero => exact fun s s' b e _ _ _ done => by cases done
  | succ fuel ih =>
    intro s s' b e select order ends done
    obtain ⟨start, skipped, run⟩ := Option.bind_eq_some_iff.mp done
    obtain rfl := skipExtern_select select skipped
    rw [if_neg (Nat.ne_of_lt order), select] at run
    exact finds_parseSelect ih ends run

end OneProxy.Sql
