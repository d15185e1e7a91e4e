import OneProxy.Lib.Recursion
import OneProxy.Sql.LeastToken
import OneProxy.Sql.TableLists

/-! Every loop and every recursion of the parser ends. -/

namespace OneProxy.Sql

open Recursion

variable (ts : List SqlToken)

/-! ## One step of each loop -/

/-- One turn of the inner loop of `parseTableNameAndAlias`. -/
def joinedTablesStep (query : SQLQuery) (stop : Nat)
    (again : Parsing × Nat × Bool → Option (Bool × Parsing)) :
    Parsing × Nat × Bool → Option (Bool × Parsing) := fun (s, table0End, firstJoin) => do
  let (found, table1Start) ← findTokens ts table0End stop joinKw
  if found = false then
    let id ← tokenBefore ts table0End
    if id = .comma ∧ table1Start - table0End < 5 then
      let (_, s) ← parseSimpleTableNameAndAlias ts s query table0End table1Start
      some (!firstJoin, s)
    else some (!firstJoin, s)
  else
    let id ← tokenId ts table1Start
    if id = .comma then
      if table1Start - table0End < 5 then
        let (_, s) ← parseSimpleTableNameAndAlias ts s query table0End table1Start
        again (s, table1Start + 1, false)
      else again (s, table1Start + 1, false)
    else
      let table1Start := table1Start + 1
      let (found, table1End) ← findTokens ts table1Start stop condKw
      if table1End - table1Start > 5 then again (s, table1End + 1, false)
      else
        let (_, s) ← parseSimpleTableNameAndAlias ts s query table1Start table1End
        if found then again (s, table1End + 1, false) else some (true, s)

/-- One turn of the outer loop of `parseTableNameAndAlias`. -/
def firstTableStep (query : SQLQuery) (stop : Nat)
    (again : Parsing × Nat → Option (Bool × Parsing)) :
    Parsing × Nat → Option (Bool × Parsing) := fun (s, i) =>
  if i < stop then do
    let (found, table0End) ← findTokens ts i stop firstKeyIds
    if found then
      let id ← tokenId ts table0End
      if table0End - i > 5 then again (s, if id = .comma then table0End + 1 else table0End)
      else
        let (_, s) ← parseSimpleTableNameAndAlias ts s query i table0End
        parseJoinedTables ts query stop (stop + 2 - table0End) s table0End true
    else parseSimpleTableNameAndAlias ts s query i table0End
  else some (true, s)

/--
One turn of the inner loop of `handleSubQuery`, on the braces from `start_brace` to before
`end_brace + 1`.
-/
def peelStep (sub : Parsing → Nat → Nat → Option Parsing)
    (again : Parsing × Nat × Nat → Option Parsing) :
    Parsing × Nat × Nat → Option Parsing
  | (s, startBrace, 0) => do
    let id ← tokenId ts startBrace
    if id = .obrace then none else some s
  | (s, startBrace, endBrace + 1) => do
    let id ← tokenId ts startBrace
    if id = .obrace then
      let id ← tokenId ts endBrace
      if id = .cbrace then
        let id ← tokenId ts (startBrace + 1)
        if id = .sqlSelect then
          let s ← sub s (startBrace + 1) endBrace
          again (s, startBrace + 1, endBrace)
        else again (s, startBrace + 1, endBrace)
      else some s
    else some s

/-- One turn of the loop over the statements that follow a BEGIN. -/
def statementsStep (sub : Parsing → Nat → Nat → Option Parsing) (tbegin tend : Nat)
    (again : Parsing × Nat × Nat → Option Parsing) : Parsing × Nat × Nat → Option Parsing :=
  fun (s, fromstart, fromend) =>
    if fromend < tend then do
      let fromend ← findSemicolon ts (tend - fromend) fromend
      let s ← if fromstart > tbegin then sub s fromstart fromend else some s
      if fromend < tend then again (s, fromend + 1, fromend + 1) else again (s, fromstart, fromend)
    else some s

/-- One turn of the loop of a CREATE over `IF NOT EXISTS`. -/
def ifNotExistsStep (again : Nat → Option Nat) : Nat → Option Nat := fun i => do
  let id ← tokenId ts i
  if id = .sqlIf ∨ id = .sqlNot ∨ id = .sqlExists then again (i + 1) else some i

/-- One call of `parseSubQuery`. -/
def subQueryStep (again : Parsing × Nat × Nat → Option Parsing) :
    Parsing × Nat × Nat → Option Parsing := fun (s, tbegin, tend) => do
  let tkstart ← skipExternTokensInHeader ts tbegin tend
  if tkstart = tend then some s
  else
    let tokenid ← tokenId ts tkstart
    parseStatement ts (fun s b e => again (s, b, e)) tokenid s tkstart tend

/-! ## The functions are these steps, taken again and again -/

variable {ts} {sub sub' : Parsing → Nat → Nat → Option Parsing}

theorem parseJoinedTables_eq (query : SQLQuery) (stop fuel : Nat) : ∀ s table0End firstJoin,
    parseJoinedTables ts query stop fuel s table0End firstJoin =
      bounded (joinedTablesStep ts query stop) (fun _ => none) fuel (s, table0End, firstJoin) := by
  induction fuel with
  | zero => exact fun s table0End firstJoin => rfl
  | succ fuel ih =>
    intro s table0End firstJoin
    simp only [parseJoinedTables, ih]
    rfl

theorem parseFirstTable_eq (query : SQLQuery) (stop fuel : Nat) : ∀ s i,
    parseFirstTable ts query stop fuel s i =
      bounded (firstTableStep ts query stop) (fun _ => none) fuel (s, i) := by
  induction fuel with
  | zero => exact fun s i => rfl
  | succ fuel ih =>
    intro s i
    simp only [parseFirstTable, ih]
    rfl

theorem peelBraces_bounded (behind : Nat) : ∀ s startBrace,
    peelBraces ts sub s startBrace behind =
      bounded (peelStep ts sub) (fun _ => none) (behind + 1) (s, startBrace, behind) := by
  induction behind with
  | zero => exact fun s startBrace => rfl
  | succ endBrace ih =>
    intro s startBrace
    simp only [peelBraces, ih]
    rfl

theorem parseStatements_eq (tbegin tend fuel : Nat) : ∀ s fromstart fromend,
    parseStatements ts sub tbegin tend fuel s fromstart fromend =
      bounded (statementsStep ts sub tbegin tend) (fun _ => none) fuel (s, fromstart, fromend) := by
  induction fuel with
  | zero => exact fun s fromstart fromend => rfl
  | succ fuel ih =>
    intro s fromstart fromend
    simp only [parseStatements, ih]
    rfl

theorem skipIfNotExists_eq (fuel : Nat) : ∀ i,
    skipIfNotExists ts fuel i = bounded (ifNotExistsStep ts) (fun _ => none) fuel i := by
  induction fuel with
  | zero => exact fun i => rfl
  | succ fuel ih =>
    intro i
    simp only [skipIfNotExists, ih]
    rfl

theorem parseSubQuery_eq (fuel : Nat) : ∀ s tbegin tend, parseSubQuery ts fuel s tbegin tend =
    bounded (subQueryStep ts) (fun _ => none) fuel (s, tbegin, tend) := by
  induction fuel with
  | zero => exact fun s tbegin tend => rfl
  | succ fuel ih =>
    intro s tbegin tend
    have below : parseSubQuery ts fuel = fun s b e =>
        bounded (subQueryStep ts) (fun _ => none) fuel (s, b, e) :=
      funext fun s => funext fun b => funext fun e => ih s b e
    rw [parseSubQuery, below]
    rfl

/-! ## Where the searches end -/

theorem findTokensFrom_true {tokIds : List SqlTokenId} {count : Nat} : ∀ {i j : Nat} {c : Int},
    findTokensFrom ts tokIds count i c = some (true, j) → j < i + count := by
  induction count with
  | zero =>
    intro i j c done
    cases done
  | succ count ih =>
    intro i j c done
    obtain ⟨id, _, done⟩ := Option.bind_eq_some_iff.mp done
    have later : ∀ c, findTokensFrom ts tokIds count (i + 1) c = some (true, j) →
        j < i + (count + 1) := by
      intro c done
      have bound := ih done
      omega
    split_ifs at done
    · exact later _ done
    · exact later _ done
    · cases done
      omega
    · exact later _ done

/-- What a search finds lies within its range. -/
theorem findTokens_found {tokIds : List SqlTokenId} {start stop i : Nat}
    (done : findTokens ts start stop tokIds = some (true, i)) : start ≤ i ∧ i < stop := by
  have lower : start ≤ i := findTokens_le done
  have upper : i < start + (stop - start) := findTokensFrom_true done
  omega

theorem findTokenFrom_bounds {tokId : SqlTokenId} {count : Nat} : ∀ {i j : Nat} {c : Int},
    findTokenFrom ts tokId count i c = some j → i ≤ j ∧ j ≤ i + count := by
  induction count with
  | zero =>
    intro i j c done
    cases done
    exact ⟨Nat.le_refl _, Nat.le_refl _⟩
  | succ count ih =>
    intro i j c done
    obtain ⟨id, _, done⟩ := Option.bind_eq_some_iff.mp done
    have later : ∀ c, findTokenFrom ts tokId count (i + 1) c = some j →
        i ≤ j ∧ j ≤ i + (count + 1) := by
      intro c done
      have bound := ih done
      omega
    split_ifs at done
    · exact later _ done
    · exact later _ done
    · exact later _ done
    · cases done
      omega

/-- A search for one kind of token ends within its range exactly if it finds one. -/
theorem findToken_bounds {tokId : SqlTokenId} {start stop i : Nat} {found : Bool}
    (done : findToken ts start stop tokId = some (found, i)) :
    start ≤ i ∧ i ≤ max start stop ∧ (found = true ↔ i < stop) := by
  obtain ⟨j, searched, done⟩ := Option.bind_eq_some_iff.mp done
  cases done
  have bounds := findTokenFrom_bounds searched
  exact ⟨bounds.1, by omega, decide_eq_true_iff⟩

theorem findSemicolon_bounds {count : Nat} : ∀ {i j : Nat},
    findSemicolon ts count i = some j → i ≤ j ∧ j ≤ i + count := by
  induction count with
  | zero =>
    intro i j done
    cases done
    exact ⟨Nat.le_refl _, Nat.le_refl _⟩
  | succ count ih =>
    intro i j done
    obtain ⟨id, _, done⟩ := Option.bind_eq_some_iff.mp done
    split_ifs at done
    · cases done
      omega
    · have bound := ih done
      omega

theorem insertTableEnd_bounds {count : Nat} : ∀ {i j : Nat},
    insertTableEnd ts count i = some j → i ≤ j ∧ j ≤ i + count := by
  induction count with
  | zero =>
    intro i j done
    cases done
    exact ⟨Nat.le_refl _, Nat.le_refl _⟩
  | succ count ih =>
    intro i j done
    obtain ⟨id, _, done⟩ := Option.bind_eq_some_iff.mp done
    split_ifs at done
    · cases done
      omega
    · have bound := ih done
      omega

theorem skipSomeHeaderTokens_bounds {tokId : SqlTokenId} {count : Nat} : ∀ {i j : Nat},
    skipSomeHeaderTokens ts tokId count i = some j → i ≤ j := by
  induction count with
  | zero =>
    intro i j done
    cases done
    exact Nat.le_refl _
  | succ count ih =>
    intro i j done
    obtain ⟨id, _, done⟩ := Option.bind_eq_some_iff.mp done
    split_ifs at done
    · exact Nat.le_of_succ_le (ih done)
    · cases done
      exact Nat.le_refl _

/-! ## Every loop gets on -/

theorem joinedTablesStep_descends (query : SQLQuery) (stop : Nat) :
    Descends (joinedTablesStep ts query stop) fun a => stop + 1 - a.2.1 := by
  rintro f g ⟨s, table0End, firstJoin⟩ agree
  refine Option.bind_congr fun key search => ?_
  obtain ⟨found, table1Start⟩ := key
  cases found with
  | false => rfl
  | true =>
    obtain ⟨lower, upper⟩ := findTokens_found search
    -- The loop goes on behind what was found.
    have later : ∀ r place first, table0End < place → f (r, place, first) = g (r, place, first) :=
      fun r place first behind => agree _ (show stop + 1 - place < stop + 1 - table0End by omega)
    simp only [Bool.true_eq_false, if_false]
    refine Option.bind_congr fun id _ => ?_
    split_ifs
    · exact Option.bind_congr fun r _ => later _ _ _ (by omega)
    · exact later _ _ _ (by omega)
    · refine Option.bind_congr fun ended searchEnd => ?_
      have behind : table1Start + 1 ≤ ended.2 := findTokens_le searchEnd
      split_ifs
      · exact later _ _ _ (by omega)
      · exact Option.bind_congr fun r _ => later _ _ _ (by omega)
      · rfl

theorem firstTableStep_descends (query : SQLQuery) (stop : Nat) :
    Descends (firstTableStep ts query stop) fun a => stop - a.2 := by
  rintro f g ⟨s, i⟩ agree
  simp only [firstTableStep]
  split_ifs with inside
  · refine Option.bind_congr fun key search => ?_
    obtain ⟨found, table0End⟩ := key
    dsimp only
    split_ifs with _ long
    · refine Option.bind_congr fun id _ => ?_
      split_ifs
      · exact agree _ (show stop - (table0End + 1) < stop - i by omega)
      · exact agree _ (show stop - table0End < stop - i by omega)
    · rfl
    · rfl
  · rfl

theorem peelStep_descends : Descends (peelStep ts sub) fun a => a.2.2 := by
  rintro f g ⟨s, startBrace, behind⟩ agree
  cases behind with
  | zero => rfl
  | succ endBrace =>
    have inner : ∀ r, f (r, startBrace + 1, endBrace) = g (r, startBrace + 1, endBrace) :=
      fun r => agree _ (Nat.lt_succ_self _)
    simp only [peelStep, inner]

theorem statementsStep_descends (tbegin tend : Nat) :
    Descends (statementsStep ts sub tbegin tend) fun a => tend - a.2.2 := by
  rintro f g ⟨s, fromstart, fromend⟩ agree
  -- The loop goes on behind the semicolon, or at the end of the range.
  have rest : fromend < tend → ∀ place, findSemicolon ts (tend - fromend) fromend = some place →
      ∀ r, (if place < tend then f (r, place + 1, place + 1) else f (r, fromstart, place)) =
        if place < tend then g (r, place + 1, place + 1) else g (r, fromstart, place) := by
    intro more place search r
    obtain ⟨lower, upper⟩ := findSemicolon_bounds search
    split_ifs
    · exact agree _ (show tend - (place + 1) < tend - fromend by omega)
    · exact agree _ (show tend - place < tend - fromend by omega)
  simp only [statementsStep]
  split_ifs with more
  · exact Option.bind_congr fun place search => Option.bind_congr fun r _ =>
      rest more place search r
  · exact Option.bind_congr fun place search => rest more place search s
  · rfl

theorem ifNotExistsStep_descends : Descends (ifNotExistsStep ts) fun i => ts.length - i := by
  intro f g i agree
  refine Option.bind_congr fun id there => ?_
  have inside := lt_of_tokenId there
  split_ifs
  · exact agree _ (show ts.length - (i + 1) < ts.length - i by omega)
  · rfl

/-! ## Statements within a statement lie behind its first token -/

/-- Both give the same for every range behind a place that ends within another. -/
def AgreeWithin (sub sub' : Parsing → Nat → Nat → Option Parsing) (tbegin tend : Nat) : Prop :=
  ∀ s b e, tbegin < b → e ≤ tend → sub s b e = sub' s b e

theorem AgreeWithin.mono {tbegin tend tbegin' tend' : Nat}
    (agree : AgreeWithin sub sub' tbegin tend)
    (lower : tbegin ≤ tbegin') (upper : tend' ≤ tend) : AgreeWithin sub sub' tbegin' tend' :=
  fun s b e first last => agree s b e (by omega) (by omega)

theorem peelBraces_congr {substart subend : Nat} (agree : AgreeWithin sub sub' substart subend)
    (behind : Nat) : ∀ s startBrace, substart ≤ startBrace → behind ≤ subend →
      peelBraces ts sub s startBrace behind = peelBraces ts sub' s startBrace behind := by
  induction behind with
  | zero => exact fun s startBrace _ _ => rfl
  | succ endBrace ih =>
    intro s startBrace lower upper
    have inner : ∀ r, peelBraces ts sub r (startBrace + 1) endBrace =
        peelBraces ts sub' r (startBrace + 1) endBrace :=
      fun r => ih r _ (by omega) (by omega)
    have here := agree s (startBrace + 1) endBrace (by omega) (by omega)
    simp only [peelBraces, inner, here]

/-- The braces that are peeled were opened in the range. -/
theorem handleSubQueryFrom_congr {substart subend : Nat}
    (agree : AgreeWithin sub sub' substart subend) (count : Nat) : ∀ i startBrace braceCount s,
      substart ≤ i → i + count ≤ subend → (0 < braceCount → substart ≤ startBrace) →
        handleSubQueryFrom ts sub count i startBrace braceCount s =
          handleSubQueryFrom ts sub' count i startBrace braceCount s := by
  induction count with
  | zero => exact fun i startBrace braceCount s _ _ _ => rfl
  | succ count ih =>
    intro i startBrace braceCount s lower upper opened
    refine Option.bind_congr fun id _ => ?_
    split_ifs with _ _ _ closed
    · exact ih _ _ _ _ (by omega) (by omega) fun _ => lower
    · exact ih _ _ _ _ (by omega) (by omega) fun more => opened (by omega)
    · rw [peelBraces_congr agree _ s startBrace (opened (by omega)) (by omega)]
      exact Option.bind_congr fun r _ => ih _ _ _ _ (by omega) (by omega) fun more => by omega
    · exact ih _ _ _ _ (by omega) (by omega) fun more => opened (by omega)
    · exact ih _ _ _ _ (by omega) (by omega) opened

theorem handleSubQuery_congr {s : Parsing} {tbegin tend substart subend : Nat}
    (agree : AgreeWithin sub sub' tbegin tend) (lower : tbegin ≤ substart) (upper : subend ≤ tend) :
    handleSubQuery ts sub s substart subend = handleSubQuery ts sub' s substart subend := by
  by_cases order : substart ≤ subend
  · exact handleSubQueryFrom_congr (agree.mono lower upper) _ _ _ _ _ (Nat.le_refl _) (by omega)
      fun more => absurd more (by decide)
  · have empty : subend - substart = 0 := by omega
    rw [handleSubQuery, handleSubQuery, empty]
    rfl

section

variable {s : Parsing} {tbegin tend : Nat} (agree : tbegin < tend →
      AgreeWithin sub sub' tbegin tend)

theorem parseUnion_congr {unionPos : Nat} (within : AgreeWithin sub sub' tbegin tend)
    (lower : tbegin ≤ unionPos) :
    parseUnion ts sub s unionPos tend = parseUnion ts sub' s unionPos tend := by
  refine Option.bind_congr fun id _ => Option.bind_congr fun id' _ => ?_
  have next : tbegin < if id = .sqlAll then unionPos + 2 else unionPos + 1 := by split_ifs <;> omega
  rw [within s _ tend next (Nat.le_refl _)]

/-- A condition begins behind the place where its search began, and ends within the range. -/
theorem getSqlWhere_bounds {start stop wherestart whereend : Nat} {r : Parsing}
    (done : getSqlWhere ts s start stop = some (r, wherestart, whereend)) :
    start ≤ wherestart ∧ whereend ≤ stop := by
  obtain ⟨⟨found, i⟩, search, done⟩ := Option.bind_eq_some_iff.mp done
  obtain ⟨lower, _, within⟩ := findToken_bounds search
  cases found with
  | false =>
    simp only [if_true, Option.some.injEq, Prod.mk.injEq] at done
    omega
  | true =>
    have inside := within.mp rfl
    obtain ⟨⟨ended, last⟩, searchEnd, done⟩ := Option.bind_eq_some_iff.mp done
    have bounds := findTokens_bounds searchEnd
    have places : i + 1 = wherestart ∧ last = whereend := by
      cases ended with
      | false =>
        simp only [Bool.false_eq_true, if_false, Option.some.injEq, Prod.mk.injEq] at done
        exact done.2
      | true =>
        simp only [if_true] at done
        obtain ⟨id, _, done⟩ := Option.bind_eq_some_iff.mp done
        simp only [Option.some.injEq, Prod.mk.injEq] at done
        exact done.2
    omega

/-- A list of tables begins behind the place where its search began, and ends within the range. -/
theorem getSqlFrom_within {start stop fromstart fromend : Nat}
    (done : getSqlFrom ts start stop = some (true, fromstart, fromend)) :
    start < fromstart ∧ fromstart ≤ fromend ∧ fromend ≤ stop := by
  obtain ⟨⟨found, i⟩, search, done⟩ := Option.bind_eq_some_iff.mp done
  obtain ⟨lower, _, within⟩ := findToken_bounds search
  cases found with
  | false =>
    simp only [if_true, Option.some.injEq, Prod.mk.injEq, Bool.false_eq_true, false_and] at done
  | true =>
    have inside := within.mp rfl
    obtain ⟨⟨ended, last⟩, searchEnd, done⟩ := Option.bind_eq_some_iff.mp done
    have bounds := findTokens_bounds searchEnd
    simp only [Option.some.injEq, Prod.mk.injEq, true_and] at done
    omega

include agree in
theorem parseSelect_congr : parseSelect ts sub s tbegin tend =
      parseSelect ts sub' s tbegin tend := by
  refine Option.bind_congr fun from_ search => ?_
  obtain ⟨found, fromstart, fromend⟩ := from_
  cases found with
  | false => simp only [if_true]
  | true =>
    have place := getSqlFrom_within search
    have within := agree (by omega)
    simp only [Bool.true_eq_false, if_false]
    refine Option.bind_congr fun union searchUnion => ?_
    obtain ⟨isUnion, unionPos⟩ := union
    obtain ⟨lower, upper, _⟩ := findToken_bounds searchUnion
    refine Option.bind_congr fun where_ condition => ?_
    obtain ⟨r, wherestart, whereend⟩ := where_
    have bounds := getSqlWhere_bounds condition
    have last : (if isUnion = true then unionPos else tend) ≤ tend := by
      split_ifs <;> omega
    have condEnd : whereend ≤ tend := Nat.le_trans bounds.2 last
    -- The columns, the tables and the condition lie behind the SELECT, and so does what follows a
    -- UNION.
    have parts : ∀ r, ((handleSubQuery ts sub r tbegin fromstart).bind fun s =>
          (handleSubQuery ts sub s fromstart fromend).bind fun s =>
            handleSubQuery ts sub s wherestart whereend) =
        (handleSubQuery ts sub' r tbegin fromstart).bind fun s =>
          (handleSubQuery ts sub' s fromstart fromend).bind fun s =>
            handleSubQuery ts sub' s wherestart whereend := by
      intro r
      rw [handleSubQuery_congr within (Nat.le_refl _) (by omega)]
      refine Option.bind_congr fun r _ => ?_
      rw [handleSubQuery_congr within (by omega) (by omega)]
      exact Option.bind_congr fun r _ => handleSubQuery_congr within (by omega) (by omega)
    dsimp only at bounds ⊢
    split_ifs
    · rw [parseUnion_congr within lower]
      exact Option.bind_congr fun r _ => parts r
    · exact parts _

omit agree in
/-- The literal in front of the SET of an UPDATE is outside of braces, so one is found. -/
theorem found_literal {setPos i : Nat} {found : Bool}
    (search : findToken ts tbegin tend .sqlSet = some (true, setPos))
    (before : tokenBefore ts setPos = some .literal) (begins : tokenId ts tbegin = some .sqlUpdate)
    (name : findToken ts tbegin setPos .literal = some (found, i)) : found = true := by
  obtain ⟨lower, _, kind, balanced⟩ := ((findToken_iff (by decide) _ _ _).mp search).1
  have later : tbegin ≠ setPos := by
    rintro rfl
    rw [begins] at kind
    cases kind
  obtain ⟨place, rfl⟩ : ∃ place, setPos = place + 1 := ⟨setPos - 1, by omega⟩
  obtain ⟨t, there, id⟩ := tokenId_lt (lt_of_tokenId before)
  have literal : t.tokenId = .literal := Option.some.inj (id.symm.trans before)
  have empty : window ts (place + 1) (place + 1) = [] := by
    rw [window, Nat.sub_self, List.take_zero]
  rw [window_split (show tbegin ≤ place by omega) (Nat.le_succ place),
    window_cons there (Nat.lt_succ_self place), empty, List.countP_append, List.countP_append,
    List.countP_singleton, List.countP_singleton, literal] at balanced
  have hit : TokenAt ts .literal tbegin (place + 1) place :=
    ⟨by omega, Nat.lt_succ_self place, before, balanced⟩
  obtain ⟨j, done⟩ := findToken_exists (by decide) hit
  rw [name] at done
  exact congrArg Prod.fst (Option.some.inj done)

include agree in
theorem parseUpdate_congr (begins : tokenId ts tbegin = some .sqlUpdate) :
    parseUpdate ts sub s tbegin tend = parseUpdate ts sub' s tbegin tend := by
  refine Option.bind_congr fun set search => ?_
  obtain ⟨found, setPos⟩ := set
  cases found with
  | false => simp only [if_true]
  | true =>
    obtain ⟨lower, _, inside⟩ := findToken_bounds search
    have upper := inside.mp rfl
    have within := agree (by omega)
    simp only [Bool.true_eq_false, if_false]
    refine Option.bind_congr fun id before => ?_
    split_ifs with other
    · rfl
    · refine Option.bind_congr fun name searchName => ?_
      obtain ⟨named, place⟩ := name
      obtain ⟨lowerName, _⟩ := findToken_bounds searchName
      have found := found_literal search (by rw [before, not_not.mp other]) begins searchName
      refine Option.bind_congr fun where_ searchWhere => ?_
      obtain ⟨conditional, wherestart⟩ := where_
      have bounds := findToken_bounds searchWhere
      have start : tbegin ≤ if named = true then place else 2 := by
        rw [if_pos found]
        exact lowerName
      dsimp only
      rw [handleSubQuery_congr within start (by omega)]
      exact Option.bind_congr fun r _ => handleSubQuery_congr within (by omega) (Nat.le_refl _)

include agree in
theorem parseDelete_congr : parseDelete ts sub s tbegin tend =
      parseDelete ts sub' s tbegin tend := by
  refine Option.bind_congr fun from_ search => ?_
  obtain ⟨found, fromPos⟩ := from_
  obtain ⟨lower, _, _⟩ := findToken_bounds search
  dsimp only
  split_ifs with here
  · have within := agree (by omega)
    refine Option.bind_congr fun where_ searchWhere => ?_
    obtain ⟨conditional, wherestart⟩ := where_
    have bounds := findToken_bounds searchWhere
    dsimp only
    rw [handleSubQuery_congr within (by omega) (by omega)]
    exact Option.bind_congr fun r _ => handleSubQuery_congr within (by omega) (Nat.le_refl _)
  · rfl

include agree in
theorem parseInsert_congr : parseInsert ts sub s tbegin tend =
      parseInsert ts sub' s tbegin tend := by
  refine Option.bind_congr fun into search => ?_
  obtain ⟨found, place⟩ := into
  obtain ⟨lower, _, _⟩ := findToken_bounds search
  dsimp only
  split_ifs with here
  · have within := agree (by omega)
    refine Option.bind_congr fun fromend table => Option.bind_congr fun values _ => ?_
    have behind := (insertTableEnd_bounds table).1
    -- A SELECT is looked for behind the table.
    have select : ∀ s : Parsing, ((findToken ts fromend tend .sqlSelect).bind fun r =>
          if r.1 = true then sub { s with isInsertSelect := true } r.2 tend else some s) =
        (findToken ts fromend tend .sqlSelect).bind fun r =>
          if r.1 = true then sub' { s with isInsertSelect := true } r.2 tend else some s := by
      intro s
      refine Option.bind_congr fun r searchSelect => ?_
      have lowerSelect := (findToken_bounds searchSelect).1
      rw [within _ r.2 tend (by omega) (Nat.le_refl _)]
    have selects : ∀ (s : Parsing) (selects : Bool), (if selects = true then
          (findToken ts fromend tend .sqlSelect).bind fun r =>
            if r.1 = true then sub { s with isInsertSelect := true } r.2 tend else some s
          else some s) =
        if selects = true then
          (findToken ts fromend tend .sqlSelect).bind fun r =>
            if r.1 = true then sub' { s with isInsertSelect := true } r.2 tend else some s
          else some s := by
      intro s selects
      rw [select]
    split_ifs
    · exact selects _ true
    · exact Option.bind_congr fun known _ => selects _ known
  · rfl

include agree in
theorem parseStatements_congr (fuel : Nat) : ∀ s fromstart fromend, tbegin ≤ fromend →
    parseStatements ts sub tbegin tend fuel s fromstart fromend =
      parseStatements ts sub' tbegin tend fuel s fromstart fromend := by
  induction fuel with
  | zero => exact fun s fromstart fromend _ => rfl
  | succ fuel ih =>
    intro s fromstart fromend lower
    have rest : ∀ r place, tbegin ≤ place →
        (if place < tend then parseStatements ts sub tbegin tend fuel r (place + 1) (place + 1)
          else parseStatements ts sub tbegin tend fuel r fromstart place) =
        if place < tend then parseStatements ts sub' tbegin tend fuel r (place + 1) (place + 1)
          else parseStatements ts sub' tbegin tend fuel r fromstart place := by
      intro r place behind
      rw [ih _ _ (place + 1) (by omega), ih _ _ place behind]
    simp only [parseStatements]
    split_ifs with more nested
    · refine Option.bind_congr fun place search => ?_
      have bounds := findSemicolon_bounds search
      rw [agree (by omega) s fromstart place nested (by omega)]
      exact Option.bind_congr fun r _ => rest r place (by omega)
    · refine Option.bind_congr fun place search => ?_
      have bounds := findSemicolon_bounds search
      exact rest s place (by omega)
    · rfl

/-- A statement asks only for ranges behind its first token that end within it. -/
theorem parseStatement_congr {id : SqlTokenId} (begins : tokenId ts tbegin = some id)
    (agree : tbegin < tend → AgreeWithin sub sub' tbegin tend) :
    parseStatement ts sub id s tbegin tend = parseStatement ts sub' id s tbegin tend := by
  cases id with
  | sqlSelect => exact parseSelect_congr agree
  | sqlUpdate => exact parseUpdate_congr agree begins
  | sqlDelete => exact parseDelete_congr agree
  | sqlInsert => exact parseInsert_congr agree
  | sqlReplace => exact parseInsert_congr agree
  | sqlBegin => exact parseStatements_congr agree _ _ _ _ (Nat.le_refl _)
  | _ => rfl

end

theorem skipExternTokensInHeader_le {start stop i : Nat}
    (done : skipExternTokensInHeader ts start stop = some i) : start ≤ i := by
  obtain ⟨j, first, last⟩ := Option.bind_eq_some_iff.mp done
  exact Nat.le_trans (skipSomeHeaderTokens_bounds first) (skipSomeHeaderTokens_bounds last)

/-- A call of `parseSubQuery` asks only for shorter ranges than its own. -/
theorem subQueryStep_descends : Descends (subQueryStep ts) fun a => a.2.2 - a.2.1 := by
  rintro f g ⟨s, tbegin, tend⟩ agree
  refine Option.bind_congr fun tkstart header => ?_
  have lower := skipExternTokensInHeader_le header
  split_ifs
  · rfl
  · refine Option.bind_congr fun id begins => parseStatement_congr begins fun more => ?_
    exact fun r b e behind within => agree _ (show e - b < tend - tbegin by omega)

/--
Every loop of the parser and the recursion of `parseSubQuery` end for every range of tokens, and
what they return is what the model computes: nothing that lies below its bounds has a part in it.
-/
theorem parser_returns (ts : List SqlToken) :
    (∀ query stop s table0End firstJoin,
      Returns (joinedTablesStep ts query stop) (s, table0End, firstJoin)
        (parseJoinedTables ts query stop (stop + 1 - table0End + 1) s table0End firstJoin)) ∧
      (∀ query s start stop, Returns (firstTableStep ts query stop) (s, start)
        (parseTableNameAndAlias ts s query start stop)) ∧
      (∀ sub s startBrace behind, Returns (peelStep ts sub) (s, startBrace, behind)
        (peelBraces ts sub s startBrace behind)) ∧
      (∀ sub s tbegin tend, Returns (statementsStep ts sub tbegin tend) (s, tbegin, tbegin)
        (parseBegin ts sub s tbegin tend)) ∧
      (∀ i, Returns (ifNotExistsStep ts) i (skipIfNotExists ts (ts.length + 1) i)) ∧
      (∀ s tbegin tend, Returns (subQueryStep ts) (s, tbegin, tend)
        (parseSubQuery ts (tend - tbegin + 1) s tbegin tend)) := by
  refine ⟨fun query stop s table0End firstJoin => ?_, fun query s start stop => ?_,
    fun sub s startBrace behind => ?_, fun sub s tbegin tend => ?_, fun i => ?_,
    fun s tbegin tend => ?_⟩
  · rw [parseJoinedTables_eq]
    exact (joinedTablesStep_descends query stop).returns _ (Nat.lt_succ_self _)
  · rw [parseTableNameAndAlias, parseFirstTable_eq]
    exact (firstTableStep_descends query stop).returns _ (Nat.lt_succ_self _)
  · rw [peelBraces_bounded]
    exact peelStep_descends.returns _ (Nat.lt_succ_self _)
  · rw [parseBegin, parseStatements_eq]
    exact (statementsStep_descends tbegin tend).returns _
      (show tend - tbegin < tend - tbegin + 2 by omega)
  · rw [skipIfNotExists_eq]
    exact ifNotExistsStep_descends.returns _ (show ts.length - i < ts.length + 1 by omega)
  · rw [parseSubQuery_eq]
    exact subQueryStep_descends.returns _ (Nat.lt_succ_self _)

end OneProxy.Sql
