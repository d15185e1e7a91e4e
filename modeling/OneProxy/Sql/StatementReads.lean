import OneProxy.Sql.Overrun

/-! Which statements of each kind make the parser read a token that is not there. -/

namespace OneProxy.Sql

open TopLevel

variable {ts : List SqlToken} {sub : Parsing → Nat → Nat → Option Parsing} {s : Parsing}
    {tbegin : Nat}

/-- `getSqlFrom`, when there is a FROM outside of braces. -/
theorem getSqlFrom_some {start stop f : Nat} (inside : stop ≤ ts.length)
    (found : firstOf ts [.sqlFrom] start stop = some f) :
    getSqlFrom ts start stop =
      some (true, f + 1, (firstOf ts fromEndIds (f + 1) stop).getD stop) := by
  have upper := (firstOf_spec found).2.1
  have last : max (f + 1) stop = stop := by omega
  have search := @findToken_eq _ _ (by decide : NoBrace [.sqlFrom]) start _ inside
  have searchEnd := @findTokens_eq _ _ (by decide : NoBrace fromEndIds) (f + 1) _ inside
  rw [found] at search
  rw [last] at searchEnd
  simp only [getSqlFrom, search, searchEnd, Option.bind_eq_bind, Option.bind_some,
    Bool.true_eq_false,
    if_false]
  cases firstOf ts fromEndIds (f + 1) stop <;> rfl

/-- `getSqlFrom`, when there is none. -/
theorem getSqlFrom_none {start stop : Nat} (inside : stop ≤ ts.length)
    (found : firstOf ts [.sqlFrom] start stop = none) :
    getSqlFrom ts start stop = some (false, max start stop, 0) := by
  have search := @findToken_eq _ _ (by decide : NoBrace [.sqlFrom]) start _ inside
  rw [found] at search
  simp only [getSqlFrom, search, Option.bind_eq_bind, Option.bind_some, if_true]

/-- What is found in a range, or else its end, is within the range. -/
theorem firstOf_getD {tokIds : List SqlTokenId} {start stop : Nat} (order : start ≤ stop) :
    start ≤ (firstOf ts tokIds start stop).getD stop ∧
      (firstOf ts tokIds start stop).getD stop ≤ stop := by
  cases found : firstOf ts tokIds start stop with
  | none => exact ⟨order, Nat.le_refl stop⟩
  | some i =>
    obtain ⟨lower, upper, _⟩ := firstOf_spec found
    exact ⟨lower, Nat.le_of_lt upper⟩

/-- Where the condition begins and ends, as `getSqlWhere` has it. -/
def whereRange (ts : List SqlToken) (start stop : Nat) : Nat × Nat :=
  (firstOf ts [.sqlWhere] start stop).elim (max start stop, 0) fun w =>
    (w + 1, (firstOf ts whereEndIds (w + 1) stop).getD stop)

theorem whereRange_bounds {start stop : Nat} :
    start ≤ (whereRange ts start stop).1 ∧ (whereRange ts start stop).2 ≤ stop := by
  rw [whereRange]
  cases found : firstOf ts [.sqlWhere] start stop with
  | none => exact ⟨Nat.le_max_left start stop, Nat.zero_le stop⟩
  | some w =>
    obtain ⟨lower, upper, _⟩ := firstOf_spec found
    exact ⟨Nat.le_succ_of_le lower, (@firstOf_getD ts whereEndIds (w + 1) stop upper).2⟩

/-- `getSqlWhere` always finds the condition, or that there is none. -/
theorem getSqlWhere_eq (s : Parsing) {start stop : Nat} (inside : stop ≤ ts.length) :
    ∃ s', getSqlWhere ts s start stop = some (s', whereRange ts start stop) ∧
      s'.querylist = s.querylist := by
  -- Three ways: no WHERE, a WHERE up to the end, and one up to a keyword behind it.
  have search := @findToken_eq _ _ (by decide : NoBrace [.sqlWhere]) start _ inside
  rw [whereRange]
  cases found : firstOf ts [.sqlWhere] start stop with
  | none =>
    rw [found] at search
    refine ⟨{ s with isBigQuery := true }, ?_, rfl⟩
    simp only [getSqlWhere, search, Option.bind_eq_bind, Option.bind_some, if_true,
      Option.elim_none]
  | some w =>
    obtain ⟨lower, upper, _⟩ := firstOf_spec found
    have last : max (w + 1) stop = stop := by omega
    have searchEnd := @findTokens_eq _ _ (by decide : NoBrace whereEndIds) (w + 1) _ inside
    rw [found] at search
    rw [last] at searchEnd
    cases ended : firstOf ts whereEndIds (w + 1) stop with
    | none =>
      rw [ended] at searchEnd
      refine ⟨s, ?_, rfl⟩
      simp only [getSqlWhere, search, searchEnd, Option.bind_eq_bind, Option.bind_some, ended,
        Bool.true_eq_false, Bool.false_eq_true, if_false, Option.elim_some, Option.getD_none]
    | some i =>
      obtain ⟨_, _, _, id, _, there⟩ := firstOf_spec ended
      rw [ended] at searchEnd
      refine ⟨if id = .sqlUnion ∨ id = .sqlGroup ∨ id = .sqlHaving ∨ id = .sqlOrder then
        { s with isBigQuery := true } else s, ?_, ?_⟩
      · simp only [getSqlWhere, search, searchEnd, there, Option.bind_eq_bind,
          Option.bind_some, ended,
          Bool.true_eq_false, if_false, if_true, Option.elim_some, Option.getD_some]
      · split <;> rfl

/-- The condition is within its range. -/
theorem getSqlWhere_spec (s : Parsing) {start stop : Nat} (inside : stop ≤ ts.length) :
    ∃ s' wherestart whereend, getSqlWhere ts s start stop = some (s', wherestart, whereend) ∧
      s'.querylist = s.querylist ∧ start ≤ wherestart ∧ whereend ≤ stop := by
  obtain ⟨s', done, same⟩ := @getSqlWhere_eq ts s start stop inside
  exact ⟨s', _, _, done, same, whereRange_bounds⟩

/--
The look-ahead after a UNION is safe unless the statement is cut off there, or a SELECT follows that
is not.
-/
theorem reads_parseUnion (subReads : SubReads ts tbegin sub) (formed : AllFormed ts s)
    {u tend : Nat} (lower : tbegin ≤ u) (upper : u < tend) (ends : Ends ts tend) :
    Reads ts s (parseUnion ts sub s u tend)
      (tend = ts.length →
        ¬ (u + 1 = ts.length ∨ tokenId ts (u + 1) = some .sqlAll ∧ u + 2 = ts.length) ∧
        ∀ next, next = (if tokenId ts (u + 1) = some .sqlAll then u + 2 else u + 1) →
          tokenId ts next = some .sqlSelect → ¬ Overrun ts next) := by
  have inside := ends.le
  by_cases first : u + 1 < ts.length
  · obtain ⟨t, _, id⟩ := tokenId_lt first
    simp only [parseUnion, id, Option.bind_eq_bind, Option.bind_some, Option.some.injEq]
    generalize place : (if t.tokenId = .sqlAll then u + 2 else u + 1) = next
    -- Before the end of the tokens, the place after UNION ALL is still within the statement.
    have within : tend ≠ ts.length → next ≤ tend := by
      intro more
      obtain ⟨last, there, kind⟩ := ends.token more
      by_cases all : t.tokenId = .sqlAll
      · have apart : u + 1 ≠ tend := by
          intro same
          rw [← same, id] at there
          obtain kind | kind := kind <;> simp_all
        rw [if_pos all] at place
        omega
      · rw [if_neg all] at place
        omega
    by_cases second : next < ts.length
    · obtain ⟨t', _, id'⟩ := tokenId_lt second
      simp only [id', Option.bind_some]
      have notCut : ¬ (u + 1 = ts.length ∨ t.tokenId = .sqlAll ∧ u + 2 = ts.length) := by
        intro cut
        obtain cut | ⟨all, cut⟩ := cut
        · omega
        · rw [if_pos all] at place
          omega
      by_cases select : t'.tokenId = .sqlSelect
      · rw [if_pos select]
        have inner : next ≤ tend := by
          by_cases more : tend = ts.length
          · omega
          · exact within more
        have after : tbegin < next := by
          split at place <;> omega
        refine (subReads s next tend after inner ends formed).congr ?_
        constructor
        · intro safe last
          refine ⟨notCut, ?_⟩
          intro other same _
          rw [same]
          exact safe last
        · intro safe last
          exact (safe last).2 next rfl (by rw [id', select])
      · rw [if_neg select]
        refine (Reads.same formed rfl).congr ?_
        simp only [true_iff]
        intro last
        refine ⟨notCut, ?_⟩
        intro other same there
        rw [same, id'] at there
        exact absurd (Option.some.inj there) select
    · have missing : tokenId ts next = none := tokenId_eq_none_iff.mpr (by omega)
      simp only [missing, Option.bind_none]
      apply Reads.fails
      intro safe
      have last : tend = ts.length := by
        by_contra more
        have := within more
        omega
      apply (safe last).1
      by_cases all : t.tokenId = .sqlAll
      · rw [if_pos all] at place
        exact Or.inr ⟨all, by omega⟩
      · rw [if_neg all] at place
        omega
  · have missing : tokenId ts (u + 1) = none := tokenId_eq_none_iff.mpr (by omega)
    simp only [parseUnion, missing, Option.bind_eq_bind, Option.bind_none]
    apply Reads.fails
    intro safe
    exact (safe (by omega)).1 (Or.inl (by omega))

/-- A SELECT is safe unless it is cut off, or continued by one that is. -/
theorem reads_parseSelect (subReads : SubReads ts tbegin sub) (formed : AllFormed ts s)
    {tend : Nat} (upper : tbegin < tend) (ends : Ends ts tend)
    (begins : tokenId ts tbegin = some .sqlSelect) :
    Reads ts s (parseSelect ts sub s tbegin tend)
      (tend = ts.length →
        ¬ (CutSelect ts tbegin ∨ ∃ next, ContinuesSelect ts tbegin next ∧ Overrun ts next)) := by
  have inside := ends.le
  cases from' : firstOf ts [.sqlFrom] tbegin tend with
  | none =>
    -- Without a list of tables nothing else is looked at.
    simp only [parseSelect, getSqlFrom_none inside from', Option.bind_eq_bind,
      Option.bind_some, if_true]
    refine (Reads.same formed rfl).congr ?_
    simp only [true_iff]
    intro last bad
    rw [last] at from'
    obtain ⟨f, found, _⟩ | ⟨next, ⟨f, _, found, _⟩, _⟩ := bad
    · rw [from'] at found
      cases found
    · rw [from'] at found
      cases found
  | some f =>
    obtain ⟨lowerFrom, upperFrom, _⟩ := firstOf_spec from'
    obtain ⟨order, within⟩ := @firstOf_getD ts fromEndIds (f + 1) tend upperFrom
    have search := @findToken_eq _ _ (by decide : NoBrace [.sqlUnion]) tbegin _ inside
    simp only [parseSelect, getSqlFrom_some inside from', Option.bind_eq_bind, Option.bind_some,
      Bool.true_eq_false, if_false]
    generalize fromend' : (firstOf ts fromEndIds (f + 1) tend).getD tend = fromend at order within ⊢
    -- What follows the UNION, if there is one.
    have parts : ∀ (query : SQLQuery) (s' : Parsing), query.tbegin = tbegin →
        query.fromstart = f + 1 → query.fromend = fromend → s'.querylist = s.querylist →
        tbegin ≤ query.wherestart → query.whereend ≤ ts.length →
        ∀ (union : Parsing → Option Parsing) (P : Prop),
          (∀ s'', AllFormed ts s'' → Reads ts s'' (union s'') P) →
          Reads ts s ((union (s'.pushQuery query)).bind fun s =>
            (handleSubQuery ts sub s tbegin (f + 1)).bind fun s =>
              (handleSubQuery ts sub s (f + 1) fromend).bind fun s =>
                handleSubQuery ts sub s query.wherestart query.whereend)
            (Readable ts query ∧ P) := by
      intro query s' atBegin atFrom atEnd queries lowerWhere upperWhere union P unionReads
      have formed' : AllFormed ts s' := by
        unfold AllFormed
        rwa [queries]
      have new : WellFormed ts query := by
        intro _
        rw [atFrom, atEnd]
        omega
      have pushed := @Reads.bind _ _ _ _ _ union (Reads.push formed' new) unionReads
      rw [Option.bind_some] at pushed
      refine ((pushed.of_querylist queries).bind (Q := True) ?_).congr (by simp)
      intro after formed
      refine (Reads.bind (reads_handleSubQuery subReads formed (Nat.le_refl _) (by omega))
        (Q := True) ?_).congr (by simp)
      intro after formed
      refine (Reads.bind (reads_handleSubQuery subReads formed (by omega) (by omega))
        (Q := True) ?_).congr (by simp)
      intro after formed
      exact reads_handleSubQuery subReads formed lowerWhere upperWhere
    have readable : ∀ query : SQLQuery, query.tbegin = tbegin → query.fromstart = f + 1 →
        query.fromend = fromend →
        (Readable ts query ↔ (tend = ts.length →
          ¬ (firstOf ts fromEndIds (f + 1) ts.length = none ∧
            LongTail (window ts (f + 1) ts.length)))) := by
      intro query atBegin atFrom atEnd
      have simpler : Readable ts query ↔
          (fromend < ts.length ∨ ¬ LongTail (window ts (f + 1) fromend)) := by
        simp [Readable, atBegin, atFrom, atEnd, begins]
      rw [simpler]
      constructor
      · intro either last ⟨nothing, tail⟩
        rw [last, nothing, Option.getD_none] at fromend'
        obtain early | short := either
        · omega
        · exact short (fromend' ▸ tail)
      · intro safe
        by_cases early : fromend < ts.length
        · exact Or.inl early
        · have last : tend = ts.length := by omega
          have atEnd : fromend = ts.length := by omega
          refine Or.inr fun tail => safe last ⟨?_, atEnd ▸ tail⟩
          cases found : firstOf ts fromEndIds (f + 1) ts.length with
          | none => rfl
          | some e =>
            have before := (firstOf_spec found).2.1
            rw [last, found, Option.getD_some] at fromend'
            omega
    cases union : firstOf ts [.sqlUnion] tbegin tend with
    | none =>
      obtain ⟨s', wherestart, whereend, found, queries, lower, upperWhere⟩ :=
        @getSqlWhere_spec ts s fromend _ inside
      have last : max tbegin tend = tend := by omega
      rw [union, last] at search
      simp only [search, Option.bind_some, Bool.false_eq_true, if_false, found]
      refine (parts ⟨tbegin, tend, f + 1, fromend, wherestart, whereend⟩ s' rfl rfl rfl queries
        (by show tbegin ≤ wherestart; omega) (by show whereend ≤ ts.length; omega) some True
        (fun s'' formed => Reads.same formed rfl)).congr ?_
      rw [and_true, readable _ rfl rfl rfl]
      constructor
      · intro safe last bad
        rw [last] at from' union
        obtain ⟨f', found, cut⟩ | ⟨next, ⟨_, u, _, found, _⟩, _⟩ := bad
        · rw [from', Option.some.injEq] at found
          subst found
          obtain ⟨u, found, _⟩ | tail := cut
          · rw [union] at found
            cases found
          · exact safe last tail
        · rw [union] at found
          cases found
      · intro safe last tail
        exact safe last (Or.inl ⟨f, last ▸ from', Or.inr tail⟩)
    | some u =>
      obtain ⟨lowerUnion, upperUnion, _⟩ := firstOf_spec union
      obtain ⟨s', wherestart, whereend, found, queries, lower, upperWhere⟩ :=
        @getSqlWhere_spec ts s fromend u (by omega)
      rw [union] at search
      simp only [search, Option.bind_some, if_true, found]
      refine (parts ⟨tbegin, u, f + 1, fromend, wherestart, whereend⟩ s' rfl rfl rfl queries
        (by show tbegin ≤ wherestart; omega) (by show whereend ≤ ts.length; omega) _ _
        (fun s'' formed => reads_parseUnion subReads formed lowerUnion upperUnion ends)).congr ?_
      rw [readable _ rfl rfl rfl]
      constructor
      · intro ⟨safeTail, safeUnion⟩ last bad
        obtain ⟨notCut, goesOn⟩ := safeUnion last
        have tail := safeTail last
        rw [last] at from' union
        obtain ⟨f', found, cut⟩ | ⟨next, ⟨_, u', _, found, place, select⟩, bad⟩ := bad
        · rw [from', Option.some.injEq] at found
          subst found
          obtain ⟨u', found, cut⟩ | long := cut
          · rw [union, Option.some.injEq] at found
            subst found
            exact notCut cut
          · exact tail long
        · rw [union, Option.some.injEq] at found
          subst found
          exact goesOn next place select bad
      · intro safe
        constructor
        · intro last tail
          exact safe last (Or.inl ⟨f, last ▸ from', Or.inr tail⟩)
        · intro last
          constructor
          · intro cut
            exact safe last (Or.inl ⟨f, last ▸ from', Or.inl ⟨u, last ▸ union, cut⟩⟩)
          · intro next place select bad
            exact safe last (Or.inr ⟨next, ⟨f, u, last ▸ from', last ▸ union, place, select⟩, bad⟩)

/-- A search for one kind of token ends within the tokens. -/
theorem findToken_spec {tokId : SqlTokenId} (plain : NoBrace [tokId]) {start stop : Nat}
    (inside : stop ≤ ts.length) (order : start ≤ stop) :
    ∃ found i, findToken ts start stop tokId = some (found, i) ∧ start ≤ i ∧ i ≤ stop ∧
      (found = true → i < stop) := by
  have search := @findToken_eq _ _ plain start _ inside
  have last : max start stop = stop := by omega
  rw [last] at search
  cases found : firstOf ts [tokId] start stop with
  | none =>
    rw [found] at search
    exact ⟨false, stop, search, order, Nat.le_refl _, by simp⟩
  | some i =>
    obtain ⟨lower, upper, _⟩ := firstOf_spec found
    rw [found] at search
    exact ⟨true, i, search, lower, Nat.le_of_lt upper, fun _ => upper⟩

/-- A statement that is no SELECT is well formed, whatever its ranges are. -/
theorem wellFormed_of_other {query : SQLQuery} {id : SqlTokenId}
    (begins : tokenId ts query.tbegin = some id) (other : id ≠ .sqlSelect) :
    WellFormed ts query := by
  intro select
  rw [begins] at select
  exact absurd (Option.some.inj select) other

/-- A single table is read within the tokens if its range lies within them. -/
theorem readable_iff_of_table {query : SQLQuery} {id : SqlTokenId}
    (begins : tokenId ts query.tbegin = some id) (kind : id ∈ tableIds) :
    Readable ts query ↔ (query.fromstart < query.fromend → query.fromend ≤ ts.length) := by
  have other : id ≠ .sqlSelect := by
    intro same
    subst same
    exact absurd kind (by decide)
  unfold Readable
  simp only [begins, Option.some.injEq, exists_eq_left', if_neg other]
  rw [if_pos kind]

/-- A statement with a single table, and what follows. -/
theorem Reads.push_table {query : SQLQuery} (formed : AllFormed ts s) {id : SqlTokenId}
    (begins : tokenId ts query.tbegin = some id) (kind : id ∈ tableIds)
    {next : Parsing → Option Parsing} {Q : Prop}
    (rest : ∀ after, AllFormed ts after → Reads ts after (next after) Q) :
    Reads ts s (next (s.pushQuery query))
      ((query.fromstart < query.fromend → query.fromend ≤ ts.length) ∧ Q) := by
  have other : id ≠ .sqlSelect := by
    intro same
    subst same
    exact absurd kind (by decide)
  have pushed := (Reads.push formed (wellFormed_of_other begins other)).congr
    (readable_iff_of_table begins kind)
  exact pushed.bind rest

/-- A statement with a single table, and nothing after it. -/
theorem Reads.push_last {query : SQLQuery} (formed : AllFormed ts s) {id : SqlTokenId}
    (begins : tokenId ts query.tbegin = some id) (kind : id ∈ tableIds) :
    Reads ts s (some (s.pushQuery query))
      (query.fromstart < query.fromend → query.fromend ≤ ts.length) := by
  have last := @Reads.push_table _ _ query formed _ begins kind some True
    fun _ formed => Reads.same formed rfl
  exact last.congr (by simp only [and_true])

/-- Where `findToken` finds something, there is such a token. -/
theorem firstOf_of_findToken {tokId : SqlTokenId} (plain : NoBrace [tokId]) {start stop i : Nat}
    (inside : stop ≤ ts.length) (search : findToken ts start stop tokId = some (true, i)) :
    firstOf ts [tokId] start stop = some i := by
  rw [findToken_eq plain inside] at search
  cases found : firstOf ts [tokId] start stop with
  | none =>
    rw [found] at search
    simp at search
  | some k =>
    rw [found] at search
    simpa using search

/-- The name before the SET of an UPDATE is found when it is looked for from the beginning. -/
theorem firstOf_literal {tokIds : List SqlTokenId} {start stop i : Nat}
    (found : firstOf ts tokIds start stop = some (i + 1)) (after : start ≤ i)
    (literal : tokenId ts i = some .literal) : (firstOf ts [.literal] start (i + 1)).isSome := by
  obtain ⟨_, _, _, _, _, outside⟩ := firstOf_split found
  have within := lt_of_tokenId literal
  have token : ts[i]? = some ts[i] := List.getElem?_eq_getElem within
  have name : ts[i].tokenId = .literal := by simpa [tokenId, token] using literal
  have empty : window ts (i + 1) (i + 1) = [] := by simp [window]
  have split := @window_split ts _ _ _ after (Nat.le_succ i)
  rw [window_cons token (Nat.lt_succ_self i), empty] at split
  have flat : ts[i].brace = 0 := by simp [SqlToken.brace, name]
  rw [split] at outside
  simp only [depth_append, depth_cons, flat, depth_nil, Int.add_zero] at outside
  -- The name itself stands outside of braces.
  rw [firstOf, Option.isSome_map, Option.isSome_iff_ne_none]
  intro nothing
  exact find_eq_none_iff.mp nothing _ ts[i] [] split (by omega) (by simp [SqlToken.Is, name])

/-- An UPDATE is safe. -/
theorem reads_parseUpdate (subReads : SubReads ts tbegin sub) (formed : AllFormed ts s)
    {tend : Nat} (upper : tbegin < tend) (inside : tend ≤ ts.length)
    (begins : tokenId ts tbegin = some .sqlUpdate) :
    Reads ts s (parseUpdate ts sub s tbegin tend) True := by
  obtain ⟨found, setPos, search, lower, _, before⟩ :=
    @findToken_spec ts _ (by decide : NoBrace [.sqlSet]) _ _ inside (Nat.le_of_lt upper)
  simp only [parseUpdate, search, Option.bind_eq_bind, Option.bind_some]
  cases found with
  | false => exact Reads.same formed rfl
  | true =>
    have setBefore := before rfl
    have set' := firstOf_of_findToken (by decide : NoBrace [.sqlSet]) inside search
    -- The SET comes after the UPDATE, so there is a token before it.
    have apart : setPos ≠ tbegin := by
      intro same
      have there := tokenId_of_firstOf set'
      rw [same, begins] at there
      cases there
    obtain ⟨previous, same⟩ : ∃ previous, setPos = previous + 1 := ⟨setPos - 1, by omega⟩
    subst same
    obtain ⟨t, _, id⟩ := @tokenId_lt ts previous (by omega)
    simp only [Bool.true_eq_false, if_false, tokenBefore, id, Option.bind_some]
    by_cases literal : t.tokenId = .literal
    · obtain ⟨named, name, searchName, lowerName, upperName, _⟩ :=
        @findToken_spec ts _ (by decide : NoBrace [.literal]) tbegin (previous + 1)
          (by omega) (by omega)
      obtain ⟨_, wherestart, searchWhere, lowerWhere, upperWhere, _⟩ :=
        @findToken_spec ts _ (by decide : NoBrace [.sqlWhere]) (previous + 1) _ inside (by omega)
      have found := firstOf_literal set' (by omega) (literal ▸ id)
      have named' : named = true := by
        have search' := @findToken_eq ts _ (by decide : NoBrace [.literal]) tbegin
          (previous + 1) (by omega)
        obtain ⟨i, there⟩ := Option.isSome_iff_exists.mp found
        rw [there, searchName] at search'
        exact congrArg Prod.fst (Option.some.inj search')
      simp only [literal, ne_eq, not_true_eq_false, if_false, searchName, searchWhere,
        Option.bind_some, named', if_true]
      refine (@Reads.push_table _ _ ⟨tbegin, tend, name, previous + 1, wherestart,
        wherestart⟩ formed
        _ begins (by decide) (fun s => (handleSubQuery ts sub s name wherestart).bind fun s =>
          handleSubQuery ts sub s wherestart tend) True ?_).congr ?_
      · intro after formed
        refine (Reads.bind (reads_handleSubQuery subReads formed (by omega) (by omega))
          (Q := True) ?_).congr (by simp)
        intro after formed
        exact reads_handleSubQuery subReads formed (by omega) inside
      · simp only [and_true, iff_true]
        omega
    · simp only [literal, ne_eq, not_false_eq_true, if_true]
      exact Reads.same formed rfl

/-- A DELETE is safe. -/
theorem reads_parseDelete (subReads : SubReads ts tbegin sub) (formed : AllFormed ts s)
    {tend : Nat} (upper : tbegin < tend) (inside : tend ≤ ts.length)
    (begins : tokenId ts tbegin = some .sqlDelete) :
    Reads ts s (parseDelete ts sub s tbegin tend) True := by
  obtain ⟨found, fromPos, search, lower, _, before⟩ :=
    @findToken_spec ts _ (by decide : NoBrace [.sqlFrom]) _ _ inside (Nat.le_of_lt upper)
  simp only [parseDelete, search, Option.bind_eq_bind, Option.bind_some]
  -- Without tokens behind FROM there is no table.
  split
  · rename_i more
    obtain ⟨_, wherestart, searchWhere, lowerWhere, upperWhere, _⟩ :=
      @findToken_spec ts _ (by decide : NoBrace [.sqlWhere]) (fromPos + 1) _ inside (by omega)
    simp only [searchWhere, Option.bind_some]
    refine (@Reads.push_table _ _ ⟨tbegin, tend, fromPos + 1, wherestart, wherestart, tend⟩ formed
      _ begins (by decide) (fun s => (handleSubQuery ts sub s wherestart wherestart).bind fun s =>
        handleSubQuery ts sub s wherestart tend) True ?_).congr ?_
    · intro after formed
      refine (Reads.bind (reads_handleSubQuery subReads formed (by omega) (by omega)) (Q :=
        True) ?_).congr
        (by simp)
      intro after formed
      exact reads_handleSubQuery subReads formed (by omega) inside
    · simp only [and_true, iff_true]
      omega
  · exact Reads.same formed rfl

/-- The table of an INSERT ends within the statement. -/
theorem insertTableEnd_spec (count : Nat) : ∀ i, i + count ≤ ts.length →
    ∃ table, insertTableEnd ts count i = some table ∧ i ≤ table ∧ table ≤ i + count := by
  induction count with
  | zero =>
    intro i _
    exact ⟨i, rfl, Nat.le_refl _, Nat.le_refl _⟩
  | succ count ih =>
    intro i inside
    obtain ⟨t, _, id⟩ := @tokenId_lt ts i (by omega)
    simp only [insertTableEnd, id, Option.bind_eq_bind, Option.bind_some]
    split
    · exact ⟨i, rfl, Nat.le_refl _, by omega⟩
    · obtain ⟨table, found, lower, upper⟩ := ih (i + 1) (by omega)
      exact ⟨table, found, by omega, by omega⟩

/-- What is at the beginning of a range is found there. -/
theorem firstOf_start {tokIds : List SqlTokenId} {start stop : Nat} {id : SqlTokenId}
    (there : tokenId ts start = some id) (kind : id ∈ tokIds) (nonempty : start < stop) :
    firstOf ts tokIds start stop = some start := by
  have within := lt_of_tokenId there
  have token : ts[start]? = some ts[start] := List.getElem?_eq_getElem within
  have name : ts[start].tokenId = id := by simpa [tokenId, token] using there
  simp [firstOf, firstIn, window_cons token nonempty, find, SqlToken.Is, name, kind]

/-- How the search for the values of an INSERT ends. -/
theorem insertValues_cases {table tend : Nat} (order : table ≤ tend) (ends : Ends ts tend) :
    (insertValues ts table tend = none ∧ tend = ts.length ∧
      (table = ts.length ∨ tokenId ts table ≠ some .sqlSet ∧
        ∃ v, firstOf ts valuesIds table ts.length = some v ∧ v + 1 = ts.length)) ∨
    (∃ values v id, insertValues ts table tend = some (values, v) ∧ tokenId ts v = some id ∧
      id ∈ valuesIds ∧ v < tend ∧ v + 1 < ts.length ∧ tokenId ts table ≠ some .sqlSet ∧
      firstOf ts valuesIds table tend = some v) ∨
    (∃ values, insertValues ts table tend = some (values, table) ∧ table < tend ∧
      tokenId ts table = some .sqlSet) ∨
    (∃ values, insertValues ts table tend = some (values, tend) ∧ table < ts.length ∧
      tokenId ts table ≠ some .sqlSet ∧ firstOf ts valuesIds table tend = none) := by
  have inside := ends.le
  by_cases there : table < ts.length
  · obtain ⟨t, _, id⟩ := tokenId_lt there
    -- The end of the statement is none of the tokens looked for.
    have before : t.tokenId ∈ valuesIds ∨ t.tokenId = .sqlSet → table < tend := by
      intro kind
      by_contra atEnd
      have same : table = tend := by omega
      obtain ⟨last, lastId, brace⟩ := ends.token (by omega)
      rw [← same, id, Option.some.injEq] at lastId
      obtain brace | brace := brace <;> rw [lastId, brace] at kind <;> simp [valuesIds] at kind
    have search := @findTokens_eq _ _ (by decide : NoBrace valuesIds) table _ inside
    by_cases values : t.tokenId ∈ valuesIds
    · have nonempty := before (Or.inl values)
      have first := firstOf_start id values nonempty
      have notSet : tokenId ts table ≠ some .sqlSet := by
        intro set'
        rw [id, Option.some.injEq] at set'
        rw [set'] at values
        exact absurd values (by decide)
      have other : t.tokenId ≠ .sqlSet := fun set' => notSet (by rw [id, set'])
      by_cases more : table + 1 < ts.length
      · obtain ⟨t', _, id'⟩ := tokenId_lt more
        refine Or.inr (Or.inl ?_)
        rw [first] at search
        by_cases listed : t'.tokenId = .obrace
        · refine ⟨table, table, t.tokenId, ?_, id, values, nonempty, more, notSet, first⟩
          simp [insertValues, id, id', values, listed]
        · refine ⟨0, table, t.tokenId, ?_, id, values, nonempty, more, notSet, first⟩
          simp [insertValues, id, id', listed, other, search]
      · have missing : tokenId ts (table + 1) = none := tokenId_eq_none_iff.mpr (by omega)
        have last : tend = ts.length := by omega
        refine Or.inl ⟨?_, last, Or.inr ⟨notSet, table, last ▸ first, by omega⟩⟩
        simp [insertValues, id, values, missing]
    · by_cases set' : t.tokenId = .sqlSet
      · refine Or.inr (Or.inr (Or.inl ⟨table, ?_, before (Or.inr set'), by rw [id, set']⟩))
        have notValue : SqlTokenId.sqlSet ∉ valuesIds := by decide
        simp [insertValues, id, set', notValue]
      · have notSet : tokenId ts table ≠ some .sqlSet := by
          rw [id]
          simpa using set'
        cases found : firstOf ts valuesIds table tend with
        | none =>
          have last : max table tend = tend := by omega
          rw [found, last] at search
          refine Or.inr (Or.inr (Or.inr ⟨0, ?_, there, notSet, rfl⟩))
          simp [insertValues, id, values, set', search]
        | some v =>
          obtain ⟨_, upper, _, idv, kind, atv⟩ := firstOf_spec found
          rw [found] at search
          by_cases more : v + 1 < ts.length
          · obtain ⟨t', _, id'⟩ := tokenId_lt more
            refine Or.inr (Or.inl ⟨if t'.tokenId =
              .obrace then v else 0, v, idv, ?_, atv, kind, upper,
              more, notSet, rfl⟩)
            simp [insertValues, id, values, set', search, id']
          · have missing : tokenId ts (v + 1) = none := tokenId_eq_none_iff.mpr (by omega)
            have last : tend = ts.length := by omega
            refine Or.inl ⟨?_, last, Or.inr ⟨notSet, v, last ▸ found, by omega⟩⟩
            simp [insertValues, id, values, set', search, missing]
  · have missing : tokenId ts table = none := tokenId_eq_none_iff.mpr (by omega)
    refine Or.inl ⟨?_, by omega, Or.inl (by omega)⟩
    simp [insertValues, missing]

/-- The SELECT that an INSERT takes its rows from, if there is one. -/
theorem reads_insertSelect (subReads : SubReads ts tbegin sub) (formed : AllFormed ts s)
    {table tend : Nat} (lower : tbegin < table) (ends : Ends ts tend) :
    Reads ts s ((findToken ts table tend .sqlSelect).bind fun r =>
        if r.1 = true then sub { s with isInsertSelect := true } r.2 tend else some s)
      (tend = ts.length →
        ∀ next, firstOf ts [.sqlSelect] table ts.length = some next → ¬ Overrun ts next) := by
  have search := @findToken_eq _ _ (by decide : NoBrace [.sqlSelect]) table _ ends.le
  cases found : firstOf ts [.sqlSelect] table tend with
  | none =>
    rw [found] at search
    simp only [search, Option.bind_some, Bool.false_eq_true, if_false]
    refine (Reads.same formed rfl).congr ?_
    simp only [true_iff]
    intro last next there
    rw [← last, found] at there
    cases there
  | some i =>
    obtain ⟨lower', upper, _⟩ := firstOf_spec found
    rw [found] at search
    simp only [search, Option.bind_some, if_true]
    have selected :=
      subReads { s with isInsertSelect := true } i tend (by omega) (Nat.le_of_lt upper) ends
      formed
    refine (selected.of_querylist rfl).congr ?_
    -- A SELECT that runs to the end of the tokens is the first one from the table on.
    constructor
    · intro safe last next there
      rw [← last, found, Option.some.injEq] at there
      exact there ▸ safe last
    · intro safe last
      exact safe last i (last ▸ found)

/-- An INSERT is safe unless it is cut off, or takes its rows from a SELECT that is. -/
theorem reads_parseInsert (subReads : SubReads ts tbegin sub) (formed : AllFormed ts s)
    {tend : Nat} (ends : Ends ts tend) {id : SqlTokenId}
    (begins : tokenId ts tbegin = some id) (kind : id ∈ tableIds) :
    Reads ts s (parseInsert ts sub s tbegin tend)
      (tend = ts.length →
        ¬ (CutInsert ts tbegin ∨ ∃ next, ContinuesInsert ts tbegin next ∧ Overrun ts next)) := by
  have inside := ends.le
  have search := @findToken_eq _ _ (by decide : NoBrace [.sqlInto]) tbegin _ inside
  cases found : firstOf ts [.sqlInto] tbegin tend with
  | none =>
    rw [found] at search
    simp only [parseInsert, search, Option.bind_eq_bind, Option.bind_some, Bool.false_eq_true,
      false_and, if_false]
    refine (Reads.same formed rfl).congr ?_
    simp only [true_iff]
    intro last bad
    rw [last] at found
    obtain ⟨into, _, there, _⟩ | ⟨next, ⟨into, _, there, _⟩, _⟩ := bad
    · rw [found] at there
      cases there
    · rw [found] at there
      cases there
  | some into =>
    obtain ⟨lower, upperInto, _⟩ := firstOf_spec found
    rw [found] at search
    simp only [parseInsert, search, Option.bind_eq_bind, Option.bind_some, true_and]
    by_cases more : into + 1 < tend
    · obtain ⟨table, tableEnd, lowerTable, upperTable⟩ :=
        @insertTableEnd_spec ts (tend - (into + 2)) (into + 2) (by omega)
      simp only [if_pos more, tableEnd, Option.bind_some]
      have fits : table ≤ ts.length := by omega
      -- What the conditions on the rest of the statement come down to.
      have bad : tend = ts.length → ((CutInsert ts tbegin ∨
          ∃ next, ContinuesInsert ts tbegin next ∧ Overrun ts next) ↔
          ((table = ts.length ∨ tokenId ts table ≠ some .sqlSet ∧
              ∃ v, firstOf ts valuesIds table ts.length = some v ∧ v + 1 = ts.length) ∨
            ∃ next, (tokenId ts table = some .sqlSet ∨
              firstOf ts valuesIds table ts.length = none) ∧
              firstOf ts [.sqlSelect] table ts.length = some next ∧ Overrun ts next)) := by
        intro last
        rw [last] at found tableEnd more
        constructor
        · intro either
          obtain ⟨into', table', found', _, tableEnd', cut⟩ |
            ⟨next, ⟨into', table', found', _, tableEnd', source, select⟩, bad⟩ := either
          · rw [found, Option.some.injEq] at found'
            subst found'
            rw [tableEnd, Option.some.injEq] at tableEnd'
            subst tableEnd'
            exact Or.inl cut
          · rw [found, Option.some.injEq] at found'
            subst found'
            rw [tableEnd, Option.some.injEq] at tableEnd'
            subst tableEnd'
            exact Or.inr ⟨next, source, select, bad⟩
        · intro either
          obtain cut | ⟨next, source, select, bad⟩ := either
          · exact Or.inl ⟨into, table, found, more, tableEnd, cut⟩
          · exact Or.inr ⟨next, ⟨into, table, found, more, tableEnd, source, select⟩, bad⟩
      obtain ⟨result, last, cut⟩ | ⟨values, v, idv, result, there, member, before, next,
        notSet, first⟩ |
        ⟨values, result, before, set'⟩ | ⟨values, result, before, notSet, nothing⟩ :=
        insertValues_cases (by omega : table ≤ tend) ends
      · simp only [result, Option.bind_none]
        apply Reads.fails
        intro safe
        exact safe last ((bad last).mpr (Or.inl cut))
      · have notLast : v ≠ tend := by omega
        have inner : v < ts.length := by omega
        simp only [result, Option.bind_some, if_neg notLast, there, Option.map_some, member,
          not_true_eq_false, decide_false, Bool.false_eq_true, if_false]
        refine (@Reads.push_last _ _ ⟨tbegin, tend, into + 1, table, values, values⟩ formed _ begins
          kind).congr ?_
        constructor
        · intro _ last either
          rw [bad last] at either
          rw [last] at first
          obtain (atEnd | ⟨_, v', first', atEnd⟩) | ⟨_, set' | none', _⟩ := either
          · have order := (firstOf_spec first).1
            rw [atEnd] at order
            exact absurd inner (Nat.not_lt.mpr order)
          · rw [first, Option.some.injEq] at first'
            rw [← first'] at atEnd
            exact absurd next (Nat.not_lt.mpr (Nat.le_of_eq atEnd.symm))
          · exact notSet set'
          · rw [first] at none'
            cases none'
        · intro _ _
          exact fits
      · have notLast : table ≠ tend := by omega
        have kind' : SqlTokenId.sqlSet ∉ valuesIds := by decide
        simp only [result, Option.bind_some, if_neg notLast, set', Option.map_some, kind',
          not_false_eq_true, decide_true, if_true]
        refine (@Reads.push_table _ _ ⟨tbegin, tend, into + 1, table, values, values⟩ formed
          _ begins kind _ _
          fun after formed => reads_insertSelect subReads formed (by omega) ends).congr ?_
        constructor
        · intro ⟨_, safe⟩ last either
          rw [bad last] at either
          obtain (atEnd | ⟨notSet, _⟩) | ⟨next, _, select, beyond⟩ := either
          · exact notLast (atEnd.trans last.symm)
          · exact notSet set'
          · exact safe last next select beyond
        · intro safe
          refine ⟨fun _ => fits, ?_⟩
          intro last next select beyond
          exact safe last ((bad last).mpr (Or.inr ⟨next, Or.inl set', select, beyond⟩))
      · simp only [result, Option.bind_some, if_true]
        refine (@Reads.push_table _ _ ⟨tbegin, tend, into + 1, table, values, values⟩ formed
          _ begins kind _ _
          fun after formed => reads_insertSelect subReads formed (by omega) ends).congr ?_
        constructor
        · intro ⟨_, safe⟩ last either
          rw [bad last] at either
          rw [last] at nothing
          obtain (atEnd | ⟨_, v, found', _⟩) | ⟨next, _, select, beyond⟩ := either
          · exact absurd atEnd (Nat.ne_of_lt before)
          · rw [nothing] at found'
            cases found'
          · exact safe last next select beyond
        · intro safe
          refine ⟨fun _ => fits, ?_⟩
          intro last next select beyond
          exact safe last ((bad last).mpr (Or.inr ⟨next, Or.inr (last ▸ nothing), select, beyond⟩))
    · simp only [if_neg more]
      refine (Reads.same formed rfl).congr ?_
      simp only [true_iff]
      intro last bad
      rw [last] at found
      obtain ⟨into', _, there, order, _⟩ | ⟨next, ⟨into', _, there, order, _⟩, _⟩ := bad
      · rw [found, Option.some.injEq] at there
        omega
      · rw [found, Option.some.injEq] at there
        omega

/-- Skipping `IF NOT EXISTS` ends at the first other token, if there is one. -/
theorem skipIfNotExists_spec (fuel : Nat) : ∀ i, ts.length < i + fuel →
    (skipIfNotExists ts fuel i = none ∧
      ∀ j, i ≤ j → j < ts.length → ∃ id ∈ ifNotExistsIds, tokenId ts j = some id) ∨
    ∃ k id, skipIfNotExists ts fuel i = some k ∧ i ≤ k ∧ tokenId ts k = some id ∧
      id ∉ ifNotExistsIds ∧ ∀ j, i ≤ j → j < k → ∃ id ∈ ifNotExistsIds, tokenId ts j = some id := by
  -- The induction is on the fuel, of which there is more than there are tokens left.
  induction fuel with
  | zero =>
    intro i enough
    exact Or.inl ⟨rfl, fun j lower upper => by omega⟩
  | succ fuel ih =>
    intro i enough
    by_cases there : i < ts.length
    · obtain ⟨t, _, id⟩ := tokenId_lt there
      simp only [skipIfNotExists, id, Option.bind_eq_bind, Option.bind_some]
      have member : (t.tokenId = .sqlIf ∨ t.tokenId = .sqlNot ∨ t.tokenId = .sqlExists) ↔
          t.tokenId ∈ ifNotExistsIds := by simp [ifNotExistsIds]
      by_cases skipped : t.tokenId ∈ ifNotExistsIds
      · rw [if_pos (member.mpr skipped)]
        have here : ∀ j, i ≤ j → ¬ i + 1 ≤ j → ∃ id ∈ ifNotExistsIds, tokenId ts j = some id := by
          intro j lower notLater
          have same : j = i := by omega
          exact ⟨t.tokenId, skipped, same ▸ id⟩
        obtain ⟨none', all⟩ | ⟨k, idk, some', lower, atk, other, before⟩ := ih (i + 1) (by omega)
        · refine Or.inl ⟨none', fun j lower upper => ?_⟩
          by_cases later : i + 1 ≤ j
          · exact all j later upper
          · exact here j lower later
        · refine Or.inr ⟨k, idk, some', by omega, atk, other, fun j lower upper => ?_⟩
          by_cases later : i + 1 ≤ j
          · exact before j later upper
          · exact here j lower later
      · rw [if_neg (fun either => skipped (member.mp either))]
        exact Or.inr ⟨i, t.tokenId, rfl, Nat.le_refl _, id, skipped, fun j lower upper => by omega⟩
    · have missing : tokenId ts i = none := tokenId_eq_none_iff.mpr (by omega)
      refine Or.inl ⟨by simp [skipIfNotExists, missing], fun j lower upper => by omega⟩

/-- A CREATE, an ALTER or a DROP is safe unless it is cut off before its table. -/
theorem reads_parseCreate (formed : AllFormed ts s) {tend : Nat} (ends : Ends ts tend)
    {id : SqlTokenId} (begins : tokenId ts tbegin = some id) (kind : id ∈ tableIds) :
    Reads ts s (parseCreate ts s tbegin tend) (tend = ts.length → ¬ CutCreate ts tbegin) := by
  have inside := ends.le
  by_cases long : tbegin + 2 < tend
  · obtain ⟨t, _, id'⟩ := @tokenId_lt ts (tbegin + 1) (by omega)
    simp only [parseCreate, if_pos long, id', Option.bind_eq_bind, Option.bind_some]
    by_cases table : t.tokenId = .sqlTable
    · rw [if_pos table]
      obtain ⟨none', all⟩ | ⟨k, idk, some', lower, atk, other, before⟩ :=
        @skipIfNotExists_spec ts (ts.length + 1) (tbegin + 2) (by omega)
      · rw [none', Option.bind_none]
        apply Reads.fails
        intro safe
        -- The end of a statement within the tokens would have ended the loop.
        have last : tend = ts.length := by
          by_contra more
          obtain ⟨last, there, brace⟩ := ends.token more
          obtain ⟨id'', member, there'⟩ := all tend (by omega) (by omega)
          rw [there, Option.some.injEq] at there'
          obtain brace | brace := brace <;> rw [← there', brace] at member <;>
            exact absurd member (by decide)
        exact safe last ⟨by omega, by rw [id', table], all⟩
      · have withink := lt_of_tokenId atk
        have notCut : tend = ts.length → ¬ CutCreate ts tbegin := by
          intro _ cut
          obtain ⟨_, _, all⟩ := cut
          obtain ⟨id'', member, there⟩ := all k lower withink
          rw [atk, Option.some.injEq] at there
          exact other (there ▸ member)
        rw [some', Option.bind_some]
        by_cases more : k + 2 < tend
        · obtain ⟨t0, _, id0⟩ := @tokenId_lt ts 0 (by omega)
          simp only [if_pos more, id0, Option.bind_some]
          refine (@Reads.push_last _ _ ⟨tbegin, tend, k,
            if t0.tokenId = .dot then k + 3 else k + 1, 0, 0⟩ formed _ begins
            kind).congr ?_
          dsimp only
          refine iff_of_true (fun _ => ?_) notCut
          split <;> omega
        · rw [if_neg more]
          refine (@Reads.push_last _ _ ⟨tbegin, tend, k, k + 1, 0, 0⟩ formed _ begins
            kind).congr ?_
          exact iff_of_true (fun _ => withink) notCut
    · rw [if_neg table]
      refine (Reads.same formed rfl).congr ?_
      simp only [true_iff]
      intro _ cut
      have there := cut.2.1
      rw [id', Option.some.injEq] at there
      exact table there
  · simp only [parseCreate, if_neg long]
    refine (Reads.same formed rfl).congr ?_
    simp only [true_iff]
    intro last cut
    have more := cut.1
    omega

/-- A table with a dot ends within the statement; without one it is a single token. -/
theorem dottedEnd_spec (fromstart : Nat) {tend : Nat} (inside : tend ≤ ts.length) :
    ∃ fromend, dottedEnd ts fromstart tend = some fromend ∧ fromstart < fromend ∧
      fromend ≤ max (fromstart + 1) tend := by
  by_cases more : fromstart + 2 < tend
  · obtain ⟨t, _, id⟩ := @tokenId_lt ts (fromstart + 1) (by omega)
    refine ⟨if t.tokenId = .dot then fromstart + 3 else fromstart + 1, ?_, ?_, ?_⟩
    · simp [dottedEnd, more, id]
    · split <;> omega
    · split <;> omega
  · exact ⟨fromstart + 1, by simp [dottedEnd, more], by omega, Nat.le_max_left _ _⟩

/-- A DESCRIBE is safe. -/
theorem reads_parseDescribe (formed : AllFormed ts s) {tend : Nat} (inside : tend ≤ ts.length)
    {id : SqlTokenId} (begins : tokenId ts tbegin = some id) (kind : id ∈ tableIds) :
    Reads ts s (parseDescribe ts s tbegin tend) True := by
  by_cases long : tbegin + 1 < tend
  · obtain ⟨t, _, id'⟩ := @tokenId_lt ts (tbegin + 1) (by omega)
    obtain ⟨fromend, found, lower, upper⟩ := @dottedEnd_spec ts (tbegin + 1) _ inside
    simp only [parseDescribe, if_pos long, id', found, Option.bind_eq_bind, Option.bind_some]
    split
    · refine (@Reads.push_last _ _ ⟨tbegin, tend, tbegin + 1, fromend, 0, 0⟩ formed _ begins
        kind).congr ?_
      simp only [iff_true]
      omega
    · exact Reads.same formed rfl
  · simp only [parseDescribe, if_neg long]
    exact Reads.same formed rfl

/-- A VACUUM is safe. -/
theorem reads_parseVacuum (formed : AllFormed ts s) {tend : Nat} (inside : tend ≤ ts.length)
    {id : SqlTokenId} (begins : tokenId ts tbegin = some id) (kind : id ∈ tableIds) :
    Reads ts s (parseVacuum ts s tbegin tend) True := by
  by_cases long : tbegin + 1 < tend
  · obtain ⟨t, _, id'⟩ := @tokenId_lt ts (tbegin + 1) (by omega)
    simp only [parseVacuum, if_pos long, id', Option.bind_eq_bind, Option.bind_some]
    split
    · refine (@Reads.push_last _ _ ⟨tbegin, tend, tbegin + 1, tbegin + 2, 0, 0⟩ formed _ begins
        kind).congr ?_
      simp only [iff_true]
      omega
    · exact Reads.same formed rfl
  · simp only [parseVacuum, if_neg long]
    exact Reads.same formed rfl

/-- A TRUNCATE is safe. -/
theorem reads_parseTruncate (formed : AllFormed ts s) {tend : Nat} (inside : tend ≤ ts.length)
    {id : SqlTokenId} (begins : tokenId ts tbegin = some id) (kind : id ∈ tableIds) :
    Reads ts s (parseTruncate ts s tbegin tend) True := by
  by_cases long : tbegin + 2 < tend
  · obtain ⟨t, _, id'⟩ := @tokenId_lt ts (tbegin + 1) (by omega)
    obtain ⟨fromend, found, lower, upper⟩ := @dottedEnd_spec ts (tbegin + 2) _ inside
    simp only [parseTruncate, if_pos long, id', found, Option.bind_eq_bind, Option.bind_some]
    split
    · refine (@Reads.push_last _ _ ⟨tbegin, tend, tbegin + 2, fromend, 0, 0⟩ formed _ begins
        kind).congr ?_
      simp only [iff_true]
      omega
    · exact reads_parseVacuum formed inside begins kind
  · simp only [parseTruncate, if_neg long]
    exact reads_parseVacuum formed inside begins kind

/-- A SHOW is safe unless it is cut off after COLUMNS or after the FROM that follows. -/
theorem reads_parseShow (formed : AllFormed ts s) {tend : Nat} (inside : tend ≤ ts.length)
    {id : SqlTokenId} (begins : tokenId ts tbegin = some id) (kind : id ∈ tableIds) :
    Reads ts s (parseShow ts s tbegin tend) (tend = ts.length → ¬ CutShow ts tbegin) := by
  by_cases long : tbegin + 2 < tend
  · have search := @findToken_eq _ _ (by decide : NoBrace [.sqlColumns]) 1 _ inside
    cases found : firstOf ts [.sqlColumns] 1 tend with
    | none =>
      rw [found] at search
      simp only [parseShow, if_pos long, search, Option.bind_eq_bind, Option.bind_some,
        Bool.false_eq_true, if_false]
      refine (Reads.same formed rfl).congr ?_
      simp only [true_iff]
      intro last cut
      obtain ⟨_, c, there, _⟩ := cut
      rw [← last, found] at there
      cases there
    | some c =>
      obtain ⟨lower, upper, _⟩ := firstOf_spec found
      rw [found] at search
      have searchFrom := @findToken_eq _ _ (by decide : NoBrace [.sqlFrom]) (c + 1) _ inside
      simp only [parseShow, if_pos long, search, Option.bind_eq_bind, Option.bind_some, if_true]
      -- In either case the table is cut off if it begins at the end of the tokens.
      have table : ∀ fromstart, fromstart ≤ tend →
          Reads ts s ((dottedEnd ts fromstart tend).bind fun fromend =>
            some (s.pushQuery ⟨tbegin, tend, fromstart, fromend, 0, 0⟩))
                (fromstart ≠ ts.length) := by
        intro fromstart order
        obtain ⟨fromend, ended, lowerEnd, upperEnd⟩ := @dottedEnd_spec ts fromstart _ inside
        rw [ended, Option.bind_some]
        refine (@Reads.push_last _ _ ⟨tbegin, tend, fromstart, fromend, 0, 0⟩ formed _ begins
          kind).congr ?_
        dsimp only
        constructor
        · intro fits same
          have := fits lowerEnd
          omega
        · intro apart _
          omega
      cases named : firstOf ts [.sqlFrom] (c + 1) tend with
      | none =>
        rw [named] at searchFrom
        simp only [searchFrom, Option.bind_some, Bool.false_eq_true, if_false]
        refine (table (c + 1) (by omega)).congr ?_
        constructor
        · intro apart last cut
          rw [last] at found named
          obtain ⟨_, c', found', cut⟩ := cut
          rw [found, Option.some.injEq] at found'
          rw [← found', named] at cut
          exact apart cut
        · intro safe same
          have last : tend = ts.length := by omega
          refine safe last ⟨by omega, c, last ▸ found, ?_⟩
          rw [← last, named, last]
          exact same
      | some f =>
        obtain ⟨_, upperFrom, _⟩ := firstOf_spec named
        rw [named] at searchFrom
        simp only [searchFrom, Option.bind_some, if_true]
        refine (table (f + 1) (by omega)).congr ?_
        constructor
        · intro apart last cut
          rw [last] at found named
          obtain ⟨_, c', found', cut⟩ := cut
          rw [found, Option.some.injEq] at found'
          rw [← found', named] at cut
          exact apart cut
        · intro safe same
          have last : tend = ts.length := by omega
          refine safe last ⟨by omega, c, last ▸ found, ?_⟩
          rw [← last, named, last]
          exact same
  · simp only [parseShow, if_neg long]
    refine (Reads.same formed rfl).congr ?_
    simp only [true_iff]
    intro last cut
    have more := cut.1
    omega

/-- The next semicolon, or the end of the range. -/
theorem findSemicolon_spec (count : Nat) : ∀ i, i + count ≤ ts.length →
    ∃ k, findSemicolon ts count i = some k ∧ i ≤ k ∧ k ≤ i + count ∧
      (k < i + count → tokenId ts k = some .semicolon) ∧
      ∀ j, i ≤ j → j < k → tokenId ts j ≠ some .semicolon := by
  -- The induction is on the tokens of the range.
  induction count with
  | zero =>
    intro i _
    exact ⟨i, rfl, Nat.le_refl _, Nat.le_refl _, fun less => by omega,
      fun j lower upper => by omega⟩
  | succ count ih =>
    intro i inside
    obtain ⟨t, _, id⟩ := @tokenId_lt ts i (by omega)
    simp only [findSemicolon, id, Option.bind_eq_bind, Option.bind_some]
    by_cases here : t.tokenId = .semicolon
    · rw [if_pos here]
      exact ⟨i, rfl, Nat.le_refl _, by omega, fun _ => by rw [id, here],
        fun j lower upper => by omega⟩
    · rw [if_neg here]
      obtain ⟨k, found, lower, upper, semicolon, before⟩ := ih (i + 1) (by omega)
      refine ⟨k, found, by omega, by omega, fun less => semicolon (by omega),
        fun j lowerj upperj => ?_⟩
      by_cases later : i + 1 ≤ j
      · exact before j later upperj
      · have same : j = i := by omega
        rw [same, id]
        simpa using here

/-- The loop over the statements after a BEGIN is safe unless the last of them is cut off. -/
theorem reads_parseStatements (subReads : SubReads ts tbegin sub) {tend : Nat} (ends : Ends ts tend)
    (fuel : Nat) : ∀ (s : Parsing) (fromstart : Nat), AllFormed ts s → tend + 1 < fromstart + fuel →
      fromstart ≤ tend →
      (fromstart = tbegin ∨ tbegin < fromstart ∧ tokenBefore ts fromstart = some .semicolon) →
      Reads ts s (parseStatements ts sub tbegin tend fuel s fromstart fromstart)
        (tend = ts.length → ∀ next, fromstart ≤ next → ContinuesBegin ts tbegin next →
          ¬ Overrun ts next) := by
  have inside := ends.le
  induction fuel with
  | zero =>
    intro s fromstart _ enough order _
    omega
  | succ fuel ih =>
    intro s fromstart formed enough order start
    by_cases more : fromstart < tend
    · obtain ⟨k, found, lower, upper, semicolon, before⟩ :=
        @findSemicolon_spec ts (tend - fromstart) fromstart (by omega)
      simp only [parseStatements, if_pos more, found, Option.bind_eq_bind, Option.bind_some]
      have endsk : Ends ts k := by
        by_cases less : k < tend
        · exact Or.inr (Or.inr (semicolon (by omega)))
        · have same : k = tend := by omega
          exact same ▸ ends
      -- The statement itself; the text before the first semicolon is skipped.
      have statement : Reads ts s (if fromstart > tbegin then sub s fromstart k else some s)
          (tbegin < fromstart → k = ts.length → ¬ Overrun ts fromstart) := by
        split
        · rename_i later
          refine (subReads s fromstart k later lower endsk formed).congr ?_
          exact ⟨fun safe _ => safe, fun safe => safe later⟩
        · rename_i first
          refine (Reads.same formed rfl).congr ?_
          simp only [true_iff]
          intro later
          exact absurd later first
      have joined : ∀ next : Parsing → Option Parsing,
          ((if fromstart > tbegin then sub s fromstart k else some s).bind next) =
            if fromstart > tbegin then (sub s fromstart k).bind next else next s := by
        intro next
        split <;> rfl
      by_cases less : k < tend
      · have semi : tokenId ts k = some .semicolon := semicolon (by omega)
        simp only [if_pos less]
        refine (joined _ ▸ statement.bind fun after formed =>
          ih after (k + 1) formed (by omega) (by omega)
          (Or.inr ⟨by omega, semi⟩)).congr ?_
        constructor
        · intro ⟨_, safe⟩ last next order continues
          -- A later semicolon rules out that the last statement begins before it.
          have later : k + 1 ≤ next := by
            by_contra early
            exact continues.2.2.2 k (by omega) semi
          exact safe last next later continues
        · intro safe
          refine ⟨fun _ last => by omega, fun last next order continues => ?_⟩
          exact safe last next (by omega) continues
      · have same : k = tend := by omega
        subst same
        obtain ⟨less', same⟩ : ∃ less', fuel = less' + 1 := ⟨fuel - 1, by omega⟩
        subst same
        have beyond : ∀ after, parseStatements ts sub tbegin k (less' + 1) after fromstart k =
            some after := by
          intro after
          simp [parseStatements]
        simp only [Nat.lt_irrefl, if_false, beyond]
        refine (joined _ ▸ statement.bind (Q := True) fun after formed =>
          Reads.same formed rfl).congr ?_
        rw [and_true]
        constructor
        · intro safe last next order continues
          obtain ⟨later, within, previous, _⟩ := continues
          have first : next = fromstart := by
            by_contra apart
            obtain ⟨p, same⟩ : ∃ p, next = p + 1 := ⟨next - 1, by omega⟩
            rw [same] at previous
            exact before p (by omega) (by omega) previous
          rw [first]
          exact safe (first ▸ later) last
        · intro safe later last
          obtain first | ⟨_, previous⟩ := start
          · omega
          · refine safe last fromstart (Nat.le_refl _)
              ⟨later, by omega, previous, fun i lower' => ?_⟩
            by_cases within : i < ts.length
            · exact before i lower' (by omega)
            · rw [tokenId_eq_none_iff.mpr (by omega)]
              simp
    · simp only [parseStatements, if_neg more]
      refine (Reads.same formed rfl).congr ?_
      simp only [true_iff]
      intro last next order continues
      have within := continues.2.1
      omega

end OneProxy.Sql
