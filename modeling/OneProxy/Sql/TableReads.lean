import OneProxy.Sql.Windows
import OneProxy.Lib.Separator

/-! Which tokens are read when the tables of a statement are looked for. -/

namespace OneProxy.Sql

open TopLevel

variable {ts : List SqlToken}

/-- A token of a kind that is no brace leaves as many braces open as before. -/
theorem SqlToken.Is.brace_eq {tokIds : List SqlTokenId} {t : SqlToken} (kind : t.Is tokIds)
    (plain : NoBrace tokIds) : t.brace = 0 := by
  have notOpen : t.tokenId ≠ .obrace := fun same => plain.1 (same ▸ kind)
  have notClose : t.tokenId ≠ .cbrace := fun same => plain.2 (same ▸ kind)
  simp [SqlToken.brace, notOpen, notClose]

/-- A range within the tokens has as many tokens as it says. -/
theorem length_window {start stop : Nat} (inside : stop ≤ ts.length) :
    (window ts start stop).length = stop - start := by
  simp only [window, List.length_take, List.length_drop]
  omega

/-- A range is one part of it and then the other. -/
theorem window_split {start middle stop : Nat} (first : start ≤ middle) (second : middle ≤ stop) :
    window ts start stop = window ts start middle ++ window ts middle stop := by
  have sizes : stop - start = (middle - start) + (stop - middle) := by omega
  have place : start + (middle - start) = middle := by omega
  rw [window, window, window, sizes, List.take_add, List.drop_drop, place]

/-- A range begins with its first token. -/
theorem window_cons {start stop : Nat} {t : SqlToken} (there : ts[start]? = some t)
    (nonempty : start < stop) : window ts start stop = t :: window ts (start + 1) stop := by
  have size : stop - start = (stop - (start + 1)) + 1 := by omega
  rw [window, drop_eq_cons there, size, List.take_succ_cons, window]

/-- What `firstOf` finds splits the range. -/
theorem firstOf_split {tokIds : List SqlTokenId} {start stop i : Nat}
    (found : firstOf ts tokIds start stop = some i) :
    ∃ t, ts[i]? = some t ∧ t.Is tokIds ∧
      window ts start stop = window ts start i ++ t :: window ts (i + 1) stop ∧
      firstIn tokIds (window ts start i) = none ∧ depth SqlToken.brace (window ts start i) = 0 := by
  obtain ⟨lower, upper, within, id, _, tokenThere⟩ := firstOf_spec found
  simp only [firstOf, Option.map_eq_some_iff] at found
  obtain ⟨k, found, place⟩ := found
  obtain ⟨before, t, rest, split, length, nothing, outside, kind⟩ := find_eq_some_iff.mp found
  have token : ts[i]? = some ts[i] := List.getElem?_eq_getElem within
  have parts := @window_split ts _ _ _ lower (Nat.le_of_lt upper)
  rw [window_cons token upper] at parts
  -- Both splits are at the same place.
  have sameLength : before.length = (window ts start i).length := by
    rw [length_window (by omega)]
    omega
  obtain ⟨sameBefore, sameRest⟩ := List.append_inj (split.symm.trans parts) sameLength
  obtain ⟨sameToken, _⟩ := List.cons.inj sameRest
  exact ⟨ts[i], token, sameToken ▸ kind, parts, sameBefore ▸
    nothing, by simpa [sameBefore] using outside⟩

/-- The semicolons at the end can be dropped as long as the last token is there. -/
theorem trimSemicolons_spec (start : Nat) {stop : Nat} (inside : start < stop → stop ≤ ts.length) :
    ∃ trimmed, trimSemicolons ts start stop = some trimmed ∧ trimmed ≤ stop := by
  induction stop with
  | zero => exact ⟨0, rfl, Nat.le_refl 0⟩
  | succ last ih =>
    simp only [trimSemicolons]
    by_cases order : start < last + 1
    · have bound := inside order
      obtain ⟨t, _, id⟩ := @tokenId_lt ts last (by omega)
      simp only [if_pos order, id, Option.bind_eq_bind, Option.bind_some]
      by_cases semicolon : t.tokenId = .semicolon
      · obtain ⟨trimmed, found, bound⟩ := ih (by omega)
        exact ⟨trimmed, by rw [if_pos semicolon, found], by omega⟩
      · exact ⟨last + 1, by rw [if_neg semicolon], Nat.le_refl _⟩
    · exact ⟨last + 1, by rw [if_neg order], Nat.le_refl _⟩

/-- A single table is read within the tokens if and only if its range lies within them. -/
theorem isSome_parseSimple_iff (s : Parsing) (query : SQLQuery) (start stop : Nat) :
    (parseSimpleTableNameAndAlias ts s query start stop).isSome ↔
      (start < stop → stop ≤ ts.length) := by
  constructor
  · intro done order
    by_contra outside
    obtain ⟨last, same⟩ : ∃ last, stop = last + 1 := ⟨stop - 1, by omega⟩
    subst same
    have missing : tokenId ts last = none := tokenId_eq_none_iff.mpr (by omega)
    simp [parseSimpleTableNameAndAlias, trimSemicolons, order, missing] at done
  · intro inside
    obtain ⟨trimmed, found, _⟩ := trimSemicolons_spec start inside
    simp only [parseSimpleTableNameAndAlias, found, Option.bind_eq_bind, Option.bind_some]
    split
    · rfl
    · split <;> rfl

/-- `JOIN` or `STRAIGHT_JOIN`. -/
def joinIds : List SqlTokenId := [.sqlJoin, .sqlStraightJoin]

/--
A join with more than five tokens after it, and no comma, ON or USING among them.

Only what stands outside of braces counts.
-/
def LongTail (l : List SqlToken) : Prop :=
  ∃ before join rest, l = before ++ join :: rest ∧ depth SqlToken.brace before = 0 ∧
    join.Is joinIds ∧ firstIn condKw rest = none ∧ 5 < rest.length

/-- A join that is followed by a comma, an ON or a USING is none with a long tail. -/
theorem longTail_after {before rest : List SqlToken} {cond : SqlToken}
    (outside : depth SqlToken.brace before = 0) (kind : cond.Is condKw) :
    LongTail (before ++ cond :: rest) ↔ LongTail rest := by
  have flat : cond.brace = 0 := kind.brace_eq (by decide)
  constructor
  · intro found
    obtain ⟨first, join, tail, split, level, isJoin, nothing, long⟩ := found
    obtain ⟨_, same, _⟩ | ⟨between, longer, same⟩ | ⟨between, longer, same⟩ :=
      Separator.append_cons_cases split
    · -- The join itself is not a condition.
      subst same
      simp only [SqlToken.Is, condKw, joinIds, List.mem_cons, List.not_mem_nil,
        or_false] at kind isJoin
      obtain isJoin | isJoin := isJoin <;> simp [isJoin] at kind
    · refine ⟨between, join, tail, same, ?_, isJoin, nothing, long⟩
      simp only [longer, depth_append, depth_cons, flat, outside] at level
      omega
    · -- The condition stands in the tail, and outside of braces as well.
      have joinFlat : join.brace = 0 := isJoin.brace_eq (by decide)
      have between0 : 0 + depth SqlToken.brace between = 0 := by
        simp only [longer, depth_append, depth_cons, joinFlat, level] at outside
        omega
      exact absurd kind (find_eq_none_iff.mp nothing between cond rest same between0)
  · intro found
    obtain ⟨first, join, tail, split, level, isJoin, nothing, long⟩ := found
    refine ⟨before ++ cond :: first, join, tail, by simp [split], ?_, isJoin, nothing, long⟩
    simp [depth_append, depth_cons, flat, outside, level]

/-- What is no comma among the ids of `joinKw` is a join. -/
theorem isJoin_of_not_comma {t : SqlToken} (kind : t.Is joinKw) (other : t.tokenId ≠ .comma) :
    t.Is joinIds := by
  simp only [SqlToken.Is, joinIds, joinKw, List.mem_cons, List.not_mem_nil, or_false] at kind ⊢
  obtain first | second | third := kind
  · exact Or.inl first
  · exact Or.inr second
  · exact absurd third other

/-- A join is one of the ids of `joinKw`. -/
theorem SqlToken.Is.joinKw {t : SqlToken} (isJoin : t.Is joinIds) : t.Is joinKw := by
  simp only [SqlToken.Is, joinIds, Sql.joinKw, List.mem_cons, List.not_mem_nil,
    or_false] at isJoin ⊢
  obtain first | second := isJoin
  · exact Or.inl first
  · exact Or.inr (Or.inl second)

/-- The index of a token, and what comes before it. -/
theorem tokenBefore_there {i : Nat} (positive : 1 ≤ i) (within : i ≤ ts.length) :
    ∃ id, tokenBefore ts i = some id := by
  obtain ⟨before, same⟩ : ∃ before, i = before + 1 := ⟨i - 1, by omega⟩
  obtain ⟨t, _, id⟩ := @tokenId_lt ts before (by omega)
  subst same
  exact ⟨t.tokenId, id⟩

section

/-! One round of the loop over joined tables. -/

variable {query : SQLQuery} {stop fuel : Nat} {s : Parsing} {table0End : Nat} {firstJoin : Bool}

/-- Nothing more is joined: the table since the last comma, if there was one, is the last. -/
theorem parseJoinedTables_last (inside : stop ≤ ts.length)
    (found : firstOf ts joinKw table0End stop = none) :
    parseJoinedTables ts query stop (fuel + 1) s table0End firstJoin =
      (tokenBefore ts table0End).bind fun id =>
        if id = .comma ∧ max table0End stop - table0End < 5 then
          (parseSimpleTableNameAndAlias ts s query table0End (max table0End stop)).map
            fun r => (!firstJoin, r.2)
        else some (!firstJoin, s) := by
  have search := @findTokens_eq _ _ (by decide : NoBrace joinKw) table0End _ inside
  rw [found] at search
  simp only [parseJoinedTables, search, Option.bind_eq_bind, Option.bind_some, if_true,
    Option.map_eq_bind]
  rfl

/-- A comma: the table since the last one is over, if it is short. -/
theorem parseJoinedTables_comma (inside : stop ≤ ts.length) {table1Start : Nat}
    (found : firstOf ts joinKw table0End stop = some table1Start)
    (comma : tokenId ts table1Start = some .comma) :
    parseJoinedTables ts query stop (fuel + 1) s table0End firstJoin =
      if table1Start - table0End < 5 then
        (parseSimpleTableNameAndAlias ts s query table0End table1Start).bind fun r =>
          parseJoinedTables ts query stop fuel r.2 (table1Start + 1) false
      else parseJoinedTables ts query stop fuel s (table1Start + 1) false := by
  have search := @findTokens_eq _ _ (by decide : NoBrace joinKw) table0End _ inside
  rw [found] at search
  simp only [parseJoinedTables, search, Option.bind_eq_bind, Option.bind_some, comma, if_true,
    Bool.true_eq_false, if_false]

/-- A join whose table is followed by a comma, an ON or a USING. -/
theorem parseJoinedTables_join (inside : stop ≤ ts.length) {table1Start table1End : Nat}
    {id : SqlTokenId} (found : firstOf ts joinKw table0End stop = some table1Start)
    (join : tokenId ts table1Start = some id) (other : id ≠ .comma)
    (ended : firstOf ts condKw (table1Start + 1) stop = some table1End) :
    parseJoinedTables ts query stop (fuel + 1) s table0End firstJoin =
      if table1End - (table1Start + 1) > 5 then
        parseJoinedTables ts query stop fuel s (table1End + 1) false
      else
        (parseSimpleTableNameAndAlias ts s query (table1Start + 1) table1End).bind fun r =>
          parseJoinedTables ts query stop fuel r.2 (table1End + 1) false := by
  have search := @findTokens_eq _ _ (by decide : NoBrace joinKw) table0End _ inside
  have searchEnd := @findTokens_eq _ _ (by decide : NoBrace condKw) (table1Start + 1) _ inside
  rw [found] at search
  rw [ended] at searchEnd
  simp only [parseJoinedTables, search, searchEnd, Option.bind_eq_bind, Option.bind_some, join,
    if_neg other, if_true, Bool.true_eq_false, if_false]

/-- A join whose table runs to the end. -/
theorem parseJoinedTables_joinLast (inside : stop ≤ ts.length) {table1Start : Nat}
    {id : SqlTokenId} (found : firstOf ts joinKw table0End stop = some table1Start)
    (join : tokenId ts table1Start = some id) (other : id ≠ .comma)
    (ended : firstOf ts condKw (table1Start + 1) stop = none) :
    parseJoinedTables ts query stop (fuel + 1) s table0End firstJoin =
      if stop - (table1Start + 1) > 5 then
        parseJoinedTables ts query stop fuel s (stop + 1) false
      else
        (parseSimpleTableNameAndAlias ts s query (table1Start + 1) stop).map fun r =>
          (true, r.2) := by
  -- A table of more than five tokens is skipped, and then nothing is left.
  have upper := (firstOf_spec found).2.1
  have search := @findTokens_eq _ _ (by decide : NoBrace joinKw) table0End _ inside
  have searchEnd := @findTokens_eq _ _ (by decide : NoBrace condKw) (table1Start + 1) _ inside
  have last : max (table1Start + 1) stop = stop := by omega
  rw [found] at search
  rw [ended, last] at searchEnd
  simp only [parseJoinedTables, search, searchEnd, Option.bind_eq_bind, Option.bind_some, join,
    if_neg other, Bool.true_eq_false, if_false, Bool.false_eq_true, Option.map_eq_bind]
  rfl

end

/-- Looking at a table that is there, and going on. -/
theorem isSome_parseSimple_bind {β : Type} (s : Parsing) (query : SQLQuery) {start stop : Nat}
    (inside : start < stop → stop ≤ ts.length) {next : Bool × Parsing → Option β} {goesOn : Prop}
    (after : ∀ r, (next r).isSome ↔ goesOn) :
    ((parseSimpleTableNameAndAlias ts s query start stop).bind next).isSome ↔ goesOn := by
  have there := (isSome_parseSimple_iff s query start stop).mpr inside
  obtain ⟨r, found⟩ := Option.isSome_iff_exists.mp there
  rw [found]
  exact after r

/-- Looking at the last table. -/
theorem isSome_parseSimple_map {β : Type} (s : Parsing) (query : SQLQuery) {start stop : Nat}
    (inside : start < stop → stop ≤ ts.length) (next : Bool × Parsing → β) :
    ((parseSimpleTableNameAndAlias ts s query start stop).map next).isSome := by
  rw [Option.isSome_map]
  exact (isSome_parseSimple_iff s query start stop).mpr inside

/-- Past the end of the list of tables, the token before that is read. -/
theorem isSome_parseJoinedTables_past (query : SQLQuery) {stop fuel : Nat}
    (inside : stop ≤ ts.length)
    (s : Parsing) (firstJoin : Bool) :
    (parseJoinedTables ts query stop (fuel + 1) s (stop + 1) firstJoin).isSome ↔
      stop < ts.length := by
  have nothing : firstOf ts joinKw (stop + 1) stop = none := by
    have empty : stop - (stop + 1) = 0 := by omega
    simp [firstOf, firstIn, window, empty, find]
  rw [parseJoinedTables_last inside nothing, tokenBefore]
  by_cases there : stop < ts.length
  · obtain ⟨t, _, id⟩ := tokenId_lt there
    simp only [id, Option.bind_some, there, iff_true]
    split
    · exact isSome_parseSimple_map s query (by omega) _
    · rfl
  · have missing : tokenId ts stop = none := tokenId_eq_none_iff.mpr (by omega)
    simp [missing, there]

/-- Without a join there is none with a long tail. -/
theorem not_longTail_of_none {start stop : Nat} (found : firstOf ts joinKw start stop = none) :
    ¬ LongTail (window ts start stop) := by
  intro found
  obtain ⟨first, join, tail, split, level, isJoin, _, _⟩ := found
  simp only [firstOf, Option.map_eq_none_iff] at found
  exact find_eq_none_iff.mp found first join tail split (by omega) isJoin.joinKw

/-- The first join has the longest tail. -/
theorem longTail_of_first {before rest : List SqlToken} {key : SqlToken}
    (nothing : firstIn joinKw before = none) :
    LongTail (before ++ key :: rest) → 5 < rest.length := by
  intro found
  obtain ⟨first, join, tail, split, level, isJoin, _, long⟩ := found
  obtain ⟨_, _, same⟩ | ⟨between, _, same⟩ | ⟨between, same, _⟩ :=
    Separator.append_cons_cases split
  · rwa [same]
  · rw [same, List.length_append, List.length_cons]
    omega
  · exact absurd isJoin.joinKw (find_eq_none_iff.mp nothing first join between same (by omega))

/-- The joined tables are read within the tokens, unless a join with a long tail ends them. -/
theorem isSome_parseJoinedTables_iff (query : SQLQuery) {stop : Nat} (inside : stop ≤ ts.length)
    (fuel : Nat) : ∀ (s : Parsing) (table0End : Nat) (firstJoin : Bool), 1 ≤ table0End →
      table0End ≤ stop → stop + 2 - table0End ≤ fuel →
      ((parseJoinedTables ts query stop fuel s table0End firstJoin).isSome ↔
        (stop < ts.length ∨ ¬ LongTail (window ts table0End stop))) := by
  induction fuel with
  | zero =>
    intro _ table0End _ _ _ enough
    omega
  | succ fuel ih =>
    intro s table0End firstJoin positive within enough
    cases found : firstOf ts joinKw table0End stop with
    | none =>
      -- Without a join or a comma, the token before is read, and perhaps one more table.
      obtain ⟨id, previous⟩ := @tokenBefore_there ts _ positive (by omega)
      rw [parseJoinedTables_last inside found, previous, Option.bind_some]
      simp only [not_longTail_of_none found, not_false_eq_true, or_true, iff_true]
      split
      · exact isSome_parseSimple_map s query (by omega) _
      · rfl
    | some table1Start =>
      obtain ⟨lower, upper, _⟩ := firstOf_spec found
      obtain ⟨key, there, kind, split, nothing, outside⟩ := firstOf_split found
      have id : tokenId ts table1Start = some key.tokenId := by simp [tokenId, there]
      by_cases comma : key.tokenId = .comma
      · -- After a comma the walk goes on with the next table.
        have isCond : key.Is condKw := by simp [SqlToken.Is, comma, condKw]
        have goesOn : ∀ s',
          ((parseJoinedTables ts query stop fuel s' (table1Start + 1) false).isSome ↔
            (stop < ts.length ∨ ¬ LongTail (window ts table0End stop))) := by
          intro s'
          rw [split, longTail_after outside isCond]
          exact ih s' (table1Start + 1) false (by omega) (by omega) (by omega)
        rw [parseJoinedTables_comma inside found (comma ▸ id)]
        split
        · exact isSome_parseSimple_bind s query (by omega) fun r => goesOn r.2
        · exact goesOn s
      · have isJoin := isJoin_of_not_comma kind comma
        cases ended : firstOf ts condKw (table1Start + 1) stop with
        | none =>
          have size := @length_window ts (table1Start + 1) _ inside
          rw [parseJoinedTables_joinLast inside found id comma ended]
          by_cases long : stop - (table1Start + 1) > 5
          · -- The walk steps past the end, where it reads one token more.
            obtain ⟨less, same⟩ : ∃ less, fuel = less + 1 := ⟨fuel - 1, by omega⟩
            have tail : LongTail (window ts table0End stop) := by
              refine ⟨_, key, _, split, outside, isJoin, ?_, by omega⟩
              simpa [firstOf] using ended
            rw [if_pos long, same, isSome_parseJoinedTables_past query inside]
            simp [tail]
          · have noTail : ¬ LongTail (window ts table0End stop) := by
              intro tail
              rw [split] at tail
              have tooLong := longTail_of_first nothing tail
              omega
            rw [if_neg long]
            simp only [noTail, not_false_eq_true, or_true, iff_true]
            exact isSome_parseSimple_map s query (by omega) _
        | some table1End =>
          obtain ⟨lowerEnd, upperEnd, _⟩ := firstOf_spec ended
          obtain ⟨cond, _, isCond, splitEnd, _, outsideEnd⟩ := firstOf_split ended
          -- The condition found is outside of braces in the longer range, too.
          have joined : window ts table0End stop =
              (window ts table0End table1Start ++ key :: window ts (table1Start + 1) table1End) ++
                cond :: window ts (table1End + 1) stop := by
            rw [split, splitEnd, List.append_assoc, List.cons_append]
          have level : depth SqlToken.brace
              (window ts table0End table1Start ++ key :: window ts (table1Start + 1) table1End) =
                  0 := by
            have joinFlat : key.brace = 0 := isJoin.brace_eq (by decide)
            simp [outside, outsideEnd, joinFlat]
          have goesOn : ∀ s',
            ((parseJoinedTables ts query stop fuel s' (table1End + 1) false).isSome ↔
              (stop < ts.length ∨ ¬ LongTail (window ts table0End stop))) := by
            intro s'
            rw [joined, longTail_after level isCond]
            exact ih s' (table1End + 1) false (by omega) (by omega) (by omega)
          rw [parseJoinedTables_join inside found id comma ended]
          split
          · exact goesOn s
          · exact isSome_parseSimple_bind s query (by omega) fun r => goesOn r.2

/-- A join is one of the ids of `firstKeyIds`. -/
theorem SqlToken.Is.firstKeyIds {t : SqlToken} (isJoin : t.Is joinIds) : t.Is firstKeyIds := by
  simp only [SqlToken.Is, joinIds, List.mem_cons, List.not_mem_nil, or_false] at isJoin
  obtain first | second := isJoin
  · simp [SqlToken.Is, Sql.firstKeyIds, first]
  · simp [SqlToken.Is, Sql.firstKeyIds, second]

/-- A table before the first key has no part in a long tail. -/
theorem longTail_skip {before rest : List SqlToken} (nothing : firstIn firstKeyIds before = none)
    (outside : depth SqlToken.brace before = 0) : LongTail (before ++ rest) ↔ LongTail rest := by
  -- A join is a key, so that none begins within what has no key at its own level.
  constructor
  · intro found
    obtain ⟨first, join, tail, split, level, isJoin, ended, long⟩ := found
    obtain ⟨more, same, rest'⟩ | ⟨more, same, rest'⟩ := List.append_eq_append_iff.mp split
    · refine ⟨more, join, tail, rest', ?_, isJoin, ended, long⟩
      simpa [same, outside] using level
    · cases more with
      | nil =>
        have same' : rest = join :: tail := rest'.symm
        exact ⟨[], join, tail, same', rfl, isJoin, ended, long⟩
      | cons t more =>
        obtain ⟨head, _⟩ := List.cons.inj rest'
        subst head
        exact absurd isJoin.firstKeyIds
          (find_eq_none_iff.mp nothing first join more same (by omega))
  · intro found
    obtain ⟨first, join, tail, split, level, isJoin, ended, long⟩ := found
    refine ⟨before ++ first, join, tail, by rw [split, List.append_assoc], ?_, isJoin, ended, long⟩
    simp [outside, level]

section

/-! One round of the loop over first tables. -/

variable {query : SQLQuery} {stop fuel : Nat} {s : Parsing} {i : Nat}

/-- The only table. -/
theorem parseFirstTable_only (inside : stop ≤ ts.length) (nonempty : i < stop)
    (found : firstOf ts firstKeyIds i stop = none) :
    parseFirstTable ts query stop (fuel + 1) s i =
      parseSimpleTableNameAndAlias ts s query i stop := by
  have search := @findTokens_eq _ _ (by decide : NoBrace firstKeyIds) i _ inside
  have last : max i stop = stop := by omega
  rw [found, last] at search
  simp only [parseFirstTable, if_pos nonempty, search, Option.bind_eq_bind, Option.bind_some,
    Bool.false_eq_true, if_false]

/-- A first table that is followed by another one. -/
theorem parseFirstTable_first (inside : stop ≤ ts.length) {table0End : Nat} {id : SqlTokenId}
    (found : firstOf ts firstKeyIds i stop = some table0End)
    (key : tokenId ts table0End = some id) :
    parseFirstTable ts query stop (fuel + 1) s i =
      if table0End - i > 5 then
        parseFirstTable ts query stop fuel s (if id = .comma then table0End + 1 else table0End)
      else
        (parseSimpleTableNameAndAlias ts s query i table0End).bind fun r =>
          parseJoinedTables ts query stop (stop + 2 - table0End) r.2 table0End true := by
  obtain ⟨lower, upper, _⟩ := firstOf_spec found
  have nonempty : i < stop := by omega
  have search := @findTokens_eq _ _ (by decide : NoBrace firstKeyIds) i _ inside
  rw [found] at search
  simp only [parseFirstTable, if_pos nonempty, search, Option.bind_eq_bind, Option.bind_some, key,
    if_true]

end

/--
The list of tables is read within the tokens, unless a join with a long tail ends it and them.
-/
theorem isSome_parseFirstTable_iff (query : SQLQuery) {stop : Nat} (inside : stop ≤ ts.length)
    (fuel : Nat) : ∀ (s : Parsing) (i : Nat), 1 ≤ i → stop + 1 - i ≤ fuel → 1 ≤ fuel →
      ((parseFirstTable ts query stop fuel s i).isSome ↔
        (stop < ts.length ∨ ¬ LongTail (window ts i stop))) := by
  induction fuel with
  | zero =>
    intro _ _ _ _ enough
    omega
  | succ fuel ih =>
    intro s i positive enough _
    by_cases nonempty : i < stop
    · cases found : firstOf ts firstKeyIds i stop with
      | none =>
        have noTail : ¬ LongTail (window ts i stop) := by
          have nothing : firstIn firstKeyIds (window ts i stop) =
            none := by simpa [firstOf] using found
          intro found
          obtain ⟨first, join, tail, split, level, isJoin, _⟩ := found
          exact find_eq_none_iff.mp nothing first join tail split (by omega) isJoin.firstKeyIds
        rw [parseFirstTable_only inside nonempty found, isSome_parseSimple_iff]
        simp [noTail, inside]
      | some table0End =>
        obtain ⟨lower, upper, _⟩ := firstOf_spec found
        obtain ⟨key, there, kind, split, nothing, outside⟩ := firstOf_split found
        have id : tokenId ts table0End = some key.tokenId := by simp [tokenId, there]
        -- What comes before the key does not matter, and the key itself only if it is a join.
        have fromKey : LongTail (window ts i stop) ↔ LongTail (window ts table0End stop) := by
          rw [window_split lower (Nat.le_of_lt upper), longTail_skip nothing outside]
        rw [parseFirstTable_first inside found id]
        split
        · rename_i long
          by_cases comma : key.tokenId = .comma
          · have isCond : key.Is condKw := by simp [SqlToken.Is, comma, condKw]
            rw [if_pos comma, split, longTail_after outside isCond]
            exact ih s (table0End + 1) (by omega) (by omega) (by omega)
          · rw [if_neg comma, fromKey]
            exact ih s table0End (by omega) (by omega) (by omega)
        · apply isSome_parseSimple_bind s query (by omega)
          intro r
          rw [fromKey]
          exact isSome_parseJoinedTables_iff query inside _ r.2 table0End true (by omega) (by omega)
            (Nat.le_refl _)
    · have empty : window ts i stop = [] := by
        have size : stop - i = 0 := by omega
        simp [window, size]
      have noTail : ¬ LongTail [] := by
        intro found
        obtain ⟨first, join, tail, split, _⟩ := found
        simp at split
      simp [parseFirstTable, nonempty, empty, noTail]

/-- The statements whose table is a single one. -/
def tableIds : List SqlTokenId :=
  [.sqlUpdate, .sqlInsert, .sqlReplace, .sqlDelete, .sqlCreate, .sqlAlter, .sqlDrop, .sqlDescribe,
    .sqlDesc, .sqlTruncate, .sqlShow, .sqlVacuum]

/-- Whether the tables of a statement are read within the tokens. -/
def Readable (ts : List SqlToken) (query : SQLQuery) : Prop :=
  ∃ id, tokenId ts query.tbegin = some id ∧
    if id = .sqlSelect then
      query.fromend < ts.length ∨ ¬ LongTail (window ts query.fromstart query.fromend)
    else if id ∈ tableIds then query.fromstart < query.fromend → query.fromend ≤ ts.length
    else True

/-- The list of tables of a SELECT begins after the FROM and ends within the tokens. -/
def WellFormed (ts : List SqlToken) (query : SQLQuery) : Prop :=
  tokenId ts query.tbegin = some .sqlSelect →
    1 ≤ query.fromstart ∧ query.fromstart ≤ query.fromend ∧ query.fromend ≤ ts.length

/-- The tables of a statement are found if and only if they can be read. -/
theorem isSome_parseQueryTable_iff (s : Parsing) {query : SQLQuery} (formed : WellFormed ts query) :
    (parseQueryTable ts s query).isSome ↔ Readable ts query := by
  unfold parseQueryTable Readable
  cases begins : tokenId ts query.tbegin with
  | none => simp
  | some id =>
    have simple : ((parseSimpleTableNameAndAlias ts s query query.fromstart query.fromend).bind
        fun r => some r.2).isSome ↔
            (query.fromstart < query.fromend → query.fromend ≤ ts.length) := by
      rw [← isSome_parseSimple_iff s query]
      cases parseSimpleTableNameAndAlias ts s query query.fromstart query.fromend <;> simp
    simp only [Option.bind_eq_bind, Option.bind_some, Option.some.injEq, exists_eq_left']
    split
    · obtain ⟨positive, order, inside⟩ := formed begins
      have tables := isSome_parseFirstTable_iff query inside (query.fromend - query.fromstart + 1) s
        query.fromstart positive (by omega) (by omega)
      rw [if_pos rfl, ← tables, parseTableNameAndAlias]
      cases parseFirstTable ts query query.fromend (query.fromend - query.fromstart + 1) s
        query.fromstart <;> simp
    any_goals exact simple
    -- No other statement has tables.
    simp only [tableIds, List.mem_cons, List.not_mem_nil, or_false]
    grind

/-- The tables of all statements are found if and only if they can be read. -/
theorem isSome_parseQueryTables_iff (queries : List SQLQuery) : ∀ (s : Parsing),
    (∀ query ∈ queries, WellFormed ts query) →
      ((parseQueryTables ts queries s).isSome ↔ ∀ query ∈ queries, Readable ts query) := by
  -- The induction is on the statements, whatever tables were found before.
  induction queries with
  | nil => simp [parseQueryTables]
  | cons query queries ih =>
    intro s formed
    have first := isSome_parseQueryTable_iff s (formed query (by simp))
    simp only [parseQueryTables, Option.bind_eq_bind, List.forall_mem_cons]
    cases found : parseQueryTable ts s query with
    | none =>
      rw [found] at first
      simp only [Option.bind_none, Option.isSome_none, Bool.false_eq_true, false_iff] at first ⊢
      exact fun both => first both.1
    | some s' =>
      rw [found] at first
      rw [Option.bind_some, ih s' fun other there =>
        formed other (List.mem_cons_of_mem query there)]
      simp only [Option.isSome_some, true_iff] at first
      simp [first]

end OneProxy.Sql
