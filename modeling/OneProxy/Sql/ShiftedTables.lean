import OneProxy.Sql.ShiftedParsing

/-! Which tables the parser finds when the tokens of a statement stand further back. -/

namespace OneProxy.Sql

variable {both : Prop} {ts ts' : List SqlToken} {k : Nat} {base s s' : Parsing}

/-- Dropping semicolons ends behind a token that is there. -/
theorem trimSemicolons_inside {start stop trimmed : Nat}
    (done : trimSemicolons ts start stop = some trimmed) (more : start < trimmed) :
    trimmed ≤ ts.length := by
  induction stop with
  | zero =>
    rw [← Option.some.inj done] at more
    omega
  | succ last ih =>
    rw [trimSemicolons] at done
    split at done
    · obtain ⟨id, there, done⟩ := Option.bind_eq_some_iff.mp done
      split at done
      · exact ih done
      · rw [← Option.some.inj done]
        exact lt_of_tokenId there
    · rw [← Option.some.inj done] at more
      omega

/-- The tokens of a range are the same. -/
theorem Agree.window (agree : Agree both ts ts' k) (start : Nat) {stop : Nat}
    (inside : stop ≤ ts.length) :
    (ts'.drop (start + k)).take (stop - start) = (ts.drop start).take (stop - start) := by
  apply List.ext_getElem?
  intro i
  by_cases within : i < stop - start
  · have token := agree.tokens (start + i)
    rw [List.getElem?_eq_getElem (by omega)] at token
    obtain ⟨t, found, same⟩ := token.exists_of_some rfl
    rw [List.getElem?_take_of_lt within, List.getElem?_take_of_lt within, List.getElem?_drop,
      List.getElem?_drop, Nat.add_right_comm, found, same, List.getElem?_eq_getElem]
  · rw [List.getElem?_take_eq_none (by omega), List.getElem?_take_eq_none (by omega)]

/-- Both sides go on in the same way, with the same tables. -/
def AlikeTables (k : Nat) (ts : List SqlToken) (base : Parsing) (r r' : Bool × Parsing) : Prop :=
  r'.1 = r.1 ∧ Alike k ts base r.2 r'.2

section

variable (agree : Agree both ts ts' k)

include agree

theorem alike_parseSimple (alike : Alike k ts base s s') (query query' : SQLQuery)
    (start stop : Nat) :
    Alongside both (AlikeTables k ts base) (parseSimpleTableNameAndAlias ts s query start stop)
      (parseSimpleTableNameAndAlias ts' s' query' (start + k) (stop + k)) := by
  refine Alongside.bind_map (trimSemicolons_shift agree start stop) fun stop trimmed => ?_
  refine Alongside.ite (by omega) (fun _ => Alongside.of_some ⟨rfl, alike⟩) fun more => ?_
  have inside := trimSemicolons_inside trimmed (by omega)
  rw [Nat.add_sub_add_right, agree.window start inside]
  cases simpleTable ((ts.drop start).take (stop - start)) with
  | none => exact Alongside.of_some ⟨rfl, alike⟩
  | some found =>
    refine Alongside.of_some ⟨rfl, ?_⟩
    dsimp only
    rw [Nat.add_right_comm]
    exact alike.addTable _ _ _ _ _

theorem alike_parseJoinedTables (query query' : SQLQuery) (stop fuel : Nat) :
    ∀ s s' table0End firstJoin, 1 ≤ table0End → Alike k ts base s s' →
      Alongside both (AlikeTables k ts base)
        (parseJoinedTables ts query stop fuel s table0End firstJoin)
        (parseJoinedTables ts' query' (stop + k) fuel s' (table0End + k)
          firstJoin) := by
  induction fuel with
  | zero => exact fun s s' table0End firstJoin _ _ => Alongside.of_none
  | succ fuel ih =>
    intro s s' table0End firstJoin positive alike
    -- The walk goes on behind the comma, or behind the condition.
    have later : ∀ r r' place, Alike k ts base r r' → Alongside both (AlikeTables k ts base)
        (parseJoinedTables ts query stop fuel r (place + 1) false)
        (parseJoinedTables ts' query' (stop + k) fuel r' (place + k + 1) false) := by
      intro r r' place alike
      rw [Nat.add_right_comm]
      exact ih r r' (place + 1) false (Nat.le_add_left _ _) alike
    refine Alongside.bind_map (findTokens_shift agree _ _ _) fun key _ => ?_
    obtain ⟨found, table1Start⟩ := key
    dsimp only [movedFound]
    refine Alongside.ite Iff.rfl (fun _ => ?_) fun _ => ?_
    · refine Alongside.bind_same (tokenBefore_shift agree positive) fun id _ => ?_
      rw [Nat.add_sub_add_right]
      refine Alongside.ite Iff.rfl (fun _ => ?_) fun _ => Alongside.of_some ⟨rfl, alike⟩
      exact Alongside.bind (alike_parseSimple agree alike _ _ _ _)
        fun r r' _ related => Alongside.of_some ⟨rfl, related.2⟩
    refine Alongside.bind_same (agree.id _) fun id _ => ?_
    refine Alongside.ite Iff.rfl (fun _ => ?_) fun _ => ?_
    · rw [Nat.add_sub_add_right]
      refine Alongside.ite Iff.rfl (fun _ => ?_) fun _ => later s s' _ alike
      exact Alongside.bind (alike_parseSimple agree alike _ _ _ _)
        fun r r' _ related => later _ _ _ related.2
    refine Alongside.bind_map (findTokens_shift_next agree _ _ _) fun ended _ => ?_
    obtain ⟨found', table1End⟩ := ended
    dsimp only [movedFound]
    refine Alongside.ite (by omega) (fun _ => later s s' _ alike) fun _ => ?_
    rw [Nat.add_right_comm]
    refine Alongside.bind (alike_parseSimple agree alike _ _ _ _) fun r r' _ related => ?_
    exact Alongside.ite Iff.rfl (fun _ => later _ _ _ related.2) fun _ =>
      Alongside.of_some ⟨rfl, related.2⟩

omit agree in
theorem findTokensFrom_le {tokIds : List SqlTokenId} (count : Nat) : ∀ (i : Nat) (c : Int)
    (r : Bool × Nat), findTokensFrom ts tokIds count i c = some r → i ≤ r.2 := by
  induction count with
  | zero => exact fun i c r done => by rw [← Option.some.inj done]
  | succ count ih =>
    intro i c r done
    obtain ⟨id, _, done⟩ := Option.bind_eq_some_iff.mp done
    have later : ∀ c, findTokensFrom ts tokIds count (i + 1) c = some r → i ≤ r.2 :=
      fun c done => Nat.le_of_succ_le (ih (i + 1) c r done)
    split at done
    · exact later _ done
    · split at done
      · exact later _ done
      · split at done
        · rw [← Option.some.inj done]
        · exact later _ done

omit agree in
/-- What a search comes to lies behind its beginning. -/
theorem findTokens_le {tokIds : List SqlTokenId} {start stop : Nat} {r : Bool × Nat}
    (done : findTokens ts start stop tokIds = some r) : start ≤ r.2 :=
  findTokensFrom_le _ _ _ _ done

theorem alike_parseFirstTable (query query' : SQLQuery) (stop fuel : Nat) :
    ∀ s s' i, 1 ≤ i → Alike k ts base s s' →
      Alongside both (AlikeTables k ts base) (parseFirstTable ts query stop fuel s i)
        (parseFirstTable ts' query' (stop + k) fuel s' (i + k)) := by
  -- The induction is on the fuel, which is the same for both.
  induction fuel with
  | zero => exact fun s s' i _ _ => Alongside.of_none
  | succ fuel ih =>
    intro s s' i positive alike
    refine Alongside.ite (by omega) (fun more => ?_) fun _ => Alongside.of_some ⟨rfl, alike⟩
    refine Alongside.bind_map (findTokens_shift agree _ _ _) fun key search => ?_
    obtain ⟨found, table0End⟩ := key
    have lower := findTokens_le search
    dsimp only [movedFound] at lower ⊢
    refine Alongside.ite Iff.rfl (fun _ => ?_) fun _ => alike_parseSimple agree alike _ _ _ _
    refine Alongside.bind_same (agree.id _) fun id _ => ?_
    have behind : (if id = SqlTokenId.comma then table0End + k + 1 else table0End + k) =
        (if id = SqlTokenId.comma then table0End + 1 else table0End) + k := by
      split <;> omega
    have count : stop + k + 2 - (table0End + k) = stop + 2 - table0End := by omega
    rw [Nat.add_sub_add_right, behind, count]
    refine Alongside.ite Iff.rfl (fun _ => ih _ _ _ (by split <;> omega) alike) fun _ => ?_
    refine Alongside.bind (alike_parseSimple agree alike _ _ _ _) fun r r' _ related => ?_
    exact alike_parseJoinedTables agree _ _ _ _ _ _ _ _ (by omega) related.2

theorem alike_parseQueryTable (alike : Alike k ts base s s') {query query' : SQLQuery}
    (moved : Moved k ts query query') :
    Alongside both (Alike k ts base) (parseQueryTable ts s query)
      (parseQueryTable ts' s' query') := by
  rw [parseQueryTable, parseQueryTable, moved.tbegin, moved.fromstart, moved.fromend]
  refine Alongside.bind_same (agree.id _) fun id begins => ?_
  have simple := alike_parseSimple agree alike query query' query.fromstart query.fromend
  split
  · have count : query.fromend + k - (query.fromstart + k) + 1 =
        query.fromend - query.fromstart + 1 := by omega
    rw [parseTableNameAndAlias, parseTableNameAndAlias, count]
    exact Alongside.bind (alike_parseFirstTable agree _ _ _ _ _ _ _ (moved.positive begins) alike)
      fun r r' _ related => Alongside.of_some related.2
  any_goals exact Alongside.bind simple fun r r' _ related => Alongside.of_some related.2
  exact Alongside.of_some alike

theorem alike_parseQueryTables {queries queries' : List SQLQuery}
    (moved : List.Forall₂ (Moved k ts) queries queries') : ∀ s s', Alike k ts base s s' →
      Alongside both (Alike k ts base) (parseQueryTables ts queries s)
        (parseQueryTables ts' queries' s') := by
  induction moved with
  | nil => exact fun s s' alike => Alongside.of_some alike
  | cons first _ ih =>
    intro s s' alike
    exact Alongside.bind (alike_parseQueryTable agree alike first) fun r r' _ alike => ih r r' alike

end

end OneProxy.Sql
