import Mathlib.Data.Nat.Find
import Mathlib.Order.Bounds.Basic
import OneProxy.Sql.TableReads

/-! Both searches of the parser for one kind of token are the same search. -/

namespace OneProxy.Sql

open TopLevel

/-- A token of a kind at an index of a range, and as many braces opened as closed before it. -/
structure TokenAt (ts : List SqlToken) (tokId : SqlTokenId) (start stop i : Nat) : Prop where
  lower : start ≤ i
  upper : i < stop
  kind : tokenId ts i = some tokId
  balanced : (window ts start i).countP (·.tokenId = .obrace) =
    (window ts start i).countP (·.tokenId = .cbrace)

/-- How many braces are open is what was opened less what was closed. -/
theorem depth_brace (l : List SqlToken) : depth SqlToken.brace l =
    (l.countP (·.tokenId = .obrace) : Int) - l.countP (·.tokenId = .cbrace) := by
  induction l with
  | nil => rfl
  | cons t l ih =>
    rw [depth_cons, ih, SqlToken.brace, List.countP_cons, List.countP_cons]
    -- The token adds to at most one of the two counts.
    cases t.tokenId <;> simp only [reduceCtorEq, decide_true, decide_false, if_true, if_false,
      Bool.false_eq_true] <;> omega

section

variable {ts : List SqlToken} {tokId : SqlTokenId}

/-- The indices that a search can end at, if so many braces are open where it begins. -/
def Hits (ts : List SqlToken) (tokId : SqlTokenId) (count i : Nat) (c : Int) : Set Nat :=
  {j | i ≤ j ∧ j < i + count ∧ tokenId ts j = some tokId ∧
    c + depth SqlToken.brace (window ts i j) = 0}

/-- Behind a token that ends no search, the search is one with its brace counted. -/
theorem hits_succ {count i : Nat} {c : Int} {t : SqlToken} (there : ts[i]? = some t)
    (passed : ¬ (c = 0 ∧ t.tokenId = tokId)) :
    Hits ts tokId (count + 1) i c = Hits ts tokId count (i + 1) (c + t.brace) := by
  ext j
  constructor
  · rintro ⟨lower, upper, kind, level⟩
    have later : i ≠ j := by
      rintro rfl
      rw [tokenId, there] at kind
      refine passed ⟨?_, Option.some.inj kind⟩
      rw [window, Nat.sub_self, List.take_zero, depth_nil, Int.add_zero] at level
      exact level
    rw [window_cons there (by omega), depth_cons] at level
    exact ⟨by omega, by omega, kind, by omega⟩
  · rintro ⟨lower, upper, kind, level⟩
    refine ⟨by omega, by omega, kind, ?_⟩
    rw [window_cons there (by omega), depth_cons]
    omega

/-- A search finds the least index that it can end at, whether or not every token is there. -/
theorem findTokensFrom_iff (plain : NoBrace [tokId]) (count : Nat) : ∀ (i j : Nat) (c : Int),
    findTokensFrom ts [tokId] count i c = some (true, j) ↔ IsLeast (Hits ts tokId count i c) j := by
  induction count with
  | zero =>
    intro i j c
    constructor
    · intro found
      cases found
    · rintro ⟨⟨lower, upper, _⟩, _⟩
      omega
  | succ count ih =>
    intro i j c
    by_cases inside : i < ts.length
    · obtain ⟨t, there, id⟩ := tokenId_lt inside
      rw [findTokensFrom, id]
      by_cases hit : c = 0 ∧ t.tokenId = tokId
      · -- The search ends at once, and no index is less than the one it begins at.
        obtain ⟨level, kind⟩ := hit
        have member : i ∈ Hits ts tokId (count + 1) i c := by
          refine ⟨Nat.le_refl i, by omega, by rw [id, kind], ?_⟩
          rw [level, window, Nat.sub_self, List.take_zero, depth_nil, Int.add_zero]
        have least : IsLeast (Hits ts tokId (count + 1) i c) i := ⟨member, fun k hit => hit.1⟩
        obtain ⟨notOpen, notClose⟩ := plain
        rw [List.mem_singleton] at notOpen notClose
        rw [Option.bind_eq_bind, Option.bind_some, kind, if_neg (Ne.symm notOpen),
          if_neg (Ne.symm notClose), if_pos ⟨level, List.mem_singleton_self _⟩]
        constructor
        · intro same
          obtain ⟨_, rfl⟩ := Prod.mk.injEq .. ▸ Option.some.inj same
          exact least
        · intro other
          rw [least.unique other]
      · rw [hits_succ there hit, ← ih]
        simp only [Option.bind_eq_bind, Option.bind_some, SqlToken.brace, List.mem_singleton]
        by_cases opens : t.tokenId = .obrace
        · rw [if_pos opens, if_pos opens]
        · by_cases closes : t.tokenId = .cbrace
          · rw [if_neg opens, if_pos closes, if_neg opens, if_pos closes]
            rfl
          · rw [if_neg opens, if_neg closes, if_neg hit, if_neg opens, if_neg closes, Int.add_zero]
    · have outside : tokenId ts i = none := tokenId_eq_none_iff.mpr (by omega)
      rw [findTokensFrom, outside]
      constructor
      · intro found
        cases found
      · rintro ⟨⟨lower, _, kind, _⟩, _⟩
        have within := lt_of_tokenId kind
        omega

/-- A search that finds nothing has gone through all tokens. -/
theorem findTokensFrom_false {tokIds : List SqlTokenId} {count : Nat} : ∀ {i j : Nat} {c : Int},
    findTokensFrom ts tokIds count i c = some (false, j) → j = i + count := by
  induction count with
  | zero =>
    intro i j c done
    cases done
    rfl
  | succ count ih =>
    intro i j c done
    obtain ⟨id, _, done⟩ := Option.bind_eq_some_iff.mp done
    split_ifs at done
    · rw [ih done]
      omega
    · rw [ih done]
      omega
    · cases done
    · rw [ih done]
      omega

/-- The search of a range can end at the tokens of the kind outside of braces. -/
theorem mem_hits_iff {start stop i : Nat} :
    i ∈ Hits ts tokId (stop - start) start 0 ↔ TokenAt ts tokId start stop i := by
  constructor
  · rintro ⟨lower, upper, kind, level⟩
    rw [depth_brace] at level
    exact ⟨lower, by omega, kind, by omega⟩
  · rintro ⟨lower, upper, kind, balanced⟩
    refine ⟨lower, by omega, kind, ?_⟩
    rw [depth_brace]
    omega

/-- The one search is the other, for a list of one kind that is no brace. -/
theorem findToken_eq_findTokens (plain : NoBrace [tokId]) (start stop : Nat) :
    findToken ts start stop tokId = findTokens ts start stop [tokId] := by
  rw [findToken, findTokens, findTokenFrom_eq plain]
  cases searched : findTokensFrom ts [tokId] (stop - start) start 0 with
  | none => rfl
  | some r =>
    obtain ⟨found, j⟩ := r
    rw [Option.map_some, Option.bind_eq_bind, Option.bind_some]
    cases found with
    | true =>
      obtain ⟨⟨_, upper, _⟩, _⟩ := (findTokensFrom_iff plain _ _ _ _).mp searched
      rw [decide_eq_true (show j < stop by omega)]
    | false =>
      have last : j = start + (stop - start) := findTokensFrom_false searched
      rw [decide_eq_false (show ¬ j < stop by omega)]

/-- A search finds the least token of the range that is outside of braces. -/
theorem findToken_iff (plain : NoBrace [tokId]) (start stop i : Nat) :
    findToken ts start stop tokId = some (true, i) ↔
      IsLeast {i | TokenAt ts tokId start stop i} i := by
  have hits : Hits ts tokId (stop - start) start 0 = {i | TokenAt ts tokId start stop i} :=
    Set.ext fun j => mem_hits_iff
  rw [findToken_eq_findTokens plain, findTokens, findTokensFrom_iff plain, hits]

/-- If there is such a token, one is found. -/
theorem findToken_exists (plain : NoBrace [tokId]) {start stop i : Nat}
    (there : TokenAt ts tokId start stop i) : ∃ j, findToken ts start stop tokId =
      some (true, j) := by
  classical
  have some_ : ∃ j, TokenAt ts tokId start stop j := ⟨i, there⟩
  exact ⟨Nat.find some_, (findToken_iff plain _ _ _).mpr
    ⟨Nat.find_spec some_, fun k hit => Nat.find_min' some_ hit⟩⟩

end

/--
Both searches for a kind of token that is no brace give the same, which is the least index of the
range with such a token and as many braces opened as closed before it, or the end of the range if
there is none.
-/
theorem findToken_least (ts : List SqlToken) (start stop : Nat) (tokId : SqlTokenId)
    (notOpen : tokId ≠ .obrace) (notClose : tokId ≠ .cbrace) :
    findToken ts start stop tokId = findTokens ts start stop [tokId] ∧
      (∀ i, findToken ts start stop tokId = some (true, i) ↔
        IsLeast {i | TokenAt ts tokId start stop i} i) ∧
      ((∀ i, ¬ TokenAt ts tokId start stop i) → (start < stop → stop ≤ ts.length) →
        findToken ts start stop tokId = some (false, if start > stop then start else stop)) := by
  have plain : NoBrace [tokId] :=
    ⟨fun member => notOpen (List.mem_singleton.mp member).symm,
      fun member => notClose (List.mem_singleton.mp member).symm⟩
  have least := fun i => @findToken_iff ts _ plain start stop i
  refine ⟨findToken_eq_findTokens plain start stop, least, fun nothing present => ?_⟩
  by_cases order : start < stop
  · rw [if_neg (by omega)]
    -- Every token of the range is there, so the search ends, and it ends at none of them.
    have searched := @findToken_eq ts _ plain start stop (present order)
    cases found : firstOf ts [tokId] start stop with
    | some i =>
      rw [found] at searched
      exact absurd ((least i).mp searched).1 (nothing i)
    | none =>
      rw [found, Nat.max_eq_right (by omega)] at searched
      exact searched
  · have empty : stop - start = 0 := by omega
    have last : (if start > stop then start else stop) = start := by
      split_ifs <;> omega
    rw [last, findToken, empty, findTokenFrom, Option.bind_eq_bind, Option.bind_some,
      decide_eq_false order]

/-- The search for `FROM` passes by the one within the braces of `(FROM) FROM`. -/
theorem findToken_least_braced :
    findToken ([.obrace, .sqlFrom, .cbrace, .sqlFrom].map (SqlToken.mk · [])) 0 4 .sqlFrom =
        some (true, 3) ∧
      findToken ([.obrace, .sqlFrom, .cbrace, .sqlFrom].map (SqlToken.mk · [])) 0 2 .sqlFrom =
        some (false, 2) := by
  refine ⟨((findToken_least _ 0 4 .sqlFrom (by decide) (by decide)).2.1 3).mpr ⟨?_, ?_⟩,
    (findToken_least _ 0 2 .sqlFrom (by decide) (by decide)).2.2 ?_ (by decide)⟩
  · exact ⟨by decide, by decide, by decide, by decide⟩
  · rintro k ⟨_, upper, kind, balanced⟩
    by_contra less
    have cases : k = 0 ∨ k = 1 ∨ k = 2 := by omega
    rcases cases with rfl | rfl | rfl
    · exact absurd kind (by decide)
    · exact absurd balanced (by decide)
    · exact absurd kind (by decide)
  · rintro k ⟨_, upper, kind, balanced⟩
    have cases : k = 0 ∨ k = 1 := by omega
    rcases cases with rfl | rfl
    · exact absurd kind (by decide)
    · exact absurd balanced (by decide)

end OneProxy.Sql
