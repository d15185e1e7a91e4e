import OneProxy.Lib.TopLevel
import OneProxy.Sql.SqlParser

/-! What the searches of the parser find in a range of tokens. -/

namespace OneProxy.Sql

open TopLevel

/-- What a token adds to the number of braces that are open. -/
def SqlToken.brace (t : SqlToken) : Int :=
  if t.tokenId = .obrace then 1 else if t.tokenId = .cbrace then -1 else 0

/-- A token of one of these kinds. -/
def SqlToken.Is (tokIds : List SqlTokenId) (t : SqlToken) : Prop := t.tokenId ∈ tokIds

instance (tokIds : List SqlTokenId) : DecidablePred (SqlToken.Is tokIds) :=
  fun t => inferInstanceAs (Decidable (t.tokenId ∈ tokIds))

/-- Neither brace is among the ids. -/
def NoBrace (tokIds : List SqlTokenId) : Prop := .obrace ∉ tokIds ∧ .cbrace ∉ tokIds

instance (tokIds : List SqlTokenId) : Decidable (NoBrace tokIds) :=
  inferInstanceAs (Decidable (_ ∧ _))

/-- Where the first token of these kinds is that stands outside of braces. -/
def firstIn (tokIds : List SqlTokenId) (l : List SqlToken) : Option Nat :=
  find SqlToken.brace (SqlToken.Is tokIds) 0 l

variable (ts : List SqlToken)

/-- The tokens of a range. -/
def window (start stop : Nat) : List SqlToken := (ts.drop start).take (stop - start)

/-- Where the first token of these kinds is in a range, outside of braces. -/
def firstOf (tokIds : List SqlTokenId) (start stop : Nat) : Option Nat :=
  (firstIn tokIds (window ts start stop)).map (start + ·)

variable {ts}

/-- There is a token at every index below the number of tokens. -/
theorem tokenId_lt {i : Nat} (inside : i < ts.length) :
    ∃ t, ts[i]? = some t ∧ tokenId ts i = some t.tokenId := by
  refine ⟨ts[i], List.getElem?_eq_getElem inside, ?_⟩
  rw [tokenId, List.getElem?_eq_getElem inside]
  rfl

/-- There is no token at any other index. -/
theorem tokenId_eq_none_iff {i : Nat} : tokenId ts i = none ↔ ts.length ≤ i := by
  simp [tokenId]

theorem lt_of_tokenId {i : Nat} {id : SqlTokenId} (there : tokenId ts i = some id) :
    i < ts.length := by
  by_contra outside
  rw [tokenId_eq_none_iff.mpr (by omega)] at there
  cases there

/-- A range begins with its first token. -/
theorem drop_eq_cons {i : Nat} {t : SqlToken} (there : ts[i]? = some t) :
    ts.drop i = t :: ts.drop (i + 1) := by
  obtain ⟨inside, same⟩ := List.getElem?_eq_some_iff.mp there
  rw [List.drop_eq_getElem_cons inside, same]

/-- What is found is a token of the range, of one of the kinds. -/
theorem firstOf_spec {tokIds : List SqlTokenId} {start stop i : Nat}
    (found : firstOf ts tokIds start stop = some i) :
    start ≤ i ∧ i < stop ∧ i < ts.length ∧ ∃ id ∈ tokIds, tokenId ts i = some id := by
  simp only [firstOf, Option.map_eq_some_iff] at found
  obtain ⟨k, found, place⟩ := found
  obtain ⟨before, t, rest, split, length, _, _, kind⟩ := find_eq_some_iff.mp found
  have here : (window ts start stop)[k]? = some t := by
    rw [split, ← length, List.getElem?_append_right (by omega)]
    simp
  have bound := find_lt found
  simp only [window, List.length_take, List.length_drop] at bound
  have token : ts[i]? = some t := by
    rw [window, List.getElem?_take_of_lt (by omega), List.getElem?_drop, place] at here
    exact here
  exact ⟨by omega, by omega, by omega, t.tokenId, kind, by simp [tokenId, token]⟩

/-- The search of `findTokens` is the one for symbols outside of brackets. -/
theorem findTokensFrom_eq {tokIds : List SqlTokenId} (plain : NoBrace tokIds) (count : Nat) :
    ∀ (i : Nat) (c : Int), i + count ≤ ts.length →
      findTokensFrom ts tokIds count i c =
        match find SqlToken.brace (SqlToken.Is tokIds) c ((ts.drop i).take count) with
        | some k => some (true, i + k)
        | none => some (false, i + count) := by
  induction count with
  | zero => simp [findTokensFrom, find]
  | succ count ih =>
    intro i c inside
    obtain ⟨t, there, id⟩ := @tokenId_lt ts i (by omega)
    -- The rest of the range is searched in the same way, one token further.
    have rest : ∀ c', findTokensFrom ts tokIds count (i + 1) c' =
        match (find SqlToken.brace (SqlToken.Is tokIds) c' ((ts.drop (i + 1)).take count)).map
            (· + 1) with
        | some k => some (true, i + k)
        | none => some (false, i + (count + 1)) := by
      intro c'
      rw [ih (i + 1) c' (by omega)]
      cases find SqlToken.brace (SqlToken.Is tokIds) c' ((ts.drop (i + 1)).take count) with
      | some k => simp [Nat.add_comm, Nat.add_left_comm]
      | none => simp [Nat.add_comm, Nat.add_left_comm]
    simp only [findTokensFrom, id, Option.bind_eq_bind, Option.bind_some, drop_eq_cons there,
      List.take_succ_cons, find, rest, SqlToken.Is]
    by_cases isOpen : t.tokenId = .obrace
    · have other : t.tokenId ∉ tokIds := isOpen ▸ plain.1
      simp [isOpen, SqlToken.brace, plain.1]
    · by_cases isClose : t.tokenId = .cbrace
      · simp [isClose, SqlToken.brace, plain.2, Int.sub_eq_add_neg]
      · by_cases hit : c = 0 ∧ t.tokenId ∈ tokIds
        · simp [isOpen, isClose, hit]
        · simp [isOpen, isClose, hit, SqlToken.brace]

/-- The search of `findToken` is that of `findTokens` for a single kind. -/
theorem findTokenFrom_eq {tokId : SqlTokenId} (plain : NoBrace [tokId]) (count : Nat) :
    ∀ (i : Nat) (c : Int),
      findTokenFrom ts tokId count i c = (findTokensFrom ts [tokId] count i c).map (·.2) := by
  obtain ⟨notOpen, notClose⟩ := plain
  rw [List.mem_singleton] at notOpen notClose
  induction count with
  | zero =>
    intro i c
    rfl
  | succ count ih =>
    intro i c
    cases id : tokenId ts i with
    | none => simp [findTokenFrom, findTokensFrom, id]
    | some id' =>
      simp only [findTokenFrom, findTokensFrom, id, Option.bind_eq_bind, Option.bind_some, ih,
        List.mem_singleton]
      -- The kind searched for is no brace, so that both tell braces apart in the same way.
      by_cases isOpen : id' = .obrace
      · simp [isOpen, notOpen]
      · by_cases isClose : id' = .cbrace
        · simp [isClose, notClose]
        · by_cases hit : c = 0 ∧ id' = tokId
          · simp [hit, Ne.symm notOpen, Ne.symm notClose]
          · have goesOn : c ≠ 0 ∨ id' ≠ tokId := by
              by_cases zero : c = 0
              · exact Or.inr fun same => hit ⟨zero, same⟩
              · exact Or.inl zero
            simp [isOpen, isClose, hit, goesOn]

/-- What `findTokens` finds in a range that lies inside. -/
theorem findTokens_eq {tokIds : List SqlTokenId} (plain : NoBrace tokIds) {start stop : Nat}
    (inside : stop ≤ ts.length) :
    findTokens ts start stop tokIds =
      match firstOf ts tokIds start stop with
      | some i => some (true, i)
      | none => some (false, max start stop) := by
  by_cases order : start ≤ stop
  · rw [findTokens, findTokensFrom_eq plain _ _ _ (by omega), firstOf, firstIn, window]
    have last : start + (stop - start) = max start stop := by omega
    cases find SqlToken.brace (SqlToken.Is tokIds) 0 ((ts.drop start).take (stop - start)) with
    | some k => rfl
    | none => simp [last]
  · have empty : stop - start = 0 := by omega
    have last : start = max start stop := by omega
    simp [findTokens, firstOf, firstIn, window, empty, findTokensFrom, find, ← last]

/-- What `findToken` finds in a range that lies inside. -/
theorem findToken_eq {tokId : SqlTokenId} (plain : NoBrace [tokId]) {start stop : Nat}
    (inside : stop ≤ ts.length) :
    findToken ts start stop tokId =
      match firstOf ts [tokId] start stop with
      | some i => some (true, i)
      | none => some (false, max start stop) := by
  have searched := @findTokens_eq _ _ plain start _ inside
  rw [findTokens] at searched
  rw [findToken, findTokenFrom_eq plain, searched]
  cases found : firstOf ts [tokId] start stop with
  | none =>
    have outside : stop ≤ max start stop := Nat.le_max_right start stop
    simpa using outside
  | some i =>
    have bound := (firstOf_spec found).2.1
    simp [bound]

/-- A token that is searched for in the tokens from one on. -/
theorem findToken_drop {tokId : SqlTokenId} (plain : NoBrace [tokId]) {start : Nat}
    (inside : start ≤ ts.length) : findToken ts start ts.length tokId =
      some ((firstIn [tokId] (ts.drop start)).elim (false, ts.length) fun i =>
        (true, start + i)) := by
  have whole : window ts start ts.length = ts.drop start := by
    rw [window]
    exact List.take_of_length_le (by rw [List.length_drop])
  rw [findToken_eq plain (Nat.le_refl _), firstOf, whole, Nat.max_eq_right inside]
  cases firstIn [tokId] (ts.drop start) <;> rfl

/-- What is found in tokens is within them. -/
theorem firstIn_lt {tokIds : List SqlTokenId} {i : Nat} (found : firstIn tokIds ts = some i) :
    i < ts.length := TopLevel.find_lt found

end OneProxy.Sql
