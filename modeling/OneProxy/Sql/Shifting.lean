import OneProxy.Lib.Alongside
import OneProxy.Sql.Windows

/-! What the searches of the parser find when the tokens stand further back. -/

namespace OneProxy.Sql

variable {both : Prop} {ts ts' : List SqlToken} {k : Nat}

/--
The same tokens, `k` places further back; others may follow them, unless `both` lists are to end
there.
-/
structure Agree (both : Prop) (ts ts' : List SqlToken) (k : Nat) : Prop where
  tokens : ∀ i, Alongside both (fun t t' => t' = t) ts[i]? ts'[i + k]?
  length : ts.length + k ≤ ts'.length

/-- Tokens behind others are the same tokens. -/
theorem agree_append (before ts : List SqlToken) : Agree True ts (before ++ ts) before.length where
  tokens i := by
    rw [List.getElem?_append_right (by omega), Nat.add_sub_cancel]
    cases ts[i]? with
    | none => exact Alongside.of_none
    | some t => exact Alongside.of_some rfl
  length := by
    rw [List.length_append]
    omega

/-- Tokens that others follow are the same tokens. -/
theorem agree_prefix (ts behind : List SqlToken) : Agree False ts (ts ++ behind) 0 where
  tokens i := by
    by_cases inside : i < ts.length
    · rw [Nat.add_zero, List.getElem?_append_left inside, List.getElem?_eq_getElem inside]
      exact Alongside.of_some rfl
    · rw [List.getElem?_eq_none (by omega)]
      cases (ts ++ behind)[i + 0]? with
      | none => exact Alongside.of_none
      | some t => exact not_false
  length := by
    rw [List.length_append]
    omega

/-- The two results are the same but for the place. -/
def movedFound (k : Nat) (r : Bool × Nat) : Bool × Nat := (r.1, r.2 + k)

section

variable (agree : Agree both ts ts' k)

include agree

theorem Agree.id (i : Nat) :
    Alongside both (fun id id' => id' = id) (tokenId ts i) (tokenId ts' (i + k)) :=
  (agree.tokens i).map fun _ _ same => congrArg _ same

theorem Agree.next (i j : Nat) :
    Alongside both (fun id id' => id' = id) (tokenId ts (i + j)) (tokenId ts' (i + k + j)) := by
  rw [Nat.add_right_comm]
  exact agree.id (i + j)

/-- Where there is a token, it is the same. -/
theorem Agree.tokenId_eq {i : Nat} {id : SqlTokenId} (there : tokenId ts i = some id) :
    tokenId ts' (i + k) = some id := by
  obtain ⟨id', found, rfl⟩ := (agree.id i).exists_of_some there
  exact found

theorem tokenBefore_shift {i : Nat} (positive : 1 ≤ i) :
    Alongside both (fun id id' => id' = id) (tokenBefore ts i) (tokenBefore ts' (i + k)) := by
  obtain ⟨j, rfl⟩ := Nat.exists_eq_add_of_le' positive
  rw [Nat.add_right_comm]
  exact agree.id j

theorem findTokenFrom_shift (tokId : SqlTokenId) (count : Nat) : ∀ (i : Nat) (c : Int),
    Alongside both (fun place place' => place' = place + k) (findTokenFrom ts tokId count i c)
      (findTokenFrom ts' tokId count (i + k) c) := by
  induction count with
  | zero => exact fun i c => Alongside.of_some rfl
  | succ count ih =>
    intro i c
    have next : ∀ c, Alongside both (fun place place' => place' = place + k)
        (findTokenFrom ts tokId count (i + 1) c) (findTokenFrom ts' tokId count (i + k + 1) c) := by
      intro c
      rw [Nat.add_right_comm]
      exact ih (i + 1) c
    refine Alongside.bind_same (agree.id i) fun id _ =>
      Alongside.ite Iff.rfl (fun _ => ?_) fun _ => ?_
    · exact Alongside.ite Iff.rfl (fun _ => next _) fun _ =>
        Alongside.ite Iff.rfl (fun _ => next _) fun _ => next _
    · exact Alongside.of_some rfl

theorem findToken_shift (tokId : SqlTokenId) (start stop : Nat) :
    Alongside both (fun r r' => r' = movedFound k r) (findToken ts start stop tokId)
      (findToken ts' (start + k) (stop + k) tokId) := by
  rw [findToken, findToken, Nat.add_sub_add_right]
  refine (findTokenFrom_shift agree tokId _ start 0).bind_map fun i _ => Alongside.of_some ?_
  simp [movedFound]

theorem findToken_shift_next (tokId : SqlTokenId) (start stop : Nat) :
    Alongside both (fun r r' => r' = movedFound k r) (findToken ts (start + 1) stop tokId)
      (findToken ts' (start + k + 1) (stop + k) tokId) := by
  rw [Nat.add_right_comm]
  exact findToken_shift agree tokId (start + 1) stop

theorem findTokensFrom_shift (tokIds : List SqlTokenId) (count : Nat) : ∀ (i : Nat) (c : Int),
    Alongside both (fun r r' => r' = movedFound k r) (findTokensFrom ts tokIds count i c)
      (findTokensFrom ts' tokIds count (i + k) c) := by
  induction count with
  | zero => exact fun i c => Alongside.of_some rfl
  | succ count ih =>
    intro i c
    have next : ∀ c, Alongside both (fun r r' => r' = movedFound k r)
        (findTokensFrom ts tokIds count (i + 1) c)
            (findTokensFrom ts' tokIds count (i + k + 1) c) := by
      intro c
      rw [Nat.add_right_comm]
      exact ih (i + 1) c
    refine Alongside.bind_same (agree.id i) fun id _ => ?_
    refine Alongside.ite Iff.rfl (fun _ => next _) fun _ => ?_
    refine Alongside.ite Iff.rfl (fun _ => next _) fun _ => ?_
    exact Alongside.ite Iff.rfl (fun _ => Alongside.of_some rfl) fun _ => next _

theorem findTokens_shift (tokIds : List SqlTokenId) (start stop : Nat) :
    Alongside both (fun r r' => r' = movedFound k r) (findTokens ts start stop tokIds)
      (findTokens ts' (start + k) (stop + k) tokIds) := by
  rw [findTokens, findTokens, Nat.add_sub_add_right]
  exact findTokensFrom_shift agree tokIds _ start 0

theorem findTokens_shift_next (tokIds : List SqlTokenId) (start stop : Nat) :
    Alongside both (fun r r' => r' = movedFound k r) (findTokens ts (start + 1) stop tokIds)
      (findTokens ts' (start + k + 1) (stop + k) tokIds) := by
  rw [Nat.add_right_comm]
  exact findTokens_shift agree tokIds (start + 1) stop

theorem skipSomeHeaderTokens_shift (tokId : SqlTokenId) (count : Nat) : ∀ start,
    Alongside both (fun place place' => place' = place + k)
      (skipSomeHeaderTokens ts tokId count start)
      (skipSomeHeaderTokens ts' tokId count (start + k)) := by
  induction count with
  | zero => exact fun start => Alongside.of_some rfl
  | succ count ih =>
    intro start
    refine Alongside.bind_same (agree.id start) fun id _ => ?_
    rw [Nat.add_right_comm]
    exact Alongside.ite Iff.rfl (fun _ => ih (start + 1)) fun _ => Alongside.of_some rfl

theorem skipExternTokensInHeader_shift (start stop : Nat) :
    Alongside both (fun place place' => place' = place + k) (skipExternTokensInHeader ts start stop)
      (skipExternTokensInHeader ts' (start + k) (stop + k)) := by
  rw [skipExternTokensInHeader, skipExternTokensInHeader, Nat.add_sub_add_right]
  refine (skipSomeHeaderTokens_shift agree _ _ start).bind_map fun middle _ => ?_
  rw [Nat.add_sub_add_right]
  exact skipSomeHeaderTokens_shift agree _ _ middle

/-- Where the list of tables is, if there is one. -/
theorem getSqlFrom_shift (start stop : Nat) :
    Alongside both (fun r r' => r' = (r.1, r.2.1 + k, if r.1 then r.2.2 + k else 0))
      (getSqlFrom ts start stop) (getSqlFrom ts' (start + k) (stop + k)) := by
  refine (findToken_shift agree _ _ _).bind_map fun r _ => ?_
  obtain ⟨found, i⟩ := r
  refine Alongside.ite Iff.rfl (fun absent => ?_) fun _ => ?_
  · exact Alongside.of_some (by simp)
  · refine (findTokens_shift_next agree _ _ _).bind_map fun ended _ => Alongside.of_some ?_
    simp only [if_true, Nat.add_right_comm i k 1]

theorem trimSemicolons_shift (start stop : Nat) :
    Alongside both (fun place place' => place' = place + k) (trimSemicolons ts start stop)
      (trimSemicolons ts' (start + k) (stop + k)) := by
  induction stop with
  | zero =>
    have empty : trimSemicolons ts' (start + k) (0 + k) = some (0 + k) := by
      rw [Nat.zero_add]
      cases k with
      | zero => rfl
      | succ k => rw [trimSemicolons, if_neg (by omega)]
    rw [empty]
    exact Alongside.of_some rfl
  | succ last ih =>
    rw [Nat.add_right_comm, trimSemicolons, trimSemicolons]
    refine Alongside.ite (by omega) (fun order => ?_) fun _ =>
      Alongside.of_some (Nat.add_right_comm ..)
    refine Alongside.bind_same (agree.id last) fun id _ => ?_
    exact Alongside.ite Iff.rfl (fun _ => ih) fun _ => Alongside.of_some (Nat.add_right_comm ..)

theorem dottedEnd_shift (fromstart tend : Nat) :
    Alongside both (fun place place' => place' = place + k) (dottedEnd ts fromstart tend)
      (dottedEnd ts' (fromstart + k) (tend + k)) := by
  refine Alongside.ite (by omega) (fun more => ?_) fun _ =>
    Alongside.of_some (Nat.add_right_comm ..)
  refine Alongside.bind_same (agree.next fromstart 1) fun id _ => Alongside.of_some ?_
  split <;> simp only [Nat.add_right_comm fromstart k]

theorem insertTableEnd_shift (count : Nat) : ∀ i,
    Alongside both (fun place place' => place' = place + k) (insertTableEnd ts count i)
      (insertTableEnd ts' count (i + k)) := by
  induction count with
  | zero => exact fun i => Alongside.of_some rfl
  | succ count ih =>
    intro i
    refine Alongside.bind_same (agree.id i) fun id _ => ?_
    rw [Nat.add_right_comm]
    exact Alongside.ite Iff.rfl (fun _ => Alongside.of_some rfl) fun _ => ih (i + 1)

theorem findSemicolon_shift (count : Nat) : ∀ i,
    Alongside both (fun place place' => place' = place + k) (findSemicolon ts count i)
      (findSemicolon ts' count (i + k)) := by
  induction count with
  | zero => exact fun i => Alongside.of_some rfl
  | succ count ih =>
    intro i
    refine Alongside.bind_same (agree.id i) fun id _ => ?_
    rw [Nat.add_right_comm]
    exact Alongside.ite Iff.rfl (fun _ => Alongside.of_some rfl) fun _ => ih (i + 1)

/-- The loop ends at the same token, if there are turns enough to come to the end of the tokens. -/
theorem skipIfNotExists_shift (fuel : Nat) : ∀ fuel' i, ts.length < i + fuel →
      ts'.length < i + k + fuel' →
    Alongside both (fun place place' => place' = place + k) (skipIfNotExists ts fuel i)
      (skipIfNotExists ts' fuel' (i + k)) := by
  -- Behind the tokens of the one there may still be tokens of the other.
  have beyond : ∀ fuel' i, ts.length ≤ i →
      Alongside both (fun place place' => place' = place + k) none
          (skipIfNotExists ts' fuel' (i + k)) := by
    intro fuel' i outside
    have missing := agree.id i
    rw [tokenId_eq_none_iff.mpr outside] at missing
    cases fuel' with
    | zero => exact Alongside.of_none
    | succ fuel' => exact missing.none_bind
  induction fuel with
  | zero => exact fun fuel' i enough _ => beyond fuel' i (by omega)
  | succ fuel ih =>
    intro fuel' i enough enough'
    cases fuel' with
    | zero =>
      have length := agree.length
      have missing : skipIfNotExists ts (fuel + 1) i = none := by
        rw [skipIfNotExists, tokenId_eq_none_iff.mpr (by omega)]
        rfl
      rw [missing]
      exact Alongside.of_none
    | succ fuel' =>
      refine Alongside.bind_same (agree.id i) fun id _ => ?_
      rw [Nat.add_right_comm]
      exact Alongside.ite Iff.rfl (fun _ => ih fuel' (i + 1) (by omega) (by omega)) fun _ =>
        Alongside.of_some rfl

/-- The search for the values ends at the same token. -/
theorem insertValues_shift (fromend tend : Nat) :
    Alongside both (fun r r' => r'.2 = r.2 + k) (insertValues ts fromend tend)
      (insertValues ts' (fromend + k) (tend + k)) := by
  -- The search for VALUES is the same behind a list of columns and without one.
  have searched : Alongside both (fun r r' => r'.2 = r.2 + k)
      ((findTokens ts fromend tend valuesIds).bind fun r =>
        if r.1 then (tokenId ts (r.2 + 1)).bind fun id =>
          some (if id = SqlTokenId.obrace then r.2 else 0, r.2) else some (0, r.2))
      ((findTokens ts' (fromend + k) (tend + k) valuesIds).bind fun r =>
        if r.1 then (tokenId ts' (r.2 + 1)).bind fun id =>
          some (if id = SqlTokenId.obrace then r.2 else 0, r.2) else some (0, r.2)) := by
    refine (findTokens_shift agree _ _ _).bind_map fun found _ => ?_
    refine Alongside.ite Iff.rfl (fun _ => ?_) fun _ => Alongside.of_some rfl
    exact Alongside.bind_same (agree.next _ 1) fun id _ => Alongside.of_some rfl
  refine Alongside.bind_same (agree.id fromend) fun id _ => ?_
  refine Alongside.ite Iff.rfl (fun _ => ?_) fun _ => ?_
  · refine Alongside.bind_same ?_ fun listed _ => ?_
    · exact (agree.next fromend 1).map fun _ _ same => by rw [same]
    · exact Alongside.ite Iff.rfl (fun _ => Alongside.of_some rfl) fun _ => searched
  · exact Alongside.ite Iff.rfl (fun _ => Alongside.of_some rfl) fun _ => searched

end

end OneProxy.Sql
