import OneProxy.Sql.TokenStore

/-! Every token is in one place, kept tokens are empty, and what is appended reads as given. -/

namespace OneProxy.Sql

open Runs

namespace TokenStore

variable {s : TokenStore} {object : TokenObject} {held : List TokenObject}
  {tokenId : SqlTokenId} {text : Bytes}

/-! ## Where the tokens are -/

/--
Every token that was made is in one place.

A place is the statement, the cache, or the hands of a function. Only the tokens of the statement
have a text.
-/
structure Holding (held : List TokenObject) (s : TokenStore) : Prop where
  once : ((held ++ (s.tokens ++ s.tokenCache)).map (·.address)).Perm (List.range s.made)
  heldEmpty : ∀ object ∈ held, object.token.text = []
  cacheEmpty : ∀ object ∈ s.tokenCache, object.token.text = []

/-- Between two calls, no function holds a token. -/
abbrev WellFormed (s : TokenStore) : Prop := s.Holding []

theorem wellFormed_new : (new : TokenStore).WellFormed where
  once := .refl _
  heldEmpty _ member := absurd member List.not_mem_nil
  cacheEmpty _ member := absurd member List.not_mem_nil

/-- A token that is taken is held. -/
theorem Holding.take (holding : s.Holding held) :
    s.getSqlTokenFromCache.2.Holding (s.getSqlTokenFromCache.1 :: held) := by
  have once := holding.once
  cases cache : s.tokenCache with
  | nil =>
    have taken : s.getSqlTokenFromCache =
        (⟨s.made, ⟨.unknown, []⟩⟩, { s with made := s.made + 1 }) := by
      rw [getSqlTokenFromCache, cache]
    rw [taken]
    refine ⟨?_, ?_, holding.cacheEmpty⟩
    · -- A new token has the next address.
      simp only [List.cons_append, List.map_cons, List.range_succ]
      exact (once.cons _).trans (List.perm_append_singleton _ _).symm
    · intro other member
      rcases List.mem_cons.mp member with rfl | member
      · rfl
      · exact holding.heldEmpty other member
  | cons first rest =>
    have taken : s.getSqlTokenFromCache = (first, { s with tokenCache := rest }) := by
      rw [getSqlTokenFromCache, cache]
    rw [taken]
    refine ⟨?_, ?_, ?_⟩
    · simp only [cache] at once
      simp only [List.cons_append, List.map_cons]
      have middle : held ++ (s.tokens ++ first :: rest) = (held ++ s.tokens) ++ first :: rest := by
        simp
      rw [middle, List.map_append, List.map_cons] at once
      have back := List.perm_middle.symm.trans once
      rwa [← List.map_append, List.append_assoc] at back
    · intro other member
      rcases List.mem_cons.mp member with rfl | member
      · exact holding.cacheEmpty other (cache ▸ List.mem_cons_self)
      · exact holding.heldEmpty other member
    · intro other member
      exact holding.cacheEmpty other (cache ▸ List.mem_cons_of_mem _ member)

@[simp] theorem tokens_take : s.getSqlTokenFromCache.2.tokens = s.tokens := by
  rw [getSqlTokenFromCache]
  split <;> rfl

@[simp] theorem values_take : s.getSqlTokenFromCache.2.values = s.values := by
  rw [values, tokens_take, values]

/-- A token that is put behind the others is no longer held. -/
theorem Holding.push (holding : s.Holding (object :: held)) :
    (s.push object tokenId text).Holding held := by
  refine ⟨?_, fun other member => holding.heldEmpty other (List.mem_cons_of_mem _ member),
    holding.cacheEmpty⟩
  have once := holding.once
  simp only [TokenStore.push, List.map_append, List.map_cons, List.cons_append, List.append_assoc,
    List.nil_append] at once ⊢
  have middle : ∀ address : Nat, held.map (·.address) ++ (s.tokens.map (·.address) ++ address ::
      s.tokenCache.map (·.address)) = (held.map (·.address) ++ s.tokens.map (·.address)) ++
        address :: s.tokenCache.map (·.address) := fun address => by simp
  rw [middle]
  refine List.perm_middle.trans ?_
  rwa [List.append_assoc]

/-- A token that was held has no text but the one appended to it. -/
theorem Holding.values_push (holding : s.Holding (object :: held)) :
    (s.push object tokenId text).values = s.values ++ [⟨tokenId, text⟩] := by
  simp [values, TokenStore.push, holding.heldEmpty object List.mem_cons_self]

theorem Holding.appendOther (holding : s.Holding held) :
    (s.appendOther tokenId text).Holding held := holding.take.push

theorem Holding.values_appendOther (holding : s.Holding held) :
    (s.appendOther tokenId text).values = s.values ++ [⟨tokenId, text⟩] := by
  rw [TokenStore.appendOther, holding.take.values_push, values_take]

/-! ## What is appended -/

/-- The id of the last token of a list. -/
def lastOf (ts : List SqlToken) : Option SqlTokenId := ts.getLast?.map (·.tokenId)

theorem lastId_eq : s.lastId = lastOf s.values := by
  rw [lastId, lastOf, values, List.getLast?_map, Option.map_map]
  rfl

/-- The tokens that a number with a sign comes to, or any other one. -/
def appended (ts : List SqlToken) (tokenId : SqlTokenId) (text : Bytes) : List SqlToken :=
  if signed tokenId text && (lastOf ts).any (· ∈ operandIds) then
    ts ++ [if text.head? = some 45 then ⟨.minus, [45]⟩ else ⟨.plus, [43]⟩, ⟨tokenId, text.tail⟩]
  else ts ++ [⟨tokenId, text⟩]

/-- `appendToken`, with the token it takes first. -/
theorem appendToken_eq : s.appendToken tokenId text =
    if signed tokenId text && (lastOf s.values).any (· ∈ operandIds) then
      (if text.head? = some 45 then s.getSqlTokenFromCache.2.appendOther .minus [45]
        else s.getSqlTokenFromCache.2.appendOther .plus [43]).push s.getSqlTokenFromCache.1 tokenId
          text.tail
    else s.getSqlTokenFromCache.2.push s.getSqlTokenFromCache.1 tokenId text := by
  rw [← lastId_eq]
  rfl

theorem WellFormed.appendToken (wf : s.WellFormed) : (s.appendToken tokenId text).WellFormed := by
  rw [appendToken_eq]
  split
  · split
    · exact wf.take.appendOther.push
    · exact wf.take.appendOther.push
  · exact wf.take.push

/-- What `appendToken` does depends on nothing but the tokens of the statement. -/
theorem WellFormed.values_appendToken (wf : s.WellFormed) :
    (s.appendToken tokenId text).values = appended s.values tokenId text := by
  rw [appendToken_eq, appended]
  split
  · split
    · rw [wf.take.appendOther.values_push, wf.take.values_appendOther, values_take,
        List.append_assoc]
      rfl
    · rw [wf.take.appendOther.values_push, wf.take.values_appendOther, values_take,
        List.append_assoc]
      rfl
  · rw [wf.take.values_push, values_take]

theorem WellFormed.reset (wf : s.WellFormed) : s.reset.WellFormed := by
  refine ⟨?_, fun other member => absurd member List.not_mem_nil, ?_⟩
  · have once := wf.once
    simp only [TokenStore.reset, List.nil_append, List.map_append, List.map_map] at once ⊢
    exact List.perm_append_comm.trans once
  · intro other member
    rcases List.mem_append.mp member with kept | cleared
    · exact wf.cacheEmpty other kept
    · obtain ⟨object, _, rfl⟩ := List.mem_map.mp cleared
      rfl

/-- The tokens whose last one has a text appended to it. -/
def appendedToLast (ts : List SqlToken) (text : Bytes) : List SqlToken :=
  match ts.getLast? with
  | none => ts
  | some last => ts.dropLast ++ [{ last with text := last.text ++ text }]

theorem WellFormed.appendTokenToLast (wf : s.WellFormed) :
    (s.appendTokenToLast text).WellFormed := by
  rw [TokenStore.appendTokenToLast]
  cases last : s.tokens.getLast? with
  | none => exact wf
  | some object =>
    refine ⟨?_, wf.heldEmpty, wf.cacheEmpty⟩
    have once := wf.once
    have parts := List.dropLast_append_getLast? object last
    rw [← parts] at once
    simpa using once

theorem values_appendTokenToLast :
    (s.appendTokenToLast text).values = appendedToLast s.values text := by
  have same : s.values.getLast? = s.tokens.getLast?.map (·.token) := by
    rw [values, List.getLast?_map]
  rw [TokenStore.appendTokenToLast, appendedToLast, same]
  cases s.tokens.getLast? with
  | none => rfl
  | some object => simp [values, List.map_dropLast]

/-- In every run, every token is in one place and the kept ones are empty. -/
theorem wellFormed_of_reachable (reached : Reachable storeRuns s) : s.WellFormed := by
  apply reached.invariant
  · intro start begun
    exact begun ▸ wellFormed_new
  · intro before call after wf done
    cases call with
    | reset => exact Option.some.inj done ▸ wf.reset
    | appendToken tokenId text => exact Option.some.inj done ▸ wf.appendToken
    | appendTokenToLast text => exact Option.some.inj done ▸ wf.appendTokenToLast

end TokenStore

/-! ## The sign of a number -/

open TokenStore

/-- Two parsers have the same token ids, and print the same pattern. -/
def SamePattern (s t : TokenStore) : Prop :=
  s.values.map (·.tokenId) = t.values.map (·.tokenId) ∧
    toPatternQuery s.values = toPatternQuery t.values

/-- `-` or `+`. -/
def signOf (minus : Bool) : Bytes := if minus then [45] else [43]

/-- The operator that a sign can be. -/
def operatorOf (minus : Bool) : SqlTokenId := if minus then .minus else .plus

/-- The tokens that end an operand. -/
def endsOperand : List SqlTokenId := [.literal, .integer, .float, .string, .cbrace]

/-- A number with a sign behind an operand. -/
theorem signed_sign (number : SqlTokenId)
    (isNumber : number ∈ ([.integer, .float] : List SqlTokenId))
    (minus : Bool) (n : Bytes) : signed number (signOf minus ++ n) = true := by
  simp only [List.mem_cons, List.not_mem_nil, or_false] at isNumber
  rcases isNumber with rfl | rfl <;> cases minus <;> rfl

/-- The operator and the number without its sign are two tokens. -/
theorem values_apart {s : TokenStore} (wf : s.WellFormed) (number : SqlTokenId) (minus : Bool)
    (n : Bytes) : ((s.appendToken (operatorOf minus) (signOf minus)).appendToken number n).values =
      s.values ++ [⟨operatorOf minus, signOf minus⟩, ⟨number, n⟩] := by
  have operator : appended s.values (operatorOf minus) (signOf minus) =
      s.values ++ [⟨operatorOf minus, signOf minus⟩] := by
    cases minus <;> rfl
  -- Behind the operator, the number is appended as it is.
  have behind : (lastOf (s.values ++ [⟨operatorOf minus, signOf minus⟩])).any (· ∈ operandIds) =
      false := by
    rw [lastOf, List.getLast?_concat]
    cases minus <;> rfl
  rw [wf.appendToken.values_appendToken, wf.values_appendToken, operator, appended, behind,
    Bool.and_false, if_neg (by simp), List.append_assoc]
  rfl

/--
Behind an operand, a number with a sign reads as an operator and a number, but not behind a brace.
-/
theorem appendToken_sign_iff (s : TokenStore) (reached : Reachable storeRuns s) (last : SqlTokenId)
    (ends : s.lastId = some last) (operand : last ∈ endsOperand) (number : SqlTokenId)
    (isNumber : number ∈ ([.integer, .float] : List SqlTokenId)) (minus : Bool) (n : Bytes) :
    SamePattern (s.appendToken number (signOf minus ++ n))
      ((s.appendToken (operatorOf minus) (signOf minus)).appendToken number n) ↔
        last ≠ .cbrace := by
  have wf := wellFormed_of_reachable reached
  have isSigned := signed_sign number isNumber minus n
  have behind : (lastOf s.values).any (· ∈ operandIds) = (last ∈ operandIds : Bool) := by
    rw [← lastId_eq, ends]
    rfl
  rw [SamePattern, values_apart wf, wf.values_appendToken, appended, isSigned, behind,
    Bool.true_and]
  by_cases brace : last = .cbrace
  · -- The number keeps its sign, and there is a token less.
    subst brace
    rw [if_neg (by decide)]
    refine iff_of_false (fun same => ?_) (fun other => other rfl)
    have length := congrArg List.length same.1
    simp at length
  · have inside : last ∈ operandIds := by
      simp only [endsOperand, List.mem_cons, List.not_mem_nil, or_false] at operand
      rcases operand with rfl | rfl | rfl | rfl | rfl
      · decide
      · decide
      · decide
      · decide
      · exact absurd rfl brace
    rw [if_pos (by simpa using inside)]
    refine iff_of_true ?_ brace
    cases minus <;> exact ⟨rfl, rfl⟩

/-- Behind `x`. -/
theorem appendToken_sign_literal :
    SamePattern ((TokenStore.new.appendToken .literal [120]).appendToken .integer [45, 49])
      (((TokenStore.new.appendToken .literal [120]).appendToken .minus [45]).appendToken .integer
        [49]) :=
  (appendToken_sign_iff _ (@Reachable.next _ _ storeRuns _ _ (.appendToken .literal [120])
    (Reachable.start rfl) rfl) .literal rfl (by decide) .integer (by decide) true [49]).mpr
      (by decide)

/-- The tokens of `(x)`. -/
def braced : TokenStore :=
  ((TokenStore.new.appendToken .obrace [40]).appendToken .literal [120]).appendToken .cbrace [41]

/-- Behind a closing brace, a number keeps its sign. -/
theorem braced_sign_differs : Reachable storeRuns braced ∧ braced.lastId = some .cbrace ∧
    ¬ SamePattern (braced.appendToken .integer [45, 49])
      ((braced.appendToken .minus [45]).appendToken .integer [49]) ∧
    toPatternQuery (braced.appendToken .integer [45, 49]).values = [40, 120, 41, 32, 63] ∧
    toPatternQuery ((braced.appendToken .minus [45]).appendToken .integer [49]).values =
      [40, 120, 41, 32, 45, 32, 63] := by
  refine ⟨?_, rfl, fun same => absurd same.1 (by decide), by decide, by decide⟩
  have start : Reachable storeRuns .new := Reachable.start rfl
  have first := @Reachable.next _ _ storeRuns _ _ (.appendToken .obrace [40]) start rfl
  have second := @Reachable.next _ _ storeRuns _ _ (.appendToken .literal [120]) first rfl
  exact @Reachable.next _ _ storeRuns _ _ (.appendToken .cbrace [41]) second rfl

end OneProxy.Sql
