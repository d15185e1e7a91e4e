import OneProxy.Sql.FoundQueries
import OneProxy.Sql.ParserKeeps
import OneProxy.Sql.TokenReads
import OneProxy.Sql.Tokenizer

/-! Which SELECTs in parentheses are found, and how often. -/

namespace OneProxy.Sql

open TopLevel

variable (ts : List SqlToken)

/-! ## SELECTs in parentheses -/

/-- A SELECT that stands in parentheses. -/
structure Subquery (a z : Nat) : Prop where
  pair : BracePair ts a z
  select : tokenId ts (a + 1) = some .sqlSelect

/-- A SELECT in parentheses that are within others, or are the same. -/
structure SubqueryIn (o c a z : Nat) : Prop extends Subquery ts a z where
  lower : o ≤ a
  upper : z ≤ c

/-- The statements that begin at a token. -/
def beginningAt (place : Nat) (found : List SQLQuery) : List SQLQuery :=
  found.filter fun query => decide (query.tbegin = place)

/-- There is exactly one statement for the SELECT, and it has the ranges of the SELECT. -/
def RecordedOnce (found : List SQLQuery) (a z : Nat) : Prop :=
  ∃ query, selectQuery ts (a + 1) z = some query ∧ beginningAt (a + 1) found = [query]

/-- The SELECTs that are joined by UNION, from those that follow. -/
def armsStep (found : Nat × Nat → List Nat) (range : Nat × Nat) : List Nat :=
  range.1 :: (nextArm ts range.1 range.2).elim [] fun next => found (next, range.2)

/-- Where the SELECTs of a range begin that are joined by UNION. -/
def arms (range : Nat × Nat) : List Nat :=
  Recursion.bounded (armsStep ts) (fun _ => []) (range.2 - range.1 + 1) range

/-- All parts of these SELECTs that are searched, each up to the end of the next list of tables. -/
def searched (range : Nat × Nat) : List (Nat × Nat) :=
  (arms ts range).flatMap fun p => (selectQuery ts p range.2).elim [] searchedParts

/-- How often a pair of parentheses is searched. -/
def timesSearched (range : Nat × Nat) (o c : Nat) : Nat :=
  (searched ts range).countP fun part => decide (part.1 ≤ o ∧ c < part.2)

/--
A pair of parentheses is searched once, and it has nothing in it but further parentheses around a
SELECT with a FROM, in which the same is true of all pairs with a SELECT in them.

The parentheses around the SELECT need not be a pair themselves if its ranges end before them.
-/
inductive Taken : Nat → Nat → Nat → Nat → Prop
  | intro {b e o c a stop close f : Nat}
    (once : timesSearched ts (b, e) o c = 1)
    (direct : (a + 1, stop) ∈ peeled ts o (c + 1))
    (pair : BracePair ts a close)
    (own : firstOf ts [.sqlFrom] (a + 1) close = some f)
    (ends : stop = close ∨ (firstOf ts [.sqlUnion] (a + 1) close).isSome ∧
      (firstOf ts fromEndIds (f + 1) close).isSome)
    (covered : ∀ a' z', SubqueryIn ts o c a' z' → a < a' → ∃ o' c', Outermost ts (a + 1) o' c' ∧
      c' < stop ∧ SubqueryIn ts o' c' a' z')
    (inner : ∀ o' c' a' z', Outermost ts (a + 1) o' c' → c' < stop → SubqueryIn ts o' c' a' z' →
      Taken (a + 1) stop o' c') :
    Taken b e o c

variable {ts}

/-! ## Levels of searched parts -/

/-- What is found is outside of braces. -/
theorem level_of_firstOf {tokIds : List SqlTokenId} {start stop i : Nat}
    (found : firstOf ts tokIds start stop = some i) : level ts start i = 0 := by
  obtain ⟨t, _, _, _, _, flat⟩ := firstOf_split found
  exact flat

/-- So is the place behind it. -/
theorem level_behind_firstOf {tokIds : List SqlTokenId} (plain : NoBrace tokIds)
    {start stop i : Nat}
    (found : firstOf ts tokIds start stop = some i) : level ts start (i + 1) = 0 := by
  obtain ⟨lower, _, _, id, kind, there⟩ := firstOf_spec found
  rw [level_flat lower there (fun same => plain.1 (same ▸ kind))
    (fun same => plain.2 (same ▸ kind)),
    level_of_firstOf found]

section

variable {b e : Nat} {query : SQLQuery}

/-- The next SELECT is outside of braces. -/
theorem level_nextArm {next : Nat} (found : nextArm ts b e = some next) : level ts b next = 0 := by
  obtain ⟨u, union, there⟩ := Option.bind_eq_some_iff.mp found
  have lower := (firstOf_spec union).1
  have behind := level_behind_firstOf (by decide) union
  dsimp only at there
  have flat : level ts b (if tokenId ts (u + 1) = some .sqlAll then u + 2 else u + 1) = 0 := by
    split
    · next all => rw [level_flat (Nat.le_succ_of_le lower) all (by decide) (by decide), behind]
    · exact behind
  generalize (if tokenId ts (u + 1) = some .sqlAll then u + 2 else u + 1) = place at there flat
  split at there
  · obtain rfl := Option.some.inj there
    exact flat
  · cases there

/-- There is no brace in front of the next SELECT. -/
theorem nextArm_apart {a : Nat} (found : nextArm ts b e = some (a + 1)) :
    tokenId ts a ≠ some .obrace := by
  obtain ⟨u, union, there⟩ := Option.bind_eq_some_iff.mp found
  obtain ⟨_, _, _, id, kind, here⟩ := firstOf_spec union
  obtain rfl := List.mem_singleton.mp kind
  dsimp only at there
  by_cases all : tokenId ts (u + 1) = some .sqlAll
  · rw [if_pos all] at there
    split at there
    · obtain rfl : u + 1 = a := by
        rw [Option.some.injEq] at there
        omega
      rw [all]
      decide
    · cases there
  · rw [if_neg all] at there
    split at there
    · obtain rfl : u = a := by
        rw [Option.some.injEq] at there
        omega
      rw [here]
      decide
    · cases there

/-- What is searched begins outside of braces. -/
theorem level_searchedParts (found : selectQuery ts b e = some query) {part : Nat × Nat}
    (member : part ∈ searchedParts query) (some_ : part.1 < part.2) : level ts b part.1 = 0 := by
  obtain ⟨f, from', rfl⟩ := Option.map_eq_some_iff.mp found
  have lower := (firstOf_spec from').1
  have behind := level_behind_firstOf (by decide) from'
  simp only [searchedParts, List.mem_cons, List.not_mem_nil, or_false] at member
  rcases member with rfl | rfl | rfl
  · exact level_self b
  · exact behind
  · dsimp only at some_ ⊢
    rw [whereRange] at some_ ⊢
    cases condition : firstOf ts [.sqlWhere] ((firstOf ts fromEndIds (f + 1) e).getD e)
        ((firstOf ts [.sqlUnion] b e).getD e) with
    | none =>
      rw [condition] at some_
      exact absurd some_ (Nat.not_lt_zero _)
    | some w =>
      rw [Option.elim_some]
      have first := (firstOf_spec condition).1
      have flat := level_behind_firstOf (by decide) condition
      cases ended : firstOf ts fromEndIds (f + 1) e with
      | none =>
        -- Behind a list of tables that nothing ends, there is no condition.
        have last := (firstOf_spec condition).2.1
        have within := (firstOf_spec from').2.1
        have bound := (@firstOf_getD ts [.sqlUnion] b e (by omega)).2
        rw [ended, Option.getD_none] at first
        omega
      | some i =>
        rw [ended, Option.getD_some] at first flat
        have order := (firstOf_spec ended).1
        have between := level_of_firstOf ended
        rw [level_add (show b ≤ i by omega) (show i ≤ w + 1 by omega),
          level_add (show b ≤ f + 1 by omega) order, behind, between, flat]
        rfl

/-- Where no FROM is found, none is found from a place outside of braces on. -/
theorem firstOf_none_of_level {tokIds : List SqlTokenId} {next : Nat}
    (nothing : firstOf ts tokIds b e = none) (order : b ≤ next) (flat : level ts b next = 0) :
    firstOf ts tokIds next e = none := by
  rcases Nat.le_total next e with within | outside
  · rw [firstOf, Option.map_eq_none_iff, window_split order within, firstIn, find_append] at nothing
    rw [firstOf, Option.map_eq_none_iff, firstIn]
    rw [level] at flat
    cases first : find SqlToken.brace (SqlToken.Is tokIds) 0 (window ts b next) with
    | some k => simp [first] at nothing
    | none => simpa [first, flat] using nothing
  · rw [firstOf, window, Nat.sub_eq_zero_of_le outside, List.take_zero]
    rfl

end

/-! ## The SELECTs of a chain -/

theorem descends_armsStep : Recursion.Descends (armsStep ts) fun range => range.2 - range.1 := by
  intro found found' range same
  rw [armsStep, armsStep]
  cases arm : nextArm ts range.1 range.2 with
  | none => rfl
  | some next =>
    obtain ⟨_, u, _, lower, upper, behind⟩ := nextArm_spec arm
    rw [Option.elim_some, Option.elim_some, same (next, range.2) (by dsimp only; omega)]

/-- A SELECT, and those behind it. -/
theorem arms_eq (b e : Nat) :
    arms ts (b, e) = b :: (nextArm ts b e).elim [] fun next => arms ts (next, e) := by
  have step : arms ts (b, e) = armsStep ts
      (Recursion.bounded (armsStep ts) (fun _ => []) (e - b)) (b, e) := rfl
  rw [step, descends_armsStep _ (arms ts) (b, e), armsStep]
  intro range less
  exact descends_armsStep.bounded_eq _ _ _ _ range less (Nat.lt_succ_self _)

section

variable {b e o c : Nat}

/-- How often a pair is searched: for the first SELECT, and for those behind it. -/
theorem timesSearched_eq : timesSearched ts (b, e) o c =
    (((selectQuery ts b e).elim [] searchedParts).countP fun part =>
        decide (part.1 ≤ o ∧ c < part.2)) +
      (nextArm ts b e).elim 0 fun next => timesSearched ts (next, e) o c := by
  rw [timesSearched, searched, arms_eq, List.flatMap_cons, List.countP_append]
  cases nextArm ts b e <;> rfl

/-- Where the SELECTs of a chain stand: one behind the other, and outside of braces. -/
theorem mem_arms_spec {p : Nat} : ∀ {b : Nat}, p ∈ arms ts (b, e) →
    b ≤ p ∧ level ts b p = 0 ∧ (p = b ∨ tokenId ts p = some .sqlSelect) := by
  intro b
  generalize size : e - b = n
  induction n using Nat.strong_induction_on generalizing b with
  | _ n ih =>
    intro member
    rw [arms_eq] at member
    rcases List.mem_cons.mp member with rfl | later
    · exact ⟨Nat.le_refl p, level_self p, Or.inl rfl⟩
    · cases arm : nextArm ts b e with
      | none =>
        rw [arm] at later
        exact absurd later List.not_mem_nil
      | some next =>
        rw [arm] at later
        obtain ⟨select, u, _, lower, upper, behind⟩ := nextArm_spec arm
        obtain ⟨order, flat, kind⟩ := ih (e - next) (by omega) rfl later
        refine ⟨by omega, ?_, Or.inr ?_⟩
        · rw [level_add (by omega : b ≤ next) order, level_nextArm arm, flat]
          rfl
        · rcases kind with rfl | there
          · exact select
          · exact there

/-- What is in front of a SELECT is not searched. -/
theorem timesSearched_before (before : o < b) : timesSearched ts (b, e) o c = 0 := by
  refine List.countP_eq_zero.mpr fun part member => ?_
  obtain ⟨p, inArms, there⟩ := List.mem_flatMap.mp member
  have order := (mem_arms_spec inArms).1
  cases found : selectQuery ts p e with
  | none =>
    rw [found] at there
    exact absurd there List.not_mem_nil
  | some query =>
    rw [found] at there
    have bounds := searchedParts_bounds found there
    simp only [decide_eq_true_eq]
    omega

/-- Without any FROM, nothing is searched. -/
theorem timesSearched_none : ∀ {b : Nat}, firstOf ts [.sqlFrom] b e = none →
    timesSearched ts (b, e) o c = 0 := by
  intro b
  generalize size : e - b = n
  induction n using Nat.strong_induction_on generalizing b with
  | _ n ih =>
    intro nothing
    have none_ : selectQuery ts b e = none := by rw [selectQuery, nothing, Option.map_none]
    rw [timesSearched_eq, none_]
    cases arm : nextArm ts b e with
    | none => rfl
    | some next =>
      obtain ⟨_, u, _, lower, upper, behind⟩ := nextArm_spec arm
      have later := ih (e - next) (by omega) rfl
        (firstOf_none_of_level nothing (by omega) (level_nextArm arm))
      rw [Option.elim_some, later]
      rfl

end

/-! ## How often a SELECT is found -/

section

variable {b e place : Nat}

@[simp] theorem beginningAt_append (first second : List SQLQuery) :
    beginningAt place (first ++ second) = beginningAt place first ++ beginningAt place second :=
  List.filter_append first second

theorem beginningAt_flatMap {α : Type} (l : List α) (f : α → List SQLQuery) :
    beginningAt place (l.flatMap f) = l.flatMap fun a => beginningAt place (f a) :=
  List.filter_flatMap

/-- None begins there. -/
theorem beginningAt_eq_nil {found : List SQLQuery} (apart : ∀ query ∈ found, query.tbegin ≠ place) :
    beginningAt place found = [] :=
  List.filter_eq_nil_iff.mpr fun query member => by simpa using apart query member

/-- A SELECT is found only once from itself on. -/
theorem beginningAt_own : beginningAt b (queries ts (b, e)) = (selectQuery ts b e).toList := by
  rw [queries_eq]
  cases own : selectQuery ts b e with
  | none => rfl
  | some query =>
    have begins := (selectQuery_bounds own).1
    have behind : beginningAt b ((nextArm ts b e).elim [] fun next => queries ts (next, e)) =
        [] := by
      refine beginningAt_eq_nil fun other member => ?_
      cases arm : nextArm ts b e with
      | none =>
        rw [arm] at member
        exact absurd member List.not_mem_nil
      | some next =>
        rw [arm] at member
        obtain ⟨_, u, _, lower, _, further⟩ := nextArm_spec arm
        have within := mem_queries_bounds member
        omega
    have braced : beginningAt b ((searchedParts query).flatMap fun part =>
        (subSelects ts part.1 part.2).flatMap (queries ts)) = [] := by
      refine beginningAt_eq_nil fun other member => ?_
      obtain ⟨part, there, inPart⟩ := List.mem_flatMap.mp member
      obtain ⟨inner, found, inInner⟩ := List.mem_flatMap.mp inPart
      have first := (inBraces_of_subSelects found).lower
      have second := (searchedParts_bounds own there).1
      have within := @mem_queries_bounds ts other inner.1 inner.2 inInner
      omega
    rw [Option.elim_some, ← List.singleton_append, beginningAt_append, beginningAt_append,
      behind, braced]
    simp [beginningAt, begins]

/-- Of a list without duplicates, one element alone has a part. -/
theorem flatMap_only {α β : Type} {l : List α} (nodup : l.Nodup) {a : α} (member : a ∈ l)
    {f : α → List β} (others : ∀ a' ∈ l, a' ≠ a → f a' = []) : l.flatMap f = f a := by
  obtain ⟨front, back, rfl⟩ := List.append_of_mem member
  have apart := (List.nodup_append.mp nodup).2.2
  have once := (List.nodup_cons.mp (List.nodup_append.mp nodup).2.1).1
  have before : front.flatMap f = [] := List.flatMap_eq_nil_iff.mpr fun a' there =>
    others a' (List.mem_append_left _ there) (apart a' there a List.mem_cons_self)
  have behind : back.flatMap f = [] := List.flatMap_eq_nil_iff.mpr fun a' there =>
    others a' (List.mem_append_right _ (List.mem_cons_of_mem _ there)) fun same =>
      once (same ▸ there)
  rw [List.flatMap_append, List.flatMap_cons, before, behind, List.nil_append, List.append_nil]

/-- What is found in a pair of parentheses, and begins at a token. -/
def foundIn (ts : List SqlToken) (o c place : Nat) : List SQLQuery :=
  beginningAt place ((peeled ts o (c + 1)).flatMap (queries ts))

variable {start o c : Nat} (outer : Outermost ts start o c) (lower : o < place) (upper : place ≤ c)

include outer lower upper

/-- What begins within a pair is found in that pair, where it is searched. -/
theorem peeled_of_begins {part range : Nat × Nat} (inside : part.2 ≤ ts.length)
    (order : start ≤ part.1) (flat : level ts start part.1 = 0)
    (member : range ∈ subSelects ts part.1 part.2) {query : SQLQuery}
    (found : query ∈ queries ts range)
    (begins : query.tbegin = place) :
    (part.1 ≤ o ∧ c < part.2) ∧ range ∈ peeled ts o (c + 1) := by
  obtain ⟨o', c', outer', within, peels⟩ := (mem_subSelects_iff inside).mp member
  have apart := outer'.pair.order
  have braces := inBraces_of_peeled (by omega) peels
  have first := braces.lower
  have last := braces.upper
  have bounds := @mem_queries_bounds ts query range.1 range.2 found
  obtain ⟨rfl, rfl⟩ := (outer'.extend flat order).unique outer (by omega) (by omega) lower upper
  exact ⟨⟨outer'.lower, within⟩, peels⟩

/-- A part that is searched adds what is found in the pair, if it has the pair. -/
theorem beginningAt_part {part : Nat × Nat} (inside : part.2 ≤ ts.length) (order : start ≤ part.1)
    (flat : part.1 < part.2 → level ts start part.1 = 0) :
    beginningAt place ((subSelects ts part.1 part.2).flatMap (queries ts)) =
      (List.replicate (if part.1 ≤ o ∧ c < part.2 then 1 else 0)
        (foundIn ts o c place)).flatten := by
  have begins : ∀ range ∈ subSelects ts part.1 part.2, ∀ query ∈ queries ts range,
      query.tbegin = place → (part.1 ≤ o ∧ c < part.2) ∧ range ∈ peeled ts o (c + 1) := by
    intro range member query found same
    have braces := inBraces_of_subSelects member
    have first := braces.lower
    have second := braces.order
    have third := braces.upper
    exact peeled_of_begins outer lower upper inside order (flat (by omega)) member found same
  by_cases holds : part.1 ≤ o ∧ c < part.2
  · rw [if_pos holds, List.replicate_one, List.flatten_singleton, foundIn]
    have there : ∀ range ∈ peeled ts o (c + 1), range ∈ subSelects ts part.1 part.2 := by
      intro range peels
      have apart := outer.pair.order
      exact (mem_subSelects_iff inside).mpr
        ⟨o, c, outer.change (flat (by omega)) order holds.1, holds.2, peels⟩
    rcases @peeled_cases ts (c + 1) o with nothing | ⟨range, only⟩
    · rw [nothing]
      refine beginningAt_eq_nil fun query member same => ?_
      obtain ⟨range, found, inRange⟩ := List.mem_flatMap.mp member
      have peels := (begins range found query inRange same).2
      rw [nothing] at peels
      exact absurd peels List.not_mem_nil
    · rw [only, List.flatMap_singleton, beginningAt_flatMap]
      have apart := outer.pair.order
      refine flatMap_only (nodup_subSelects _ _) (there range (by simp [only])) ?_
      intro other found differ
      refine beginningAt_eq_nil fun query inOther same => differ ?_
      have peels := (begins other found query inOther same).2
      rw [only] at peels
      exact List.mem_singleton.mp peels
  · rw [if_neg holds, List.replicate_zero, List.flatten_nil]
    refine beginningAt_eq_nil fun query member same => holds ?_
    obtain ⟨range, found, inRange⟩ := List.mem_flatMap.mp member
    exact (begins range found query inRange same).1

/-- A SELECT in a pair of parentheses is found as often as the pair is searched. -/
theorem beginningAt_queries (inside : e ≤ ts.length) :
    ∀ {b : Nat}, start ≤ b → level ts start b = 0 →
    beginningAt place (queries ts (b, e)) =
      (List.replicate (timesSearched ts (b, e) o c) (foundIn ts o c place)).flatten := by
  intro b
  generalize size : e - b = n
  induction n using Nat.strong_induction_on generalizing b with
  | _ n ih =>
    intro order flat
    rcases Nat.lt_or_ge o b with behind | front
    · -- The SELECT begins behind the pair.
      have past : c < b := by
        by_contra within
        have deep := outer.level_pos behind (by omega)
        omega
      rw [timesSearched_before behind, List.replicate_zero, List.flatten_nil]
      refine beginningAt_eq_nil fun query member same => ?_
      have bounds := mem_queries_bounds member
      omega
    · cases own : selectQuery ts b e with
      | none =>
        have nothing : firstOf ts [.sqlFrom] b e = none := by
          rw [selectQuery, Option.map_eq_none_iff] at own
          exact own
        rw [timesSearched_none nothing, queries_eq, own]
        rfl
      | some query =>
        have begins := (selectQuery_bounds own).1
        have head : beginningAt place [query] = [] :=
          beginningAt_eq_nil fun other member same => by
            obtain rfl := List.mem_singleton.mp member
            omega
        have later : beginningAt place ((nextArm ts b e).elim [] fun next => queries ts (next, e)) =
            (List.replicate ((nextArm ts b e).elim 0 fun next => timesSearched ts (next, e) o c)
              (foundIn ts o c place)).flatten := by
          cases arm : nextArm ts b e with
          | none => rfl
          | some next =>
            obtain ⟨_, u, _, first, second, third⟩ := nextArm_spec arm
            refine ih (e - next) (by omega) rfl (by omega) ?_
            rw [level_add order (by omega : b ≤ next), flat, level_nextArm arm]
            rfl
        have parts : ∀ l : List (Nat × Nat), (∀ part ∈ l, part ∈ searchedParts query) →
            beginningAt place (l.flatMap fun part =>
              (subSelects ts part.1 part.2).flatMap (queries ts)) =
              (List.replicate (l.countP fun part => decide (part.1 ≤ o ∧ c < part.2))
                (foundIn ts o c place)).flatten := by
          intro l
          induction l with
          | nil => exact fun _ => rfl
          | cons part l ihParts =>
            intro all
            obtain ⟨here, others⟩ := List.forall_mem_cons.mp all
            have bounds := searchedParts_bounds own here
            have one := @beginningAt_part _ _ _ _ _ outer lower upper part (by omega) (by omega)
              fun some_ => by
                rw [level_add order bounds.1, flat, level_searchedParts own here some_]
                rfl
            rw [List.flatMap_cons, beginningAt_append, one, ihParts others, ← List.flatten_append,
              List.replicate_append_replicate, List.countP_cons, Nat.add_comm]
            by_cases holds : part.1 ≤ o ∧ c < part.2 <;> simp [holds]
        rw [queries_eq, own, Option.elim_some, ← List.singleton_append, beginningAt_append,
          beginningAt_append, head, later, parts _ fun _ there => there, timesSearched_eq, own,
          Option.elim_some, List.nil_append, ← List.flatten_append, List.replicate_append_replicate,
          Nat.add_comm]
end

/-! ## Ranges that do not depend on the end -/

section

variable {b e e' i : Nat} {tokIds : List SqlTokenId}

/-- What is found is found in every longer range. -/
theorem firstOf_longer (order : e ≤ e') (found : firstOf ts tokIds b e = some i) :
    firstOf ts tokIds b e' = some i := by
  obtain ⟨lower, upper, _⟩ := firstOf_spec found
  obtain ⟨k, here, place⟩ := Option.map_eq_some_iff.mp found
  rw [firstOf, Option.map_eq_some_iff, window_split (by omega : b ≤ e) order]
  refine ⟨k, ?_, place⟩
  rw [firstIn] at here ⊢
  rw [find_append, here]

/-- A default in a longer range is another one, as no brace is looked for. -/
theorem firstOf_getD_longer (plain : NoBrace tokIds) (order : e < e')
    (closed : tokenId ts e = some .cbrace) :
    (firstOf ts tokIds b e').getD e' = (firstOf ts tokIds b e).getD e ↔
      (firstOf ts tokIds b e).isSome := by
  cases found : firstOf ts tokIds b e with
  | some i =>
    rw [firstOf_longer (Nat.le_of_lt order) found]
    exact iff_of_true rfl rfl
  | none =>
    refine iff_of_false ?_ (by simp)
    rw [Option.getD_none]
    cases found' : firstOf ts tokIds b e' with
    | none =>
      rw [Option.getD_none]
      omega
    | some i =>
      obtain ⟨_, _, _, id, kind, there⟩ := firstOf_spec found'
      rw [Option.getD_some]
      intro same
      rw [same, closed, Option.some.injEq] at there
      exact plain.2 (there ▸ kind)

/-- When a SELECT has the same ranges if it is read up to a later place. -/
theorem selectQuery_longer (order : e ≤ e') (closed : tokenId ts e = some .cbrace) :
    (∃ query, selectQuery ts b e = some query ∧ selectQuery ts b e' = some query) ↔
      ∃ f, firstOf ts [.sqlFrom] b e = some f ∧ (e' = e ∨ (firstOf ts [.sqlUnion] b e).isSome ∧
        (firstOf ts fromEndIds (f + 1) e).isSome) := by
  rcases Nat.eq_or_lt_of_le order with rfl | less
  · constructor
    · intro some_
      obtain ⟨query, found, _⟩ := some_
      obtain ⟨f, from', _⟩ := Option.map_eq_some_iff.mp found
      exact ⟨f, from', Or.inl rfl⟩
    · intro some_
      obtain ⟨f, from', _⟩ := some_
      have found : ∃ query, selectQuery ts b e = some query := by
        rw [selectQuery, from', Option.map_some]
        exact ⟨_, rfl⟩
      obtain ⟨query, found⟩ := found
      exact ⟨query, found, found⟩
  · have ends : ∀ f, (firstOf ts [.sqlUnion] b e).isSome ∧
      (firstOf ts fromEndIds (f + 1) e).isSome ↔
        (firstOf ts [.sqlUnion] b e').getD e' = (firstOf ts [.sqlUnion] b e).getD e ∧
          (firstOf ts fromEndIds (f + 1) e').getD e' = (firstOf ts fromEndIds (f + 1) e).getD e :=
      fun f => and_congr (firstOf_getD_longer (by decide) less closed).symm
        (firstOf_getD_longer (by decide) less closed).symm
    constructor
    · intro some_
      obtain ⟨query, found, found'⟩ := some_
      obtain ⟨f, from', rfl⟩ := Option.map_eq_some_iff.mp found
      refine ⟨f, from', Or.inr ((ends f).mpr ?_)⟩
      rw [selectQuery, firstOf_longer order from', Option.map_some, Option.some.injEq,
        SQLQuery.mk.injEq] at found'
      exact ⟨found'.2.1, found'.2.2.2.1⟩
    · intro some_
      obtain ⟨f, from', same⟩ := some_
      obtain ⟨queryEnd, fromend⟩ := (ends f).mp (same.resolve_left (Nat.ne_of_gt less))
      rw [selectQuery, selectQuery, from', firstOf_longer order from', Option.map_some,
        Option.map_some,
        queryEnd, fromend]
      exact ⟨_, rfl, rfl⟩

end

/-! ## SELECTs that are taken -/

/-- A statement that begins behind a parenthesis begins in an outermost pair. -/
theorem outermost_of_begins {query : SQLQuery} {a : Nat} (opens : tokenId ts a = some .obrace) :
    ∀ {b e : Nat}, e ≤ ts.length → query ∈ queries ts (b, e) → query.tbegin = a + 1 → b ≤ a →
      ∃ o c, Outermost ts b o c ∧ c < e ∧ o ≤ a ∧ a < c := by
  -- The induction is on how long the SELECT is: the statement is found behind a UNION, or in
  -- braces.
  intro b e
  generalize size : e - b = n
  induction n using Nat.strong_induction_on generalizing b e with
  | _ n ih =>
    intro inside member begins order
    rw [queries_eq] at member
    cases own : selectQuery ts b e with
    | none =>
      rw [own] at member
      exact absurd member List.not_mem_nil
    | some first =>
      rw [own, Option.elim_some] at member
      rcases List.mem_cons.mp member with rfl | others
      · have same := (selectQuery_bounds own).1
        omega
      · rcases List.mem_append.mp others with behind | braced
        · cases arm : nextArm ts b e with
          | none =>
            rw [arm] at behind
            exact absurd behind List.not_mem_nil
          | some next =>
            rw [arm, Option.elim_some] at behind
            obtain ⟨_, u, _, lower, upper, further⟩ := nextArm_spec arm
            have bounds := mem_queries_bounds behind
            -- In front of the next SELECT, there is no brace.
            have apart : next ≠ a + 1 := fun same => nextArm_apart (same ▸ arm) opens
            obtain ⟨o, c, outer, within, first, last⟩ :=
              ih (e - next) (by omega) rfl inside behind begins (by omega)
            exact ⟨o, c, outer.extend (level_nextArm arm) (by omega), within, first, last⟩
        · obtain ⟨part, there, inPart⟩ := List.mem_flatMap.mp braced
          obtain ⟨range, found, inRange⟩ := List.mem_flatMap.mp inPart
          have bounds := searchedParts_bounds own there
          have braces := inBraces_of_subSelects found
          have lower := braces.lower
          have middle := braces.order
          have upper := braces.upper
          obtain ⟨o, c, outer, within, peels⟩ := (mem_subSelects_iff (by omega)).mp found
          have apart := outer.pair.order
          have around := inBraces_of_peeled (by omega) peels
          have first := around.lower
          have last := around.upper
          have place := @mem_queries_bounds ts query range.1 range.2 inRange
          exact ⟨o, c, outer.extend (level_searchedParts own there (by omega)) bounds.1, by omega,
            by omega, by omega⟩

/-- Copies of a list are one element only if there is one copy, of one element. -/
theorem flatten_replicate_eq {α : Type} {count : Nat} {l : List α} {x : α} :
    (List.replicate count l).flatten = [x] ↔ count = 1 ∧ l = [x] := by
  constructor
  · intro one
    have length := congrArg List.length one
    rw [List.length_flatten, List.map_replicate, List.sum_replicate_nat,
      List.length_singleton] at length
    have single := Nat.eq_one_of_mul_eq_one_right length
    rw [single, List.replicate_one, List.flatten_singleton] at one
    exact ⟨single, one⟩
  · intro both
    rw [both.1, both.2]
    rfl

/-- A SELECT in other parentheses is one in those around them. -/
theorem SubqueryIn.mono {o c o' c' a z : Nat} (sub : SubqueryIn ts o' c' a z) (lower : o ≤ o')
    (upper : c' ≤ c) : SubqueryIn ts o c a z :=
  ⟨sub.toSubquery, Nat.le_trans lower sub.lower, Nat.le_trans sub.upper upper⟩

section

variable {b e o c a stop : Nat} (outer : Outermost ts b o c) (inside : e ≤ ts.length)
  (direct : (a + 1, stop) ∈ peeled ts o (c + 1))

include direct

/-- The parentheses around the first SELECT are the first ones. -/
theorem le_of_subqueryIn {a' z' : Nat} (sub : SubqueryIn ts o c a' z') : a ≤ a' := by
  by_contra before
  have opens := (braces_of_peeled direct).1 (a' + 1) (Nat.le_succ_of_le sub.lower) (by
    dsimp only
    omega)
  rw [sub.select] at opens
  exact absurd opens (by decide)

include outer inside

/-- In a pair that is searched once, a SELECT is found as often as in the SELECT that is peeled. -/
theorem recordedOnce_iff (once : timesSearched ts (b, e) o c = 1) {a' z' : Nat}
    (sub : SubqueryIn ts o c a' z') : RecordedOnce ts (queries ts (b, e)) a' z' ↔
      RecordedOnce ts (queries ts (a + 1, stop)) a' z' := by
  have order := sub.pair.order
  have lower := sub.lower
  have upper := sub.upper
  have same := beginningAt_queries outer (show o < a' + 1 by omega)
    (show a' + 1 ≤ c by omega) inside
    (Nat.le_refl b) (level_self b)
  have only : peeled ts o (c + 1) = [(a + 1, stop)] := by
    rcases @peeled_cases ts (c + 1) o with nothing | ⟨range, only⟩
    · rw [nothing] at direct
      exact absurd direct List.not_mem_nil
    · rw [only] at direct ⊢
      rw [List.mem_singleton.mp direct]
  rw [once, List.replicate_one, List.flatten_singleton, foundIn, only,
    List.flatMap_singleton] at same
  rw [RecordedOnce, RecordedOnce, same]

end

/-- The SELECTs in a pair of parentheses are all found once exactly if the pair is taken. -/
theorem recorded_iff_taken (n : Nat) : ∀ {b e o c : Nat}, e - b = n → e ≤ ts.length →
    Outermost ts b o c → c < e → (∃ a z, SubqueryIn ts o c a z) →
    ((∀ a z, SubqueryIn ts o c a z → RecordedOnce ts (queries ts (b, e)) a z) ↔
      Taken ts b e o c) := by
  induction n using Nat.strong_induction_on with
  | _ n ih =>
    intro b e o c size inside outer within some_
    have apart := outer.pair.order
    have first := outer.lower
    constructor
    · intro all
      obtain ⟨a₁, z₁, sub₁⟩ := some_
      obtain ⟨query₁, _, only₁⟩ := all a₁ z₁ sub₁
      have order₁ := sub₁.pair.order
      have lower₁ := sub₁.lower
      have upper₁ := sub₁.upper
      rw [beginningAt_queries outer (show o < a₁ + 1 by omega) (show a₁ + 1 ≤ c by omega) inside
        (Nat.le_refl b) (level_self b), flatten_replicate_eq] at only₁
      obtain ⟨once, found₁⟩ := only₁
      -- Something is found, so a SELECT is peeled.
      obtain ⟨range, only⟩ : ∃ range, peeled ts o (c + 1) = [range] := by
        rcases @peeled_cases ts (c + 1) o with nothing | only
        · rw [foundIn, nothing] at found₁
          simp [beginningAt] at found₁
        · exact only
      obtain ⟨begin_, stop⟩ := range
      have direct : (begin_, stop) ∈ peeled ts o (c + 1) := by rw [only]; exact List.mem_cons_self
      have braces := inBraces_of_peeled (by omega) direct
      have lower := braces.lower
      have middle := braces.order
      have upper := braces.upper
      dsimp only at lower middle upper
      obtain ⟨a, rfl⟩ : ∃ a, begin_ = a + 1 := ⟨begin_ - 1, by omega⟩
      obtain ⟨close, bound, pair⟩ := exists_pair_of_peeled outer direct
      have sub : SubqueryIn ts o c a close := ⟨⟨pair, braces.select⟩, by omega, by omega⟩
      have transfer :=
        fun {a' z'} => @recordedOnce_iff ts b e o c a stop outer inside direct once a' z'
      -- The SELECT that is peeled has the right ranges.
      obtain ⟨query, right, own⟩ := (transfer sub).mp (all a close sub)
      rw [beginningAt_own] at own
      have peels : selectQuery ts (a + 1) stop = some query := by
        cases here : selectQuery ts (a + 1) stop with
        | none => simp [here] at own
        | some query' => simpa [here] using own
      obtain ⟨f, from', ends⟩ :=
        (selectQuery_longer bound pair.closes).mp ⟨query, right, peels⟩
      refine .intro once direct pair from' ends ?_ ?_
      · intro a' z' sub' behind
        obtain ⟨query', _, only'⟩ := (transfer sub').mp (all a' z' sub')
        have member : query' ∈ beginningAt (a' + 1) (queries ts (a + 1, stop)) := by
          rw [only']
          exact List.mem_cons_self
        obtain ⟨there, begins⟩ := List.mem_filter.mp member
        obtain ⟨o', c', outer', within', first', last'⟩ :=
          outermost_of_begins sub'.pair.opens (by omega)
          there (of_decide_eq_true begins) behind
        exact ⟨o', c', outer', within', sub'.toSubquery, first',
          sub'.pair.nested outer' first' last'⟩
      · intro o' c' a' z' outer' within' sub'
        have further := outer'.lower
        refine (ih (stop - (a + 1)) (by omega) rfl (by omega) outer' within' ⟨a', z', sub'⟩).mp ?_
        intro a'' z'' sub''
        have larger := sub''.mono (show o ≤ o' by omega) (show c' ≤ c by omega)
        exact (transfer larger).mp (all a'' z'' larger)
    · intro taken
      cases taken with
      | @intro _ _ _ _ a stop close f once direct pair own ends covered inner =>
        intro a' z' sub'
        have transfer := @recordedOnce_iff ts b e o c a stop outer inside direct once a' z' sub'
        have braces := inBraces_of_peeled (by omega) direct
        have lower := braces.lower
        have middle := braces.order
        have upper := braces.upper
        dsimp only at lower middle upper
        refine transfer.mpr ?_
        rcases Nat.eq_or_lt_of_le (le_of_subqueryIn direct sub') with rfl | behind
        · obtain ⟨close', bound, pair'⟩ := exists_pair_of_peeled outer direct
          obtain rfl := pair.closes_unique pair'
          obtain rfl := pair.closes_unique sub'.pair
          obtain ⟨query, right, peels⟩ :=
            (selectQuery_longer bound pair.closes).mpr ⟨f, own, ends⟩
          exact ⟨query, right, by rw [beginningAt_own, peels, Option.toList_some]⟩
        · obtain ⟨o', c', outer', within', sub''⟩ := covered a' z' sub' behind
          exact (ih (stop - (a + 1)) (by omega) rfl (by omega) outer' within' ⟨a', z', sub''⟩).mpr
            (inner o' c' a' z' outer' within' sub'') a' z' sub''

/-! ## Statements -/

/-- What ends the condition of a SELECT, or its list of tables, besides UNION and WHERE. -/
def clauseEndIds : List SqlTokenId :=
  [.sqlGroup, .sqlHaving, .sqlOrder, .sqlLimit, .sqlProcedure, .sqlInto, .sqlFor, .sqlLock]

/-- The select list, the list of tables and the condition of a SELECT that ends at a place. -/
def clauses (ts : List SqlToken) (p stop : Nat) : List (Nat × Nat) :=
  (p, (firstOf ts (.sqlFrom :: .sqlWhere :: clauseEndIds) p stop).getD stop) ::
    ((firstOf ts [.sqlFrom] p stop).toList.map (fun f =>
        (f + 1, (firstOf ts (.sqlWhere :: clauseEndIds) (f + 1) stop).getD stop)) ++
      (firstOf ts [.sqlWhere] p stop).toList.map fun w =>
        (w + 1, (firstOf ts clauseEndIds (w + 1) stop).getD stop))

/-- Two places are in a clause of one of the SELECTs that are joined by UNION. -/
def InClause (ts : List SqlToken) (o c : Nat) : Prop :=
  ∃ p ∈ arms ts (0, ts.length),
    ∃ clause ∈ clauses ts p ((firstOf ts [.sqlUnion] p ts.length).getD ts.length),
      clause.1 ≤ o ∧ c < clause.2

/-- A SELECT in which all braces are closed. -/
structure BalancedSelect where
  tokens : List SqlToken
  select : tokenId tokens 0 = some .sqlSelect
  never : ∀ z ≤ tokens.length, 0 ≤ level tokens 0 z
  balanced : level tokens 0 tokens.length = 0

namespace BalancedSelect

variable (S : BalancedSelect)

/-- A SELECT in parentheses in a clause of the statement, at any depth. -/
def Occurs (a z : Nat) : Prop := Subquery S.tokens a z ∧ InClause S.tokens a z

/-- Each SELECT in parentheses is recorded exactly once. -/
def RecordsAll : Prop :=
  ∀ a z, S.Occurs a z → ∃ s, parse S.tokens = some s ∧ RecordedOnce S.tokens s.querylist a z

/--
Each outermost pair of parentheses in a clause that has a SELECT in parentheses in it is taken, and
the parser reads no token that is not there.
-/
def Reached : Prop :=
  ∀ o c a z, Outermost S.tokens 0 o c → InClause S.tokens o c → SubqueryIn S.tokens o c a z →
    ¬ Overrun S.tokens 0 ∧ Taken S.tokens 0 S.tokens.length o c

end BalancedSelect

/-! ## Clauses -/

/-- The end of a range, or what is found in it, is outside of braces. -/
theorem level_getD {tokIds : List SqlTokenId} {b start stop : Nat} (order : b ≤ start)
    (flat : level ts b start = 0) (last : level ts b stop = 0) :
    level ts b ((firstOf ts tokIds start stop).getD stop) = 0 := by
  cases found : firstOf ts tokIds start stop with
  | none => exact last
  | some i =>
    rw [Option.getD_some, level_add order (firstOf_spec found).1, flat, level_of_firstOf found]
    rfl

/-- Clauses begin and end outside of braces. -/
theorem level_clauses {p stop : Nat} (last : level ts p stop = 0) {clause : Nat × Nat}
    (member : clause ∈ clauses ts p stop) :
    p ≤ clause.1 ∧ level ts p clause.1 = 0 ∧ level ts p clause.2 = 0 := by
  have behind : ∀ {tokIds : List SqlTokenId} {i : Nat}, NoBrace tokIds →
      firstOf ts tokIds p stop = some i → p ≤ i + 1 ∧ level ts p (i + 1) = 0 := by
    intro tokIds i plain found
    exact ⟨Nat.le_succ_of_le (firstOf_spec found).1, level_behind_firstOf plain found⟩
  rcases List.mem_cons.mp member with rfl | others
  · exact ⟨Nat.le_refl p, level_self p, level_getD (Nat.le_refl p) (level_self p) last⟩
  · rcases List.mem_append.mp others with from' | where'
    · obtain ⟨f, found, rfl⟩ := List.mem_map.mp from'
      obtain ⟨order, flat⟩ := behind (by decide) (Option.mem_toList.mp found)
      exact ⟨order, flat, level_getD order flat last⟩
    · obtain ⟨w, found, rfl⟩ := List.mem_map.mp where'
      obtain ⟨order, flat⟩ := behind (by decide) (Option.mem_toList.mp found)
      exact ⟨order, flat, level_getD order flat last⟩

namespace BalancedSelect

variable {S : BalancedSelect}

/-- A pair of parentheses is in a clause if one of those in it is. -/
theorem inClause_iff {o c a z : Nat} (outer : Outermost S.tokens 0 o c)
    (sub : SubqueryIn S.tokens o c a z) : InClause S.tokens o c ↔ InClause S.tokens a z := by
  have lower := sub.lower
  have upper := sub.upper
  have apart := sub.pair.order
  constructor
  · intro some_
    obtain ⟨p, inArms, clause, there, first, last⟩ := some_
    exact ⟨p, inArms, clause, there, by omega, by omega⟩
  · intro some_
    obtain ⟨p, inArms, clause, there, first, last⟩ := some_
    obtain ⟨_, front, kind⟩ := mem_arms_spec inArms
    have within : p < S.tokens.length := lt_of_tokenId (kind.elim (fun same => same ▸ S.select) id)
    have last : level S.tokens p S.tokens.length = 0 := by
      have parts := @level_add S.tokens 0 p S.tokens.length (Nat.zero_le p) (Nat.le_of_lt within)
      rw [S.balanced, front, Int.zero_add] at parts
      exact parts.symm
    obtain ⟨order, begins, ends⟩ :=
      level_clauses (level_getD (Nat.le_refl p) (level_self p) last) there
    -- No clause begins or ends within the outermost pair.
    have begins' : level S.tokens 0 clause.1 = 0 := by
      rw [level_add (Nat.zero_le p) order, front, begins]
      rfl
    have ends' : level S.tokens 0 clause.2 = 0 := by
      rw [level_add (Nat.zero_le p) (by omega), front, ends]
      rfl
    refine ⟨p, inArms, clause, there, ?_, ?_⟩
    · by_contra inside
      have deep := outer.level_pos (z := clause.1) (by omega) (by omega)
      omega
    · by_contra inside
      have deep := outer.level_pos (z := clause.2) (by omega) (by omega)
      omega

/-- Everything that occurs is in an outermost pair of parentheses. -/
theorem exists_outermost_of_occurs {a z : Nat} (occurs : S.Occurs a z) :
    ∃ o c, Outermost S.tokens 0 o c ∧ InClause S.tokens o c ∧ SubqueryIn S.tokens o c a z := by
  obtain ⟨sub, clause⟩ := occurs
  obtain ⟨o, c, outer, lower, upper⟩ := exists_outermost (Nat.zero_le a) sub.pair.opens
    (fun z _ within => S.never z within) S.balanced
  have inner : SubqueryIn S.tokens o c a z := ⟨sub, lower, sub.pair.nested outer lower upper⟩
  exact ⟨o, c, outer, (inClause_iff outer inner).mpr clause, inner⟩

/-- What `parse` records are the statements that are found. -/
theorem querylist_of_parse {s : Parsing} (done : parse S.tokens = some s) :
    s.querylist = queries S.tokens (0, S.tokens.length) := by
  obtain ⟨s₁, found, tables⟩ := Option.bind_eq_some_iff.mp done
  have first := finds_parseSubQuery (S.tokens.length + 1) .new s₁ 0 S.tokens.length S.select
    (lt_of_tokenId S.select) (Or.inl rfl) found
  have keeps : KeptByTables S.tokens fun s => s.querylist = s₁.querylist :=
    fun _ _ _ _ _ _ _ _ same => same
  rw [yields_parseQueryTables keeps _ s₁ rfl s tables, first]
  rfl

variable (S)

/--
Each SELECT in parentheses in the select list, the FROM or the WHERE of a statement is recorded
exactly once if and only if the parser reaches all of them.
-/
theorem recordsAll_iff : S.RecordsAll ↔ S.Reached := by
  have whole : ∀ o c, Outermost S.tokens 0 o c → c < S.tokens.length := fun o c outer =>
    lt_of_tokenId outer.pair.closes
  constructor
  · intro all o c a z outer clause sub
    -- The parser comes to a result, which is the same for all SELECTs of the pair.
    have occurs : ∀ a z, SubqueryIn S.tokens o c a z → S.Occurs a z := fun a z sub =>
      ⟨sub.toSubquery, (inClause_iff outer sub).mp clause⟩
    refine ⟨?_, (recorded_iff_taken _ rfl (Nat.le_refl _) outer (whole o c outer)
      ⟨a, z, sub⟩).mp ?_⟩
    · obtain ⟨s, done, _⟩ := all a z (occurs a z sub)
      exact (isSome_parse_iff S.tokens).mp (by rw [done]; rfl)
    · intro a' z' sub'
      obtain ⟨s, done, once⟩ := all a' z' (occurs a' z' sub')
      rwa [querylist_of_parse done] at once
  · intro reached a z occurs
    obtain ⟨o, c, outer, clause, sub⟩ := exists_outermost_of_occurs occurs
    obtain ⟨safe, taken⟩ := reached o c a z outer clause sub
    obtain ⟨s, done⟩ := Option.isSome_iff_exists.mp ((isSome_parse_iff S.tokens).mpr safe)
    refine ⟨s, done, ?_⟩
    rw [querylist_of_parse done]
    exact (recorded_iff_taken _ rfl (Nat.le_refl _) outer (whole o c outer) ⟨a, z, sub⟩).mpr taken a
      z
      sub

/-- `select a from t where (x = 1 or y in (select b from u))`. -/
def inCondition : BalancedSelect where
  tokens :=
    [⟨.sqlSelect, [115, 101, 108, 101, 99, 116]⟩, ⟨.literal, [97]⟩,
      ⟨.sqlFrom, [102, 114, 111, 109]⟩,
      ⟨.literal, [116]⟩, ⟨.sqlWhere, [119, 104, 101, 114, 101]⟩, ⟨.obrace, [40]⟩, ⟨.literal, [120]⟩,
      ⟨.eq, [61]⟩, ⟨.integer, [49]⟩, ⟨.sqlOr, [111, 114]⟩, ⟨.literal, [121]⟩, ⟨.sqlIn, [105, 110]⟩,
      ⟨.obrace, [40]⟩, ⟨.sqlSelect, [115, 101, 108, 101, 99, 116]⟩, ⟨.literal, [98]⟩,
      ⟨.sqlFrom, [102, 114, 111, 109]⟩, ⟨.literal, [117]⟩, ⟨.cbrace, [41]⟩, ⟨.cbrace, [41]⟩]
  select := by decide
  never := by decide
  balanced := by decide

/-- The SELECT in its condition, which stands behind an OR in parentheses, is not found. -/
theorem inCondition_missed :
    tokenize [115, 101, 108, 101, 99, 116, 32, 97, 32, 102, 114, 111, 109, 32, 116, 32,
      119, 104, 101,
      114, 101, 32, 40, 120, 32, 61, 32, 49, 32, 111, 114, 32, 121, 32, 105, 110, 32, 40,
        115, 101, 108,
      101, 99, 116, 32, 98, 32, 102, 114, 111, 109, 32, 117, 41, 41] = inCondition.tokens ∧
    inCondition.Occurs 12 17 ∧ tables inCondition.tokens = some [[116]] ∧
      ¬ inCondition.RecordsAll := by
  have occurs : inCondition.Occurs 12 17 := by
    refine ⟨⟨⟨by decide, by decide, by decide, fun z lower upper => ?_, by decide⟩, by decide⟩, ?_⟩
    · exact (by decide : ∀ z ≤ 17, 12 < z → 1 ≤ level inCondition.tokens 12 z) z upper lower
    · exact ⟨0, by decide, (5, 19), by decide, by decide⟩
  refine ⟨by decide +kernel, occurs, by decide, fun all => ?_⟩
  obtain ⟨s, done, query, _, once⟩ := all 12 17 occurs
  have none_ : (parse inCondition.tokens).map (fun s => beginningAt 13 s.querylist) =
    some [] := by decide
  rw [done, Option.map_some, once] at none_
  simp at none_

end BalancedSelect

end OneProxy.Sql
