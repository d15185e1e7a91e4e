import Mathlib.Data.Nat.Find
import OneProxy.Sql.SubSelects
import OneProxy.Sql.TableReads

/-! Pairs of braces, and which of them the search for statements looks into. -/

namespace OneProxy.Sql

open TopLevel

variable {ts : List SqlToken}

/-! ## Levels -/

/-- How many braces are open at a place of a range. -/
def level (ts : List SqlToken) (start place : Nat) : Int :=
  depth SqlToken.brace (window ts start place)

@[simp] theorem level_self (start : Nat) : level ts start start = 0 := by
  rw [level, window, Nat.sub_self]
  rfl

/-- What is open at a place is open at one before it, or opened since. -/
theorem level_add {x y z : Nat} (first : x ≤ y) (second : y ≤ z) :
    level ts x z = level ts x y + level ts y z := by
  rw [level, window_split first second, depth_append, level, level]

/-- One token further. -/
theorem level_succ {start place : Nat} {t : SqlToken} (order : start ≤ place)
    (there : ts[place]? = some t) : level ts start (place + 1) =
      level ts start place + t.brace := by
  have one : level ts place (place + 1) = t.brace := by
    rw [level, window_cons there (Nat.lt_succ_self place), window, Nat.sub_self, List.take_zero,
      depth_cons, depth_nil, Int.add_zero]
  rw [level_add order (Nat.le_succ place), one]

section

variable {start place : Nat}

theorem level_obrace (order : start ≤ place) (opens : tokenId ts place = some .obrace) :
    level ts start (place + 1) = level ts start place + 1 := by
  obtain ⟨t, there, kind⟩ := Option.map_eq_some_iff.mp opens
  rw [level_succ order there, SqlToken.brace, if_pos kind]

theorem level_cbrace (order : start ≤ place) (closes : tokenId ts place = some .cbrace) :
    level ts start (place + 1) = level ts start place - 1 := by
  obtain ⟨t, there, kind⟩ := Option.map_eq_some_iff.mp closes
  rw [level_succ order there, SqlToken.brace, if_neg (by rw [kind]; decide), if_pos kind]
  rfl

/-- A token that is no brace. -/
theorem level_flat {id : SqlTokenId} (order : start ≤ place) (here : tokenId ts place = some id)
    (notOpen : id ≠ .obrace) (notClose : id ≠ .cbrace) :
    level ts start (place + 1) = level ts start place := by
  obtain ⟨t, there, kind⟩ := Option.map_eq_some_iff.mp here
  rw [level_succ order there, SqlToken.brace, if_neg (by rw [kind]; exact notOpen),
    if_neg (by rw [kind]; exact notClose), Int.add_zero]

end

/-! ## Pairs of braces -/

/-- A brace and the one that closes it. -/
structure BracePair (ts : List SqlToken) (o c : Nat) : Prop where
  order : o < c
  opens : tokenId ts o = some .obrace
  closes : tokenId ts c = some .cbrace
  inside : ∀ z, o < z → z ≤ c → 1 ≤ level ts o z
  behind : level ts o (c + 1) = 0

/-- A pair of braces that is in no other one behind a place. -/
structure Outermost (ts : List SqlToken) (start o c : Nat) : Prop where
  pair : BracePair ts o c
  lower : start ≤ o
  outside : level ts start o = 0

namespace Outermost

variable {start start' o c o' c' : Nat}

/-- Within the braces, one is open. -/
theorem level_pos (outer : Outermost ts start o c) {z : Nat} (lower : o < z) (upper : z ≤ c) :
    1 ≤ level ts start z := by
  rw [level_add outer.lower (Nat.le_of_lt lower), outer.outside, Int.zero_add]
  exact outer.pair.inside z lower upper

/-- Behind the braces, none is open. -/
theorem level_behind (outer : Outermost ts start o c) : level ts start (c + 1) = 0 := by
  have order := outer.pair.order
  rw [level_add outer.lower (by omega), outer.outside, Int.zero_add]
  exact outer.pair.behind

/-- Outermost braces are so from every place in front of them where none is open. -/
theorem change (outer : Outermost ts start o c) (flat : level ts start start' = 0)
    (order : start ≤ start') (before : start' ≤ o) : Outermost ts start' o c := by
  have parts := @level_add ts _ _ _ order before
  rw [flat, outer.outside, Int.zero_add] at parts
  exact ⟨outer.pair, before, parts.symm⟩

/-- The other way round. -/
theorem extend (outer : Outermost ts start' o c) (flat : level ts start start' = 0)
    (order : start ≤ start') : Outermost ts start o c := by
  have before := outer.lower
  refine ⟨outer.pair, Nat.le_trans order before, ?_⟩
  rw [level_add order before, flat, outer.outside]
  rfl

/-- A place is within one outermost pair of braces only. -/
theorem unique (outer : Outermost ts start o c) (outer' : Outermost ts start o' c') {b : Nat}
    (lower : o < b) (upper : b ≤ c) (lower' : o' < b) (upper' : b ≤ c') : o = o' ∧ c = c' := by
  have same : o = o' := by
    rcases Nat.lt_trichotomy o o' with before | same | behind
    · have deep := outer.level_pos before (by omega)
      rw [outer'.outside] at deep
      omega
    · exact same
    · have deep := outer'.level_pos behind (by omega)
      rw [outer.outside] at deep
      omega
  subst same
  refine ⟨rfl, ?_⟩
  rcases Nat.lt_trichotomy c c' with before | same | behind
  · have deep := outer'.level_pos (z := c + 1) (by omega) (by omega)
    rw [outer.level_behind] at deep
    omega
  · exact same
  · have deep := outer.level_pos (z := c' + 1) (by omega) (by omega)
    rw [outer'.level_behind] at deep
    omega

/-- The last closing brace is at the lowest level. -/
theorem level_last (outer : Outermost ts start o c) : level ts start c = 1 := by
  have order := outer.pair.order
  have behind := level_cbrace (Nat.le_trans outer.lower (Nat.le_of_lt order)) outer.pair.closes
  rw [outer.level_behind] at behind
  omega

end Outermost

namespace BracePair

variable {o c a e : Nat}

/-- A brace is closed only once. -/
theorem closes_unique (pair : BracePair ts o c) (pair' : BracePair ts o e) : c = e := by
  have first : Outermost ts o o c := ⟨pair, Nat.le_refl o, level_self o⟩
  have second : Outermost ts o o e := ⟨pair', Nat.le_refl o, level_self o⟩
  exact (first.unique second (Nat.lt_succ_self o) pair.order (Nat.lt_succ_self o) pair'.order).2

/-- Pairs of braces lie within each other, or apart. -/
theorem nested (pair : BracePair ts a e) {start : Nat} (outer : Outermost ts start o c)
    (lower : o ≤ a)
    (upper : a < c) : e ≤ c := by
  by_contra more
  have deep := pair.inside (c + 1) (by omega) (by omega)
  have parts := @level_add ts start a (c + 1) (by have := outer.lower; omega) (by omega)
  rw [outer.level_behind] at parts
  -- As many braces are open before the inner pair as the outer one has opened.
  have before : 0 ≤ level ts start a := by
    rcases Nat.lt_or_ge o a with further | same
    · have := outer.level_pos further (by omega)
      omega
    · obtain rfl : a = o := by omega
      exact Int.le_of_eq outer.outside.symm
  omega

/-- A brace is closed before a place at which no more are open. -/
theorem exists_of_level {stop : Nat} (opens : tokenId ts a = some .obrace) (order : a < stop)
    (within : stop ≤ ts.length) (flat : level ts a stop ≤ 0) : ∃ e < stop, BracePair ts a e := by
  -- The first place behind the brace at which it is not open.
  have some_ : ∃ k, level ts a (a + 1 + k) ≤ 0 := ⟨stop - (a + 1), by
    rw [show a + 1 + (stop - (a + 1)) = stop by omega]
    exact flat⟩
  obtain ⟨k, here, first⟩ : ∃ k, level ts a (a + 1 + k) ≤ 0 ∧
      ∀ j < k, ¬ level ts a (a + 1 + j) ≤ 0 :=
    ⟨Nat.find some_, Nat.find_spec some_, fun j => Nat.find_min some_⟩
  have one : level ts a (a + 1) = 1 := by
    rw [level_obrace (Nat.le_refl a) opens, level_self]
    rfl
  have upper : a + 1 + k ≤ stop := by
    by_contra more
    refine first (stop - (a + 1)) (by omega) ?_
    rw [show a + 1 + (stop - (a + 1)) = stop by omega]
    exact flat
  cases k with
  | zero =>
    rw [Nat.add_zero, one] at here
    omega
  | succ k =>
    have deep := first k (Nat.lt_succ_self k)
    obtain ⟨t, there, kind⟩ := @tokenId_lt ts (a + 1 + k) (by omega)
    have last := @level_succ ts a (a + 1 + k) t (by omega) there
    rw [show a + 1 + k + 1 = a + 1 + (k + 1) by omega] at last
    have isClose : t.tokenId = .cbrace := by
      by_contra other
      rw [SqlToken.brace, if_neg other] at last
      split at last <;> omega
    rw [SqlToken.brace, if_neg (by rw [isClose]; decide), if_pos isClose] at last
    refine ⟨a + 1 + k, by omega, ⟨by omega, opens, by rw [kind, isClose], ?_, ?_⟩⟩
    · intro z lower upper'
      have positive := first (z - (a + 1)) (by omega)
      rw [show a + 1 + (z - (a + 1)) = z by omega] at positive
      omega
    · rw [show a + 1 + k + 1 = a + 1 + (k + 1) by omega]
      omega

end BracePair

/-- Where no more braces are closed than opened, every brace is in an outermost pair. -/
theorem exists_outermost {start a : Nat} (order : start ≤ a) (opens : tokenId ts a = some .obrace)
    (never : ∀ z, start ≤ z → z ≤ ts.length → 0 ≤ level ts start z)
    (flat : level ts start ts.length = 0) : ∃ o c, Outermost ts start o c ∧ o ≤ a ∧ a < c := by
  have within := lt_of_tokenId opens
  -- The last place up to the brace at which none is open.
  obtain ⟨o, lower, upper, outside, last⟩ : ∃ o, start ≤ o ∧ o ≤ a ∧ level ts start o = 0 ∧
      ∀ z, o < z → z ≤ a → level ts start z ≠ 0 := by
    have spec := @Nat.findGreatest_spec start (fun z => start ≤ z ∧ level ts start z = 0) _ a order
      ⟨Nat.le_refl start, level_self start⟩
    refine ⟨_, spec.1, Nat.findGreatest_le a, spec.2, fun z behind before zero => ?_⟩
    exact Nat.findGreatest_is_greatest behind before ⟨by omega, zero⟩
  have first : tokenId ts o = some .obrace := by
    rcases Nat.eq_or_lt_of_le upper with rfl | before
    · exact opens
    · obtain ⟨t, there, kind⟩ := @tokenId_lt ts o (by omega)
      have next := level_succ lower there
      have positive := never (o + 1) (by omega) (by omega)
      have apart := last (o + 1) (Nat.lt_succ_self o) before
      rw [kind]
      by_contra other
      rw [SqlToken.brace, if_neg fun same => other (congrArg some same)] at next
      split at next <;> omega
  have parts := @level_add ts start o ts.length lower (by omega)
  obtain ⟨c, less, pair⟩ :=
    @BracePair.exists_of_level ts o ts.length first (by omega) (Nat.le_refl _)
    (by omega)
  have outer : Outermost ts start o c := ⟨pair, lower, outside⟩
  refine ⟨o, c, outer, upper, ?_⟩
  by_contra before
  rcases Nat.lt_or_ge c a with less' | same
  · exact last (c + 1) (by have := pair.order; omega) less' outer.level_behind
  · obtain rfl : c = a := by omega
    rw [pair.closes] at opens
    exact absurd opens (by decide)

/-! ## What is peeled -/

/-- There is at most one SELECT directly in braces. -/
theorem peeled_cases (stop : Nat) : ∀ o, peeled ts o stop = [] ∨
      ∃ range, peeled ts o stop = [range] := by
  induction stop with
  | zero => exact fun o => Or.inl rfl
  | succ last ih =>
    intro o
    rw [peeled]
    split
    · split
      · next select =>
        -- Behind the SELECT, no brace follows directly.
        refine Or.inr ⟨(o + 1, last), ?_⟩
        have nothing : peeled ts (o + 1) last = [] := by
          cases last with
          | zero => rfl
          | succ last =>
            rw [peeled, if_neg]
            intro both
            rw [select] at both
            exact absurd both.1 (by decide)
        rw [nothing]
      · exact ih (o + 1)
    · exact Or.inl rfl

/-- All that is around the SELECT are braces. -/
theorem braces_of_peeled {stop : Nat} : ∀ {o : Nat} {range : Nat × Nat}, range ∈ peeled ts o stop →
    (∀ z, o ≤ z → z < range.1 → tokenId ts z = some .obrace) ∧
      ∀ z, range.2 ≤ z → z < stop → tokenId ts z = some .cbrace := by
  induction stop with
  | zero => exact fun member => absurd member List.not_mem_nil
  | succ last ih =>
    intro o range member
    rw [peeled] at member
    split at member
    · next braces =>
      obtain ⟨opens, closes⟩ := braces
      have deeper : range ∈ peeled ts (o + 1) last →
          (∀ z, o ≤ z → z < range.1 → tokenId ts z = some .obrace) ∧
            ∀ z, range.2 ≤ z → z < last + 1 → tokenId ts z = some .cbrace := by
        intro inside
        obtain ⟨before, behind⟩ := ih inside
        constructor
        · intro z lower upper
          rcases Nat.lt_or_ge o z with further | first
          · exact before z further upper
          · obtain rfl : z = o := by omega
            exact opens
        · intro z lower upper
          rcases Nat.lt_or_ge z last with within | end_
          · exact behind z lower within
          · obtain rfl : z = last := by omega
            exact closes
      split at member
      · rcases List.mem_cons.mp member with rfl | later
        · constructor
          · intro z lower upper
            obtain rfl : z = o := by
              dsimp only at upper
              omega
            exact opens
          · intro z lower upper
            obtain rfl : z = last := by
              dsimp only at lower
              omega
            exact closes
        · exact deeper later
      · exact deeper member
    · exact absurd member List.not_mem_nil

/-- As many braces open in front of the SELECT as close behind it. -/
theorem sum_of_peeled {stop : Nat} : ∀ {o : Nat} {range : Nat × Nat}, range ∈ peeled ts o stop →
    range.1 + range.2 = o + stop := by
  induction stop with
  | zero => exact fun member => absurd member List.not_mem_nil
  | succ last ih =>
    intro o range member
    rw [peeled] at member
    split at member
    · split at member
      · rcases List.mem_cons.mp member with rfl | later
        · dsimp only
          omega
        · have sum := ih later
          omega
      · have sum := ih member
        omega
    · exact absurd member List.not_mem_nil

/-- Braces that open one behind the other. -/
theorem level_obraces {x y : Nat} (order : x ≤ y)
    (all : ∀ z, x ≤ z → z < y → tokenId ts z = some .obrace) : level ts x y = (y : Int) - x := by
  induction y with
  | zero =>
    obtain rfl : x = 0 := by omega
    rw [level_self]
    rfl
  | succ y ih =>
    rcases Nat.lt_or_ge y x with last | within
    · obtain rfl : x = y + 1 := by omega
      rw [level_self, Int.sub_self]
    · rw [level_obrace within (all y within (Nat.lt_succ_self y)),
        ih within fun z lower upper => all z lower (Nat.lt_succ_of_lt upper)]
      omega

/-- Braces that close one behind the other. -/
theorem level_cbraces {x y : Nat} (order : x ≤ y)
    (all : ∀ z, x ≤ z → z < y → tokenId ts z = some .cbrace) : level ts x y = (x : Int) - y := by
  induction y with
  | zero =>
    obtain rfl : x = 0 := by omega
    rw [level_self]
    rfl
  | succ y ih =>
    rcases Nat.lt_or_ge y x with last | within
    · obtain rfl : x = y + 1 := by omega
      rw [level_self, Int.sub_self]
    · rw [level_cbrace within (all y within (Nat.lt_succ_self y)),
        ih within fun z lower upper => all z lower (Nat.lt_succ_of_lt upper)]
      omega

/-- The parentheses directly around a SELECT that is peeled are closed within the others. -/
theorem exists_pair_of_peeled {start o c a stop : Nat} (outer : Outermost ts start o c)
    (direct : (a + 1, stop) ∈ peeled ts o (c + 1)) : ∃ close ≤ stop, BracePair ts a close := by
  have apart := outer.pair.order
  have braces := inBraces_of_peeled (by omega) direct
  have lower := braces.lower
  have order := braces.order
  have upper := braces.upper
  have within := lt_of_tokenId outer.pair.closes
  have sum := sum_of_peeled direct
  obtain ⟨before, behind⟩ := braces_of_peeled direct
  dsimp only at lower order upper sum before behind
  -- The last of the braces in front is open up to the first of those behind.
  have front := @level_obraces ts o a (by omega) fun z lower' upper' => before z lower' (by omega)
  have back := @level_cbraces ts stop (c + 1) (by omega) fun z lower' upper' =>
    behind z lower' upper'
  have whole := outer.pair.behind
  rw [@level_add ts o a (c + 1) (by omega) (by omega), front,
    @level_add ts a stop (c + 1) (by omega) (by omega), back] at whole
  have last := @level_cbrace ts a stop (by omega) braces.closed
  obtain ⟨close, less, pair⟩ := @BracePair.exists_of_level ts a (stop + 1)
    (before a (by omega) (Nat.lt_succ_self a)) (by omega) (by omega) (by omega)
  exact ⟨close, Nat.le_of_lt_succ less, pair⟩

/-! ## What is searched -/

/-- A walk comes to what is peeled from the outermost pairs of braces. -/
theorem mem_subSelectsFrom_iff {start : Nat} {range : Nat × Nat} (count : Nat) :
    ∀ (i startBrace : Nat),
    start ≤ i → i + count ≤ ts.length →
    (1 ≤ level ts start i → start ≤ startBrace ∧ startBrace < i ∧ level ts start startBrace = 0 ∧
      tokenId ts startBrace = some .obrace ∧ ∀ z, startBrace < z → z ≤ i → 1 ≤ level ts start z) →
    (range ∈ subSelectsFrom ts count i startBrace (level ts start i) ↔
      ∃ o c, Outermost ts start o c ∧ i ≤ c ∧ c < i + count ∧ range ∈ peeled ts o (c + 1)) := by
  -- The induction is on the tokens that are left; the invariant is what the outermost brace is that
  -- is open.
  induction count with
  | zero =>
    intro i startBrace _ _ _
    refine iff_of_false List.not_mem_nil fun some_ => ?_
    obtain ⟨o, c, _, lower, upper, _⟩ := some_
    omega
  | succ count ih =>
    intro i startBrace lower inside opened
    obtain ⟨t, there, id⟩ := @tokenId_lt ts i (by omega)
    have shift : i + 1 + count = i + (count + 1) := by omega
    -- A pair that ends behind a token of another kind ends behind the next one.
    have later : tokenId ts i ≠ some .cbrace →
        ((∃ o c, Outermost ts start o c ∧ i + 1 ≤ c ∧ c < i + 1 + count ∧
          range ∈ peeled ts o (c + 1)) ↔
          ∃ o c, Outermost ts start o c ∧ i ≤ c ∧ c < i + (count + 1) ∧
              range ∈ peeled ts o (c + 1)) := by
      intro other
      constructor
      · intro some_
        obtain ⟨o, c, outer, lower', upper', member⟩ := some_
        exact ⟨o, c, outer, by omega, by omega, member⟩
      · intro some_
        obtain ⟨o, c, outer, lower', upper', member⟩ := some_
        have apart : i ≠ c := fun same => other (same ▸ outer.pair.closes)
        exact ⟨o, c, outer, by omega, by omega, member⟩
    rw [subSelectsFrom]
    by_cases isOpen : tokenId ts i = some .obrace
    · have next := level_obrace lower isOpen
      rw [if_pos isOpen, ← next, ih (i + 1) _ (by omega) (by omega), later (by rw [isOpen]; decide)]
      intro behind
      by_cases flat : level ts start i = 0
      · rw [if_pos flat]
        refine ⟨lower, Nat.lt_succ_self i, flat, isOpen, fun z lower' upper' => ?_⟩
        obtain rfl : z = i + 1 := by omega
        exact behind
      · rw [if_neg flat]
        obtain ⟨first, before, outside, brace, deep⟩ := opened (by omega)
        refine ⟨first, by omega, outside, brace, fun z lower' upper' => ?_⟩
        rcases Nat.lt_or_ge i z with last | within
        · obtain rfl : z = i + 1 := by omega
          exact behind
        · exact deep z lower' within
    · rw [if_neg isOpen]
      by_cases isClose : tokenId ts i = some .cbrace
      · have next := level_cbrace lower isClose
        have stays : 1 ≤ level ts start (i + 1) → start ≤ startBrace ∧ startBrace < i + 1 ∧
            level ts start startBrace = 0 ∧ tokenId ts startBrace = some .obrace ∧
              ∀ z, startBrace < z → z ≤ i + 1 → 1 ≤ level ts start z := by
          intro behind
          obtain ⟨first, before, outside, brace, deep⟩ := opened (by omega)
          refine ⟨first, by omega, outside, brace, fun z lower' upper' => ?_⟩
          rcases Nat.lt_or_ge i z with last | within
          · obtain rfl : z = i + 1 := by omega
            exact behind
          · exact deep z lower' within
        rw [if_pos isClose, ← next, List.mem_append, ih (i + 1) _ (by omega) (by omega) stays]
        constructor
        · rintro (here | further)
          · split at here
            · next one =>
              -- The brace closes the outermost one.
              obtain ⟨first, before, outside, brace, deep⟩ := opened (by omega)
              have parts : ∀ z, startBrace ≤ z → level ts startBrace z = level ts start z := by
                intro z order
                rw [level_add first order, outside, Int.zero_add]
              refine ⟨startBrace, i, ⟨⟨before, brace, isClose, ?_, ?_⟩, first, outside⟩,
                Nat.le_refl i,
                by omega, here⟩
              · intro z lower' upper'
                rw [parts z (Nat.le_of_lt lower')]
                exact deep z lower' upper'
              · rw [parts (i + 1) (by omega)]
                omega
            · exact absurd here List.not_mem_nil
          · obtain ⟨o, c, outer, lower', upper', member⟩ := further
            exact ⟨o, c, outer, by omega, by omega, member⟩
        · intro some_
          obtain ⟨o, c, outer, lower', upper', member⟩ := some_
          rcases Nat.lt_or_ge i c with further | here
          · exact Or.inr ⟨o, c, outer, further, by omega, member⟩
          · obtain rfl : i = c := by omega
            have one := outer.level_last
            rw [if_pos one]
            -- The pair is the one that has been open.
            obtain ⟨first, before, outside, brace, deep⟩ := opened (by omega)
            have order := outer.pair.order
            have same : o = startBrace := by
              rcases Nat.lt_trichotomy o startBrace with less | same | more
              · have positive := outer.level_pos less (by omega)
                omega
              · exact same
              · have positive := deep o more (by omega)
                have flat := outer.outside
                omega
            exact Or.inl (same ▸ member)
      · have next : level ts start (i + 1) = level ts start i :=
          level_flat lower id (fun same => isOpen (same ▸ id)) fun same => isClose (same ▸ id)
        rw [if_neg isClose, ← next, ih (i + 1) _ (by omega) (by omega), later isClose]
        intro behind
        obtain ⟨first, before, outside, brace, deep⟩ := opened (by omega)
        refine ⟨first, by omega, outside, brace, fun z lower' upper' => ?_⟩
        rcases Nat.lt_or_ge i z with last | within
        · obtain rfl : z = i + 1 := by omega
          exact behind
        · exact deep z lower' within

/-- The SELECTs found in a range are those peeled from its outermost pairs of braces. -/
theorem mem_subSelects_iff {start stop : Nat} (inside : stop ≤ ts.length) {range : Nat × Nat} :
    range ∈ subSelects ts start stop ↔
      ∃ o c, Outermost ts start o c ∧ c < stop ∧ range ∈ peeled ts o (c + 1) := by
  by_cases order : start ≤ stop
  · have walk := @mem_subSelectsFrom_iff ts start range (stop - start) start 0
      (Nat.le_refl _) (by omega)
      fun open_ => by
        rw [level_self] at open_
        omega
    rw [level_self] at walk
    rw [subSelects, walk]
    constructor
    · intro some_
      obtain ⟨o, c, outer, _, upper, member⟩ := some_
      exact ⟨o, c, outer, by omega, member⟩
    · intro some_
      obtain ⟨o, c, outer, upper, member⟩ := some_
      have lower := outer.lower
      have apart := outer.pair.order
      exact ⟨o, c, outer, by omega, by omega, member⟩
  · rw [subSelects, Nat.sub_eq_zero_of_le (Nat.le_of_not_le order)]
    refine iff_of_false List.not_mem_nil fun some_ => ?_
    obtain ⟨o, c, outer, upper, _⟩ := some_
    have lower := outer.lower
    have apart := outer.pair.order
    omega

/-- A SELECT in braces of a range has a brace open everywhere in it. -/
theorem level_of_subSelects {start stop : Nat} (inside : stop ≤ ts.length) {range : Nat × Nat}
    (member : range ∈ subSelects ts start stop) {p : Nat} (lower : range.1 ≤ p)
    (upper : p ≤ range.2) :
    1 ≤ level ts start p := by
  obtain ⟨o, c, outer, _, peels⟩ := (mem_subSelects_iff inside).mp member
  have order := outer.pair.order
  have braces := inBraces_of_peeled (by omega) peels
  have first := braces.lower
  have last := braces.upper
  exact outer.level_pos (by omega) (by omega)

/-- They stand one behind the other. -/
theorem pairwise_subSelectsFrom (count : Nat) : ∀ (i startBrace : Nat) (c : Int),
    (1 ≤ c → startBrace < i) →
      (subSelectsFrom ts count i startBrace c).Pairwise fun r r' => r.2 < r'.1 := by
  induction count with
  | zero => exact fun i startBrace c _ => List.Pairwise.nil
  | succ count ih =>
    intro i startBrace c opened
    rw [subSelectsFrom]
    split
    · refine ih _ _ _ fun deep => ?_
      split
      · omega
      · have before := opened (by omega)
        omega
    · split
      · refine List.pairwise_append.mpr ⟨?_, ih _ _ _ fun deep => ?_, ?_⟩
        · split
          · rcases @peeled_cases ts (i + 1) startBrace with nothing | ⟨range, only⟩
            · rw [nothing]
              exact List.Pairwise.nil
            · rw [only]
              exact List.pairwise_singleton _ _
          · exact List.Pairwise.nil
        · have before := opened (by omega)
          omega
        · intro range here range' later
          split at here
          · next one =>
            -- What is found later is behind the brace that has just been closed.
            have before := opened (by omega)
            have first := (inBraces_of_peeled (by omega) here).upper
            have second := (@inBraces_of_subSelectsFrom ts (i + 1) count (i + 1) startBrace (c - 1)
              (Nat.le_refl _) (by omega) range' later).lower
            omega
          · exact absurd here List.not_mem_nil
      · exact ih _ _ _ fun deep => by
          have before := opened deep
          omega

/-- No SELECT is found twice in a range. -/
theorem nodup_subSelects (start stop : Nat) : (subSelects ts start stop).Nodup := by
  have apart := @pairwise_subSelectsFrom ts (stop - start) start 0 0 (by omega)
  refine apart.imp_of_mem fun {r r'} here _ before same => ?_
  have inside := (inBraces_of_subSelects here).order
  rw [← same] at before
  omega

end OneProxy.Sql
