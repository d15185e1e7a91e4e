import OneProxy.Sql.Contributions
import OneProxy.Sql.TokenReads

/-! Which tables a chain of SELECTs that are joined by UNION reports. -/

namespace OneProxy.Sql

open TopLevel

/-! ## Chains -/

/-- A SELECT that a chain is made of, without braces around it. -/
structure Arm where
  tokens : List SqlToken
  select : tokenId tokens 0 = some .sqlSelect
  balanced : depth SqlToken.brace tokens = 0
  noUnion : firstIn [.sqlUnion] tokens = none

/-- `UNION` or `UNION ALL`. -/
structure Link where
  union : SqlToken
  all : Option SqlToken
  isUnion : union.tokenId = .sqlUnion
  isAll : ∀ t ∈ all, t.tokenId = .sqlAll

def Link.tokens (link : Link) : List SqlToken := link.union :: link.all.toList

/-- The tokens of a chain. -/
def chainTokens : Arm → List (Link × Arm) → List SqlToken
  | arm, [] => arm.tokens
  | arm, (link, next) :: more => (arm.tokens ++ link.tokens) ++ chainTokens next more

/-- The tables of the SELECTs, each where it stands in the chain. -/
def armsEntries : Arm → List (Link × Arm) → Option (List (Bytes × Nat))
  | arm, [] => parsedEntries arm.tokens
  | arm, (link, next) :: more =>
    joined (parsedEntries arm.tokens)
      ((armsEntries next more).map (List.map (movedEntry (arm.tokens ++ link.tokens).length)))

/-- A chain of at least one SELECT. -/
structure UnionChain where
  first : Arm
  more : List (Link × Arm)

namespace UnionChain

def tokens (chain : UnionChain) : List SqlToken := chainTokens chain.first chain.more

def arms (chain : UnionChain) : List Arm := chain.first :: chain.more.map (·.2)

/-- The chain reports the tables of its SELECTs, in order, each once. -/
def Reports (chain : UnionChain) : Prop :=
  ∃ es, armsEntries chain.first chain.more = some es ∧ parsedEntries chain.tokens = some es

end UnionChain

/-! ## What goes wrong -/

/-- Whether a SELECT has a FROM of its own. -/
def Arm.hasFrom (arm : Arm) : Bool := (firstIn [.sqlFrom] arm.tokens).isSome

/-- The tables of the SELECTs in braces of a SELECT: of its list, its tables and its condition. -/
def nestedEntries (ts : List SqlToken) : Option (List (Bytes × Nat)) := do
  let (found, fromstart, fromend) ← getSqlFrom ts 0 ts.length
  if found = false then some []
  else
    let (_, wherestart, whereend) ← getSqlWhere ts .new fromend ts.length
    joined (bracedEntries ts 0 fromstart)
      (joined (bracedEntries ts fromstart fromend) (bracedEntries ts wherestart whereend))

/-- The tables of the first FROM, and of the SELECTs in braces up to the end of its tables. -/
def borrowedEntries (ts : List SqlToken) : Option (List (Bytes × Nat)) := do
  let (found, fromstart, fromend) ← getSqlFrom ts 0 ts.length
  if found = false then some []
  else
    joined (queryEntries ts ⟨0, ts.length, fromstart, fromend, 0, 0⟩)
      (joined (bracedEntries ts 0 fromstart) (bracedEntries ts fromstart fromend))

/--
No SELECT without FROM is followed by one with tables that it could take for its own, and none with
tables in braces is followed by one with tables.
-/
def Orderly : Arm → List (Link × Arm) → Prop
  | _, [] => True
  | arm, (link, next) :: more =>
    (if arm.hasFrom then
      nestedEntries arm.tokens = some [] ∨
        ∀ later ∈ next :: more.map (·.2), parsedEntries later.tokens = some []
    else borrowedEntries (chainTokens arm ((link, next) :: more)) = some []) ∧ Orderly next more

/-! ## One SELECT of a chain -/

section

variable (arm : Arm) (link : Link) {rest : List SqlToken}

/-- The first token of a chain is that of its first SELECT. -/
theorem select_ahead : tokenId ((arm.tokens ++ link.tokens) ++ rest) 0 = some .sqlSelect := by
  have select := arm.select
  rw [List.append_assoc, tokenId, List.getElem?_append_left (lt_of_tokenId select)]
  exact select

theorem select_chainTokens (more : List (Link × Arm)) :
    tokenId (chainTokens arm more) 0 = some .sqlSelect := by
  cases more with
  | nil => exact arm.select
  | cons step more =>
    obtain ⟨link, next⟩ := step
    exact select_ahead arm link

/-- What is searched for behind a part of the SELECT is found there, or at the UNION. -/
theorem firstIn_chain {tokIds : List SqlTokenId} (union : .sqlUnion ∈ tokIds) {part : List SqlToken}
    (level : depth SqlToken.brace part = 0) :
    firstIn tokIds (part ++ (link.tokens ++ rest)) =
      some ((firstIn tokIds part).getD part.length) := by
  have isHit : link.union.Is tokIds := by
    rw [SqlToken.Is, link.isUnion]
    exact union
  rw [firstIn, find_append, Int.zero_add, level, firstIn, Link.tokens, List.cons_append]
  cases find SqlToken.brace (SqlToken.Is tokIds) 0 part with
  | some k => rfl
  | none => simp [find, isHit]

/-- The first UNION is the one behind the SELECT. -/
theorem findToken_union : findToken ((arm.tokens ++ link.tokens) ++ rest) 0
    ((arm.tokens ++ link.tokens) ++ rest).length .sqlUnion = some (true, arm.tokens.length) := by
  have found := @firstIn_chain link rest [.sqlUnion] (by simp) arm.tokens arm.balanced
  rw [arm.noUnion, Option.getD_none, ← List.append_assoc] at found
  rw [findToken_drop (by decide) (Nat.zero_le _), List.drop_zero, found, Option.elim_some,
    Nat.zero_add]

/-- The first FROM of all tokens, from the first on. -/
theorem getSqlFrom_whole {ts : List SqlToken} {f : Nat} (found : firstIn [.sqlFrom] ts = some f) :
    getSqlFrom ts 0 ts.length = some (true, f + 1,
      ((firstIn fromEndIds (ts.drop (f + 1))).map (f + 1 + ·)).getD ts.length) := by
  have whole : window ts 0 ts.length = ts := by simp [window]
  have behind : window ts (f + 1) ts.length = ts.drop (f + 1) := by
    rw [window]
    exact List.take_of_length_le (by rw [List.length_drop])
  have found' : firstOf ts [.sqlFrom] 0 ts.length = some f := by
    rw [firstOf, whole, found, Option.map_some, Nat.zero_add]
  rw [getSqlFrom_some (Nat.le_refl _) found', firstOf, behind]

/-- The list of tables of a SELECT is the same in the chain. -/
theorem getSqlFrom_chain {f : Nat} (found : firstIn [.sqlFrom] arm.tokens = some f) :
    getSqlFrom ((arm.tokens ++ link.tokens) ++ rest) 0
      ((arm.tokens ++ link.tokens) ++ rest).length =
      getSqlFrom arm.tokens 0 arm.tokens.length := by
  have found' : firstIn [.sqlFrom] ((arm.tokens ++ link.tokens) ++ rest) = some f := by
    rw [List.append_assoc, firstIn, find_append]
    rw [firstIn] at found
    rw [found]
  obtain ⟨before, t, behind, split, length, _, outside, kind⟩ := find_eq_some_iff.mp found
  -- The FROM stands outside of braces, and so does the end of the SELECT.
  have drop : arm.tokens.drop (f + 1) = behind := by
    rw [split, ← length, ← List.drop_drop, List.drop_left]
    rfl
  have level : depth SqlToken.brace behind = 0 := by
    have balanced := arm.balanced
    have flat : t.brace = 0 := kind.brace_eq (by decide)
    rw [split, depth_append, depth_cons, flat] at balanced
    omega
  have drop' : ((arm.tokens ++ link.tokens) ++ rest).drop (f + 1) =
      behind ++ (link.tokens ++ rest) := by
    have inside := firstIn_lt found
    rw [List.append_assoc, List.drop_append_of_le_length (by omega), drop]
  have size : arm.tokens.length = f + 1 + behind.length := by
    rw [split, List.length_append, List.length_cons, length]
    omega
  rw [getSqlFrom_whole found', getSqlFrom_whole found, drop, drop',
    firstIn_chain link (by decide) level]
  cases firstIn fromEndIds behind with
  | some e => rfl
  | none => simp [size]

/-- A FROM that is not one of the SELECT itself stands behind it. -/
theorem getSqlFrom_behind {fromstart fromend : Nat} (nothing : firstIn [.sqlFrom] arm.tokens = none)
    (found : getSqlFrom ((arm.tokens ++ link.tokens) ++ rest) 0
      ((arm.tokens ++ link.tokens) ++ rest).length = some (true, fromstart, fromend)) :
    arm.tokens.length < fromstart ∧ fromstart ≤ fromend := by
  obtain ⟨_, order, _⟩ := getSqlFrom_bounds (Nat.le_refl _) found
  refine ⟨?_, order⟩
  let ts := (arm.tokens ++ link.tokens) ++ rest
  -- Without a FROM of its own, the search goes on into the tokens of the link and behind it.
  have search : firstIn [.sqlFrom] ts = (firstIn [.sqlFrom] (link.tokens ++ rest)).map
      (· + arm.tokens.length) := by
    have whole : ts = arm.tokens ++ (link.tokens ++ rest) := List.append_assoc _ _ _
    rw [firstIn] at nothing
    rw [whole, firstIn, find_append, nothing, arm.balanced]
    rfl
  cases there : firstIn [.sqlFrom] (link.tokens ++ rest) with
  | none =>
    rw [there] at search
    have absent : firstOf ts [.sqlFrom] 0 ts.length = none := by simp [firstOf, window, search]
    rw [getSqlFrom_none (Nat.le_refl _) absent] at found
    simp at found
  | some i =>
    rw [there] at search
    rw [getSqlFrom_whole search] at found
    simp only [Option.some.injEq, Prod.mk.injEq, true_and] at found
    omega

/-- What follows the UNION is parsed as the rest of the chain. -/
theorem parseUnion_chain (select : tokenId rest 0 = some .sqlSelect) :
    (parseUnion ((arm.tokens ++ link.tokens) ++ rest)
        (parseSubQuery ((arm.tokens ++ link.tokens) ++ rest)
          ((arm.tokens ++ link.tokens) ++ rest).length)
        .new arm.tokens.length ((arm.tokens ++ link.tokens) ++ rest).length).bind
      (reported ((arm.tokens ++ link.tokens) ++ rest)) =
    (parsedEntries rest).map (List.map (movedEntry (arm.tokens ++ link.tokens).length)) := by
  have agree := agree_append (arm.tokens ++ link.tokens) rest
  have behind := agree.tokenId_eq select
  have positive := lt_of_tokenId arm.select
  have size : ((arm.tokens ++ link.tokens) ++ rest).length =
      rest.length + (arm.tokens ++ link.tokens).length := by
    rw [List.length_append, Nat.add_comm]
  have place : (arm.tokens ++ link.tokens).length = arm.tokens.length + link.tokens.length :=
    List.length_append
  generalize whole : (arm.tokens ++ link.tokens) ++ rest = ts at agree behind size ⊢
  generalize offset : (arm.tokens ++ link.tokens).length = k at agree behind size place ⊢
  rw [Nat.zero_add] at behind
  -- The SELECT begins behind UNION or UNION ALL.
  have next : parseUnion ts (parseSubQuery ts ts.length) .new arm.tokens.length ts.length =
      parseSubQuery ts ts.length .new k ts.length := by
    cases all : link.all with
    | none =>
      have one : k = arm.tokens.length + 1 := by
        rw [place, Link.tokens, all]
        rfl
      rw [one] at behind
      simp [parseUnion, behind, one]
    | some t =>
      have two : k = arm.tokens.length + 2 := by
        rw [place, Link.tokens, all]
        rfl
      have isAll : tokenId ts (arm.tokens.length + 1) = some .sqlAll := by
        have there : ts[arm.tokens.length + 1]? = some t := by
          rw [← whole, List.append_assoc, List.getElem?_append_right (by omega),
            Nat.add_sub_cancel_left,
            Link.tokens, all]
          rfl
        rw [tokenId, there, Option.map_some, link.isAll t all]
      rw [two] at behind
      simp [parseUnion, isAll, behind, two]
  have related := alike_parseSubQuery agree (rest.length + 1) ts.length .new .new 0 rest.length
    (Nat.zero_le _) (Or.inl rfl) (Or.inr select) (by omega) (by omega) (Alike.start k rest .new)
  rw [Nat.zero_add, ← size] at related
  have shift := (reported_shift agree related rfl).eq_map
  rw [next, shift, parsedEntries_select select, parseSubQuery_select select]
  simp

/-- The condition of a SELECT is the same in the chain. -/
theorem getSqlWhere_chain {fromend wherestart whereend : Nat} {s : Parsing}
    (found : getSqlWhere arm.tokens .new fromend arm.tokens.length =
      some (s, wherestart, whereend)) :
    ∃ s', getSqlWhere ((arm.tokens ++ link.tokens) ++ rest) .new fromend arm.tokens.length =
      some (s', wherestart, whereend) := by
  have agree := agree_prefix arm.tokens (link.tokens ++ rest)
  rw [← List.append_assoc] at agree
  obtain ⟨⟨s', wherestart', whereend'⟩, found', _, same, ended⟩ :=
    (alike_getSqlWhere agree (Alike.start 0 arm.tokens .new) fromend
      arm.tokens.length).exists_of_some found
  have last : whereend' = whereend := by
    obtain ⟨zero, zero'⟩ | same := ended
    · exact zero'.trans zero.symm
    · exact same
  exact ⟨s', found'.trans (by rw [show wherestart' = wherestart from same, last])⟩

/-- The SELECTs in braces of a SELECT have the same tables in the chain. -/
theorem bracedEntries_chain (start : Nat) {stop : Nat} (inside : stop ≤ arm.tokens.length)
    {es : List (Bytes × Nat)} (found : bracedEntries arm.tokens start stop = some es) :
    bracedEntries ((arm.tokens ++ link.tokens) ++ rest) start stop = some es := by
  have agree := agree_prefix arm.tokens (link.tokens ++ rest)
  rw [← List.append_assoc] at agree
  obtain ⟨es', found', same⟩ := (bracedEntries_shift agree start inside).exists_of_some found
  rw [map_movedEntry_zero] at same
  exact same ▸ found'

/--
A SELECT with a FROM reports its tables, and those of its SELECTs in braces after all that follows.
-/
theorem parsedEntries_chain (select : tokenId rest 0 = some .sqlSelect) (from' : arm.hasFrom = true)
    {es : List (Bytes × Nat)} (alone : parsedEntries arm.tokens = some es) :
    ∃ direct nested, es = direct ++ nested ∧ nestedEntries arm.tokens = some nested ∧
      parsedEntries ((arm.tokens ++ link.tokens) ++ rest) =
        joined (joined (some direct)
          ((parsedEntries rest).map (List.map (movedEntry (arm.tokens ++ link.tokens).length))))
        (some nested) := by
  obtain ⟨f, found⟩ := Option.isSome_iff_exists.mp from'
  have first := getSqlFrom_whole found
  generalize fromend' : ((firstIn fromEndIds (arm.tokens.drop (f + 1))).map (f + 1 + ·)).getD
    arm.tokens.length = fromend at first
  obtain ⟨_, order, within⟩ := getSqlFrom_bounds (Nat.le_refl _) first
  have noUnion : findToken arm.tokens 0 arm.tokens.length .sqlUnion =
      some (false, arm.tokens.length) := by
    rw [findToken_drop (by decide) (Nat.zero_le _), List.drop_zero, arm.noUnion]
    rfl
  obtain ⟨s, wherestart, whereend, where', _, _, upperWhere⟩ :=
    @getSqlWhere_spec arm.tokens .new fromend _ (Nat.le_refl _)
  obtain ⟨s', whereChain⟩ := @getSqlWhere_chain arm link rest _ _ _ _ where'
  -- Alone, and in the chain.
  have whole := parsedEntries_from arm.select first noUnion rfl where'
  have chain := parsedEntries_from (select_ahead arm link)
    ((getSqlFrom_chain arm link found).trans first)
    (findToken_union arm link) (if_pos rfl).symm whereChain
  rw [alone] at whole
  simp only [Bool.false_eq_true, if_false, joined_nil] at whole
  obtain ⟨direct, nested, query, braced, rfl⟩ := joined_eq_some_iff.mp whole.symm
  obtain ⟨inList, _, inList', both, rfl⟩ := joined_eq_some_iff.mp braced
  obtain ⟨inTables, inWhere, inTables', inWhere', rfl⟩ := joined_eq_some_iff.mp both
  refine ⟨direct, _, rfl, ?_, ?_⟩
  · simp only [nestedEntries, first, where', Option.bind_eq_bind, Option.bind_some,
      Bool.true_eq_false, if_false]
    exact braced
  · have agree := agree_prefix arm.tokens (link.tokens ++ rest)
    rw [← List.append_assoc] at agree
    have moved : Moved 0 arm.tokens ⟨0, arm.tokens.length, f + 1, fromend, wherestart, whereend⟩
        ⟨0, arm.tokens.length, f + 1, fromend, wherestart, whereend⟩ :=
      ⟨rfl, rfl, rfl, fun _ => Nat.le_add_left _ _⟩
    obtain ⟨direct', query', same⟩ := (queryEntries_shift agree moved).exists_of_some query
    rw [map_movedEntry_zero] at same
    rw [chain, query', same, if_pos rfl, parseUnion_chain arm link select,
      bracedEntries_chain arm link 0 (by omega) inList',
        bracedEntries_chain arm link _ within inTables',
      bracedEntries_chain arm link _ upperWhere inWhere']
    rfl

omit arm link in
/-- A SELECT without a FROM reports nothing. -/
theorem parsedEntries_none {ts : List SqlToken} (select : tokenId ts 0 = some .sqlSelect)
    (nothing : firstIn [.sqlFrom] ts = none) : parsedEntries ts = some [] := by
  have absent : firstOf ts [.sqlFrom] 0 ts.length = none := by simp [firstOf, window, nothing]
  exact parsedEntries_noFrom select (getSqlFrom_none (Nat.le_refl _) absent)

/-- Neither UNION nor ALL is a brace or a FROM. -/
theorem firstIn_link : firstIn [.sqlFrom] (link.tokens ++ rest) =
    (firstIn [.sqlFrom] rest).map (· + link.tokens.length) := by
  have flat : depth SqlToken.brace link.tokens = 0 ∧ firstIn [.sqlFrom] link.tokens = none := by
    have union := link.isUnion
    rw [Link.tokens]
    cases all : link.all with
    | none => simp [depth, SqlToken.brace, firstIn, find, SqlToken.Is, union]
    | some t =>
      have isAll := link.isAll t all
      simp [depth, SqlToken.brace, firstIn, find, SqlToken.Is, union, isAll]
  obtain ⟨level, nothing⟩ := flat
  rw [firstIn] at nothing
  rw [firstIn, find_append, nothing, level]
  rfl

/--
A SELECT without a FROM takes the next one there is, with what is in braces before and within it.
-/
theorem parsedEntries_borrows (select : tokenId rest 0 = some .sqlSelect)
    (from' : arm.hasFrom = false) :
    (parsedEntries ((arm.tokens ++ link.tokens) ++ rest) = some [] ∧
      borrowedEntries ((arm.tokens ++ link.tokens) ++ rest) = some [] ∧
        parsedEntries rest = some []) ∨
      ∃ direct braced,
        borrowedEntries ((arm.tokens ++ link.tokens) ++ rest) = joined direct braced ∧
        parsedEntries ((arm.tokens ++ link.tokens) ++ rest) =
          joined (joined direct
            ((parsedEntries rest).map (List.map (movedEntry (arm.tokens ++ link.tokens).length))))
              braced := by
  have nothing : firstIn [.sqlFrom] arm.tokens = none := by simpa [Arm.hasFrom] using from'
  have search : firstIn [.sqlFrom] ((arm.tokens ++ link.tokens) ++ rest) =
      ((firstIn [.sqlFrom] rest).map (· + link.tokens.length)).map (· + arm.tokens.length) := by
    rw [← firstIn_link, List.append_assoc]
    rw [firstIn] at nothing
    rw [firstIn, find_append, nothing, arm.balanced]
    rfl
  cases there : firstIn [.sqlFrom] rest with
  | none =>
    rw [there] at search
    have absent : firstOf ((arm.tokens ++ link.tokens) ++ rest) [.sqlFrom] 0
        ((arm.tokens ++ link.tokens) ++ rest).length = none := by
      simp only [firstOf, window, List.drop_zero, Nat.sub_zero, List.take_length, search,
        Option.map_none]
    refine Or.inl ⟨parsedEntries_none (select_ahead arm link) search, ?_,
      parsedEntries_none select there⟩
    rw [borrowedEntries, getSqlFrom_none (Nat.le_refl _) absent]
    rfl
  | some f =>
    rw [there] at search
    have first := getSqlFrom_whole search
    obtain ⟨behind, order⟩ := getSqlFrom_behind arm link nothing first
    generalize ((firstIn fromEndIds (((arm.tokens ++ link.tokens) ++ rest).drop
      (f + link.tokens.length + arm.tokens.length + 1))).map
        (f + link.tokens.length + arm.tokens.length + 1 + ·)).getD
          ((arm.tokens ++ link.tokens) ++ rest).length = fromend at first order
    generalize f + link.tokens.length + arm.tokens.length + 1 = fromstart at first behind order
    -- The condition is looked for between the FROM and the UNION before it.
    have where' : getSqlWhere ((arm.tokens ++ link.tokens) ++ rest) .new fromend arm.tokens.length =
        some ({ Parsing.new with isBigQuery := true }, fromend, 0) := by
      have empty : arm.tokens.length - fromend = 0 := by omega
      have past : ¬ fromend < arm.tokens.length := by omega
      simp [getSqlWhere, findToken, empty, findTokenFrom, past]
    have chain := parsedEntries_from (select_ahead arm link) first (findToken_union arm link)
      (if_pos rfl).symm where'
    rw [if_pos rfl, parseUnion_chain arm link select, bracedEntries_empty, joined_nil] at chain
    refine Or.inr ⟨_, _, ?_, chain⟩
    -- Only the range of the tables matters.
    have moved : Moved 0 ((arm.tokens ++ link.tokens) ++ rest)
        ⟨0, ((arm.tokens ++ link.tokens) ++ rest).length, fromstart, fromend, 0, 0⟩
        ⟨0, arm.tokens.length, fromstart, fromend, fromend, 0⟩ :=
      ⟨rfl, rfl, rfl, fun _ => by dsimp only; omega⟩
    simp only [borrowedEntries, first, Option.bind_eq_bind, Option.bind_some, Bool.true_eq_false,
      if_false, queryEntries_congr moved]

end

/-! ## Whole chains -/

/-- A table is named by one of the tokens. -/
theorem position_lt {ts : List SqlToken} {es : List (Bytes × Nat)}
    (found : parsedEntries ts = some es) :
    ∀ e ∈ es, e.2 < ts.length := by
  let kept : Parsing → Prop := fun s => ∀ e ∈ s.entries, e.2 < ts.length
  have search : KeptBySearch kept :=
    ⟨fun _ _ holds => holds, fun _ holds => holds, fun _ holds => holds⟩
  have tables : KeptByTables ts kept := by
    intro s query start stop tableName aliasName place simple holds e member
    obtain ⟨⟨t, there, _⟩, _⟩ := simpleTable_spec simple
    have inside := (List.getElem?_eq_some_iff.mp there).1
    rw [List.length_take, List.length_drop] at inside
    simp only [Parsing.entries, Parsing.addTableInfo, List.map_append, List.map_cons, List.map_nil,
      List.mem_append, List.mem_singleton] at member
    obtain before | same := member
    · exact holds e before
    · rw [same]
      dsimp only
      omega
  obtain ⟨s, parsed, rfl⟩ := Option.map_eq_some_iff.mp found
  exact yields_parse search tables (by simp [kept, Parsing.entries, Parsing.new]) s parsed

/-- Tables further back are the same only if they were the same. -/
theorem movedEntry_injective (k : Nat) : Function.Injective (movedEntry k) := by
  intro e e' same
  obtain ⟨name, place⟩ := Prod.mk.inj same
  exact Prod.ext name (Nat.add_right_cancel place)

/-- Tables that belong first come last without harm only if there is nothing between. -/
theorem behind_eq_iff {r es nested : List (Bytes × Nat)} {k : Nat} (fits : es.length ≤ r.length)
    (before : ∀ e ∈ nested, e.2 < k) :
    r.map (movedEntry k) ++ nested = nested ++ es.map (movedEntry k) ↔
      (nested = [] ∨ es = []) ∧ r = es := by
  constructor
  · intro same
    cases nested with
    | nil =>
      rw [List.append_nil, List.nil_append] at same
      exact ⟨Or.inl rfl, List.map_injective_iff.mpr (movedEntry_injective k) same⟩
    | cons e nested =>
      cases r with
      | nil =>
        have none_ : es = [] := List.length_eq_zero_iff.mp (Nat.le_zero.mp fits)
        exact ⟨Or.inr none_, none_.symm⟩
      | cons e' r =>
        -- The first table of what follows does not stand before it.
        have first : movedEntry k e' = e := (List.cons.inj same).1
        have inside := before e (by simp)
        rw [← first, movedEntry] at inside
        omega
  · intro both
    obtain ⟨nothing | nothing, rfl⟩ := both
    · rw [nothing, List.append_nil, List.nil_append]
    · rw [nothing, List.map_nil, List.append_nil, List.nil_append]

/-- The SELECTs have no tables together exactly if none has any. -/
theorem armsEntries_nil_iff (more : List (Link × Arm)) : ∀ arm : Arm,
    armsEntries arm more = some [] ↔
      ∀ later ∈ arm :: more.map (·.2), parsedEntries later.tokens = some [] := by
  -- The induction is on the SELECTs behind the first one.
  induction more with
  | nil => simp [armsEntries]
  | cons step more ih =>
    intro arm
    obtain ⟨link, next⟩ := step
    rw [armsEntries, joined_eq_some_iff, List.map_cons, List.forall_mem_cons, ← ih next]
    constructor
    · intro holds
      obtain ⟨es, es', here, later, nothing⟩ := holds
      obtain ⟨none_, none'⟩ := List.append_eq_nil_iff.mp nothing.symm
      obtain ⟨x, there, rfl⟩ := Option.map_eq_some_iff.mp later
      rw [List.map_eq_nil_iff] at none'
      exact ⟨none_ ▸ here, none' ▸ there⟩
    · intro holds
      obtain ⟨here, later⟩ := holds
      exact ⟨[], [], here, by rw [later]; rfl, rfl⟩

/-- The tables of the chain are known only if those of each SELECT are. -/
theorem isSome_of_armsEntries (more : List (Link × Arm)) : ∀ arm :
    Arm, (armsEntries arm more).isSome →
    ∀ later ∈ arm :: more.map (·.2), (parsedEntries later.tokens).isSome := by
  induction more with
  | nil => simp [armsEntries]
  | cons step more ih =>
    intro arm known
    obtain ⟨es, found⟩ := Option.isSome_iff_exists.mp known
    obtain ⟨first, rest, here, later, _⟩ := joined_eq_some_iff.mp found
    obtain ⟨rest', there, _⟩ := Option.map_eq_some_iff.mp later
    rw [List.map_cons, List.forall_mem_cons]
    exact ⟨by rw [here]; rfl, ih step.2 (by rw [there]; rfl)⟩

/--
A chain of SELECTs that are read reports at least their tables, and exactly these if it is orderly.
-/
theorem parsedEntries_chainTokens (more : List (Link × Arm)) : ∀ arm : Arm,
    (∀ later ∈ arm :: more.map (·.2), (parsedEntries later.tokens).isSome) →
      ∃ es, armsEntries arm more = some es ∧
        (parsedEntries (chainTokens arm more) = none → ¬ Orderly arm more) ∧
        ∀ l, parsedEntries (chainTokens arm more) = some l →
          es.length ≤ l.length ∧ (l = es ↔ Orderly arm more) := by
  induction more with
  | nil =>
    intro arm read
    obtain ⟨es, found⟩ := Option.isSome_iff_exists.mp (read arm (by simp))
    refine ⟨es, found, fun missing => ?_, fun l there => ?_⟩
    · rw [chainTokens, found] at missing
      cases missing
    · rw [chainTokens, found, Option.some.injEq] at there
      simp [there, Orderly]
  | cons step more ih =>
    intro arm read
    obtain ⟨link, next⟩ := step
    obtain ⟨later, found', missing', there'⟩ :=
      ih next fun other member => read other (List.mem_cons_of_mem arm member)
    obtain ⟨es, found⟩ := Option.isSome_iff_exists.mp (read arm (by simp))
    have nothingLater := armsEntries_nil_iff more next
    rw [found', Option.some.injEq] at nothingLater
    have select := select_chainTokens next more
    have offset : arm.tokens.length ≤ (arm.tokens ++ link.tokens).length := by
      rw [List.length_append]
      omega
    generalize rest' : chainTokens next more = rest at missing' there' select
    refine ⟨es ++ later.map (movedEntry (arm.tokens ++ link.tokens).length), ?_, ?_⟩
    · rw [armsEntries, found, found']
      rfl
    rw [Orderly, chainTokens, rest', ← nothingLater]
    by_cases from' : arm.hasFrom = true
    · obtain ⟨direct, nested, rfl, nested', chain⟩ :=
        parsedEntries_chain arm link select from' found
      rw [if_pos from', nested', chain]
      cases there : parsedEntries rest with
      | none =>
        refine ⟨fun _ orderly => missing' there orderly.2, fun l impossible => ?_⟩
        simp [joined] at impossible
      | some r =>
        obtain ⟨fits, same⟩ := there' r there
        refine ⟨fun impossible => by simp [joined] at impossible, fun l found => ?_⟩
        have total : l =
            direct ++ (r.map (movedEntry (arm.tokens ++ link.tokens).length) ++ nested) := by
          simpa [joined, eq_comm] using found
        have before : ∀ e ∈ nested, e.2 < (arm.tokens ++ link.tokens).length := fun e member =>
          Nat.lt_of_lt_of_le (position_lt ‹_› e (List.mem_append_right _ member)) offset
        rw [total, List.append_assoc, List.append_cancel_left_eq, behind_eq_iff fits before, ← same]
        constructor
        · simp only [List.length_append, List.length_map]
          omega
        · simp
    · rw [Bool.not_eq_true] at from'
      have nothing : es = [] := by
        have absent : firstIn [.sqlFrom] arm.tokens = none := by simpa [Arm.hasFrom] using from'
        rw [parsedEntries_none arm.select absent, Option.some.injEq] at found
        exact found.symm
      subst nothing
      rw [from', if_neg Bool.false_ne_true, List.nil_append]
      obtain ⟨whole, borrowed, last⟩ | ⟨direct, braced, borrowed, whole⟩ :=
        parsedEntries_borrows arm link select from'
      · -- There is no FROM, and there are no tables.
        obtain ⟨fits, same⟩ := there' [] last
        have none_ : later = [] := List.length_eq_zero_iff.mp (Nat.le_zero.mp fits)
        rw [whole, borrowed, none_]
        simp [same.mp none_.symm]
      · rw [whole, borrowed]
        cases there : parsedEntries rest with
        | none =>
          refine ⟨fun _ orderly => missing' there orderly.2, fun l impossible => ?_⟩
          cases direct <;> simp [joined] at impossible
        | some r =>
          obtain ⟨fits, same⟩ := there' r there
          cases direct with
          | none => simp [joined]
          | some direct =>
            cases braced with
            | none => simp [joined]
            | some braced =>
              refine ⟨fun impossible => by simp [joined] at impossible, fun l found => ?_⟩
              have total : l = direct ++
                  (r.map (movedEntry (arm.tokens ++ link.tokens).length) ++ braced) := by
                simpa [joined, eq_comm] using found
              have size := congrArg List.length total
              simp only [List.length_append, List.length_map] at size
              rw [← same]
              constructor
              · rw [List.length_map]
                omega
              · constructor
                · -- What is taken for its own would be counted once too often.
                  intro equal
                  have counts := congrArg List.length equal
                  rw [List.length_map] at counts
                  have noDirect : direct = [] := List.length_eq_zero_iff.mp (by omega)
                  have noBraced : braced = [] := List.length_eq_zero_iff.mp (by omega)
                  rw [total, noDirect, noBraced, List.nil_append, List.append_nil] at equal
                  exact ⟨by rw [noDirect, noBraced]; rfl,
                    List.map_injective_iff.mpr (movedEntry_injective _) equal⟩
                · intro holds
                  obtain ⟨none_, equal⟩ := holds
                  obtain ⟨noDirect, noBraced⟩ : direct = [] ∧ braced = [] := by
                    simpa [joined] using none_
                  rw [total, noDirect, noBraced, equal, List.nil_append, List.append_nil]

/-- `select 1 union select a from t`. -/
def unionWithoutFrom : UnionChain where
  first := ⟨[⟨.sqlSelect, [115, 101, 108, 101, 99, 116]⟩, ⟨.integer, [49]⟩], rfl, rfl, rfl⟩
  more := [(⟨⟨.sqlUnion, [117, 110, 105, 111, 110]⟩, none, rfl, by simp⟩,
    ⟨[⟨.sqlSelect, [115, 101, 108, 101, 99, 116]⟩, ⟨.literal, [97]⟩,
      ⟨.sqlFrom, [102, 114, 111, 109]⟩,
      ⟨.literal, [116]⟩], rfl, rfl, rfl⟩)]

end OneProxy.Sql
