import OneProxy.Sql.ParserKeeps
import OneProxy.Sql.ShiftedTables

/-! What each part of the parser adds to the tables, whatever was found before. -/

namespace OneProxy.Sql

variable {both : Prop} {ts ts' : List SqlToken} {k : Nat} {base s s' : Parsing}

/-- The tables of a statement that was found. -/
def queryEntries (ts : List SqlToken) (query : SQLQuery) : Option (List (Bytes × Nat)) :=
  (parseQueryTable ts .new query).map (·.entries)

/-- The tables of statements, one after the other. -/
def entriesOf (ts : List SqlToken) : List SQLQuery → Option (List (Bytes × Nat))
  | [] => some []
  | query :: queries => do
    let first ← queryEntries ts query
    let rest ← entriesOf ts queries
    some (first ++ rest)

/-- The tables of all statements that were found. -/
def reported (ts : List SqlToken) (s : Parsing) : Option (List (Bytes × Nat)) :=
  entriesOf ts s.querylist

/-- The tables that `parse` finds: their names, and the tokens that name them. -/
def parsedEntries (ts : List SqlToken) : Option (List (Bytes × Nat)) := (parse ts).map (·.entries)

/-! ## Tables -/

/-- The tables of one list of statements after those of another. -/
theorem entriesOf_append (first second : List SQLQuery) :
    entriesOf ts (first ++ second) =
      (entriesOf ts first).bind fun es => (entriesOf ts second).map (es ++ ·) := by
  induction first with
  | nil => simp [entriesOf]
  | cons query first ih =>
    simp only [List.cons_append, entriesOf, ih, Option.bind_eq_bind]
    cases queryEntries ts query with
    | none => rfl
    | some es =>
      cases entriesOf ts first with
      | none => rfl
      | some es' => cases entriesOf ts second <;> simp

/-- The tables of a statement further back are the same tables. -/
theorem queryEntries_shift (agree : Agree both ts ts' k) {query query' : SQLQuery}
    (moved : Moved k ts query query') :
    Alongside both (fun es es' => es' = es.map (movedEntry k)) (queryEntries ts query)
      (queryEntries ts' query') :=
  (alike_parseQueryTable agree (Alike.start k ts .new) moved).map fun _ _ alike => by
    simpa [Parsing.entries, Parsing.new] using alike.entries

theorem entriesOf_shift (agree : Agree both ts ts' k) {queries queries' : List SQLQuery}
    (moved : List.Forall₂ (Moved k ts) queries queries') :
    Alongside both (fun es es' => es' = es.map (movedEntry k)) (entriesOf ts queries)
      (entriesOf ts' queries') := by
  induction moved with
  | nil => exact Alongside.of_some rfl
  | cons first _ ih =>
    refine (queryEntries_shift agree first).bind_map fun es _ => ih.bind_map fun es' _ => ?_
    exact Alongside.of_some (by rw [List.map_append])

/-- Tokens agree with themselves. -/
theorem agree_self (ts : List SqlToken) : Agree True ts ts 0 := agree_append [] ts

/-- In place, nothing is moved. -/
theorem map_movedEntry_zero (es : List (Bytes × Nat)) : es.map (movedEntry 0) = es := by
  rw [show movedEntry 0 = id from rfl, List.map_id]

/-- Only the ranges that `Moved` is about matter for the tables. -/
theorem queryEntries_congr {query query' : SQLQuery} (moved : Moved 0 ts query query') :
    queryEntries ts query' = queryEntries ts query := by
  rw [(queryEntries_shift (agree_self ts) moved).eq_map]
  cases queryEntries ts query with
  | none => rfl
  | some es => exact congrArg some (map_movedEntry_zero es)

/-- A statement that lies where `tokenBefore` can be looked at. -/
def Placed (ts : List SqlToken) (query : SQLQuery) : Prop :=
  tokenId ts query.tbegin = some .sqlSelect → 1 ≤ query.fromstart

/-- The tables of a statement are added to those that are there. -/
theorem entries_parseQueryTable {query : SQLQuery} (placed : Placed ts query) (s : Parsing) :
    (parseQueryTable ts s query).map (·.entries) =
      (queryEntries ts query).map (s.entries ++ ·) := by
  have moved : Moved 0 ts query query := ⟨rfl, rfl, rfl, placed⟩
  have related := (alike_parseQueryTable (agree_self ts) (Alike.start 0 ts s) moved).map
    (S := fun es es' => es' = s.entries ++ es) (f := (·.entries)) (g := (·.entries))
    fun _ _ alike => by rw [alike.entries, map_movedEntry_zero]
  rw [related.eq_map]
  rfl

/-- The tables of statements are added to those that are there. -/
theorem entries_parseQueryTables {queries : List SQLQuery} :
    ∀ s, (∀ query ∈ queries, Placed ts query) →
      (parseQueryTables ts queries s).map (·.entries) =
        (entriesOf ts queries).map (s.entries ++ ·) := by
  -- The induction is on the statements; the search fails where one of them has no tables to read.
  induction queries with
  | nil => exact fun s _ => by simp [parseQueryTables, entriesOf]
  | cons query queries ih =>
    intro s placed
    have first := entries_parseQueryTable (placed query (by simp)) s
    have rest := fun s => ih s fun other member => placed other (List.mem_cons_of_mem query member)
    simp only [parseQueryTables, entriesOf, Option.bind_eq_bind]
    cases found : parseQueryTable ts s query with
    | none =>
      rw [found] at first
      cases here : queryEntries ts query with
      | none => rfl
      | some es => simp [here] at first
    | some r =>
      rw [found] at first
      cases here : queryEntries ts query with
      | none => simp [here] at first
      | some es =>
        rw [here, Option.map_some, Option.map_some, Option.some.injEq] at first
        rw [Option.bind_some, rest r, first]
        cases entriesOf ts queries <;> simp

/-! ## Statements -/

/-- What was found is further back the same, on top of what was there. -/
theorem reported_shift (agree : Agree both ts ts' k) {a b : Option Parsing}
    (related : Alongside both (Alike k ts base) a b) {before : List (Bytes × Nat)}
    (found : reported ts' base = some before) :
    Alongside both (fun es es' => es' = before ++ es.map (movedEntry k)) (a.bind (reported ts))
      (b.bind (reported ts')) := by
  refine related.bind fun r r' _ alike => ?_
  obtain ⟨queries, split, moved⟩ := alike.queries
  rw [reported, reported, split, entriesOf_append, show entriesOf ts' base.querylist = _ from found,
    Option.bind_some]
  have same := (entriesOf_shift agree moved).map (S :=
    fun es es' => es' = before ++ es.map (movedEntry k))
    (f := id) (g := (before ++ ·)) fun es es' same => by rw [same]; rfl
  rwa [Option.map_id] at same

/-- The tables of one part and then those of another. -/
def joined (first second : Option (List (Bytes × Nat))) : Option (List (Bytes × Nat)) :=
  first.bind fun es => second.map (es ++ ·)

theorem joined_assoc (first second third : Option (List (Bytes × Nat))) :
    joined (joined first second) third = joined first (joined second third) := by
  cases first <;> cases second <;> cases third <;> simp [joined]

@[simp] theorem joined_nil (es : Option (List (Bytes × Nat))) : joined es (some []) = es := by
  cases es <;> simp [joined]

@[simp] theorem nil_joined (es : Option (List (Bytes × Nat))) : joined (some []) es = es := by
  cases es <;> simp [joined]

/-- Both parts come to a result if they do together. -/
theorem joined_eq_some_iff {first second : Option (List (Bytes × Nat))} {es : List (Bytes × Nat)} :
    joined first second = some es ↔
      ∃ es₁ es₂, first = some es₁ ∧ second = some es₂ ∧ es = es₁ ++ es₂ := by
  cases first <;> cases second <;> simp [joined, eq_comm]

/-- A step of the parser adds these tables to whatever was reported before. -/
def Adds (ts : List SqlToken) (step : Parsing → Option Parsing) (es : Option (List (Bytes × Nat))) :
    Prop :=
  ∀ s, (step s).bind (reported ts) = joined (reported ts s) es

/-- What a step adds to nothing, it adds to anything. -/
theorem Adds.of_alike {step : Parsing → Option Parsing}
    (related : ∀ s, Alongside True (Alike 0 ts s) (step .new) (step s)) :
    Adds ts step ((step .new).bind (reported ts)) := by
  intro s
  cases found : reported ts s with
  | none =>
    -- The statements that were there cannot be read.
    have queries := related s
    cases after : step s with
    | none => rfl
    | some r =>
      cases first : step .new with
      | none => simp [first, after, Alongside] at queries
      | some r' =>
        rw [first, after] at queries
        obtain ⟨_, split, _⟩ := Alike.queries queries
        rw [Option.bind_some, reported, split, entriesOf_append,
          show entriesOf ts s.querylist = none from found]
        rfl
  | some before =>
    have shift := (reported_shift (agree_self ts) (related s) found).eq_map
    rw [shift, joined, Option.bind_some]
    simp only [map_movedEntry_zero]

/-- One step and then another. -/
theorem Adds.bind {step next : Parsing → Option Parsing} {es es' : Option (List (Bytes × Nat))}
    (first : Adds ts step es) (second : Adds ts next es') :
    Adds ts (fun s => (step s).bind next) (joined es es') := by
  intro s
  have rest : ((step s).bind next).bind (reported ts) =
      joined ((step s).bind (reported ts)) es' := by
    rw [Option.bind_assoc, joined, Option.bind_assoc]
    exact congrArg _ (funext second)
  rw [rest, first s, joined_assoc]

/-- A step that does nothing. -/
theorem Adds.nothing : Adds ts some (some []) := by
  intro s
  rw [Option.bind_some, joined_nil]

/-- A statement that is found. -/
theorem Adds.push (query : SQLQuery) :
    Adds ts (fun s => some (s.pushQuery query)) (queryEntries ts query) := by
  intro s
  have last : entriesOf ts [query] = queryEntries ts query := by
    simp only [entriesOf, Option.bind_eq_bind, Option.bind_some, List.append_nil]
    cases queryEntries ts query <;> rfl
  rw [Option.bind_some, reported, Parsing.pushQuery, entriesOf_append, last]
  rfl

/-! ## SELECT -/

/-- The tables of the SELECTs in braces of a range. -/
def bracedEntries (ts : List SqlToken) (start stop : Nat) : Option (List (Bytes × Nat)) :=
  (handleSubQuery ts (parseSubQuery ts ts.length) .new start stop).bind (reported ts)

/-- The parser of the statements within a statement finds the same further back. -/
theorem subAlike_parseSubQuery (agree : Agree both ts ts' k) (base : Parsing) :
    SubAlike both k ts ts' base 0 (parseSubQuery ts ts.length) (parseSubQuery ts' ts'.length) := by
  intro s s' b e later order ends reach alike
  exact alike_parseSubQuery agree _ _ s s' b e order ends reach (by omega) (by omega) alike

/-- The SELECTs in braces add their tables. -/
theorem adds_braced (start : Nat) {stop : Nat} (inside : stop ≤ ts.length) :
    Adds ts (fun s => handleSubQuery ts (parseSubQuery ts ts.length) s start stop)
      (bracedEntries ts start stop) :=
  Adds.of_alike fun s => alike_handleSubQuery (agree_self ts)
    (subAlike_parseSubQuery (agree_self ts) s)
    (Alike.start 0 ts s) (Nat.zero_le start) inside

/-- An empty range has none. -/
theorem bracedEntries_empty (start : Nat) : bracedEntries ts start 0 = some [] := by
  rw [bracedEntries, handleSubQuery, Nat.zero_sub]
  rfl

/-- The SELECTs in braces of a range are the same further back. -/
theorem bracedEntries_shift (agree : Agree both ts ts' k) (start : Nat) {stop : Nat}
    (inside : stop ≤ ts.length) :
    Alongside both (fun es es' => es' = es.map (movedEntry k)) (bracedEntries ts start stop)
      (bracedEntries ts' (start + k) (stop + k)) :=
  reported_shift agree (alike_handleSubQuery agree (subAlike_parseSubQuery agree .new)
    (Alike.start k ts .new) (Nat.zero_le start) inside) rfl

/-- All statements that a SELECT comes to are placed. -/
theorem placed_of_moved {queries queries' : List SQLQuery}
    (moved : List.Forall₂ (Moved k ts) queries queries') : ∀ query ∈ queries, Placed ts query := by
  induction moved with
  | nil => simp
  | cons first _ ih => exact List.forall_mem_cons.mpr ⟨first.positive, ih⟩

/-- A statement that begins with SELECT is parsed as one. -/
theorem parseSubQuery_select (select : tokenId ts 0 = some .sqlSelect) :
    parseSubQuery ts (ts.length + 1) .new 0 ts.length =
      parseSelect ts (parseSubQuery ts ts.length) .new 0 ts.length := by
  have inside := lt_of_tokenId select
  obtain ⟨h, skipped, _⟩ := skipExternTokensInHeader_spec (Nat.zero_le ts.length) (Nat.le_refl _)
  have first := skipExtern_select select skipped
  subst first
  rw [parseSubQuery, skipped]
  simp only [Option.bind_eq_bind, Option.bind_some]
  rw [if_neg (by omega), select]
  rfl

/-- The tables of a statement that begins with SELECT. -/
theorem parsedEntries_select (select : tokenId ts 0 = some .sqlSelect) :
    parsedEntries ts =
      (parseSelect ts (parseSubQuery ts ts.length) .new 0 ts.length).bind (reported ts) := by
  have found := parseSubQuery_select select
  have inside := lt_of_tokenId select
  have related := alike_parseSelect (agree_self ts) (subAlike_parseSubQuery (agree_self ts) .new)
    (Alike.start 0 ts .new) inside (Or.inl rfl)
  rw [parsedEntries, parse, found]
  cases done : parseSelect ts (parseSubQuery ts ts.length) .new 0 ts.length with
  | none => rfl
  | some s =>
    obtain ⟨s', _, alike⟩ := related.exists_of_some done
    obtain ⟨queries, _, moved⟩ := alike.queries
    -- The search for statements adds no table.
    have keeps : KeptBySearch fun s => s.tablelist = [] :=
      ⟨fun _ _ none_ => none_, fun _ none_ => none_, fun _ none_ => none_⟩
    have nothing : s.tablelist = [] :=
      yields_parseSubQuery keeps (ts.length + 1) .new 0 ts.length rfl s (found.trans done)
    simp only [Option.bind_eq_bind, Option.bind_some]
    rw [entries_parseQueryTables s (placed_of_moved moved), Parsing.entries, nothing]
    simp [reported]

/-- The tables of a SELECT without a FROM: none, whatever else there is. -/
theorem parsedEntries_noFrom (select : tokenId ts 0 = some .sqlSelect) {i e : Nat}
    (from' : getSqlFrom ts 0 ts.length = some (false, i, e)) : parsedEntries ts = some [] := by
  rw [parsedEntries_select select, parseSelect, from']
  rfl

/-- The tables of a SELECT with a FROM, part by part; `stop` is the UNION, or the end. -/
theorem parsedEntries_from (select : tokenId ts 0 = some .sqlSelect)
    {fromstart fromend unionPos stop wherestart whereend : Nat} {isUnion : Bool} {s : Parsing}
    (from' : getSqlFrom ts 0 ts.length = some (true, fromstart, fromend))
    (union : findToken ts 0 ts.length .sqlUnion = some (isUnion, unionPos))
    (stops : stop = if isUnion then unionPos else ts.length)
    (where' : getSqlWhere ts .new fromend stop = some (s, wherestart, whereend)) :
    parsedEntries ts =
      joined
        (joined (queryEntries ts ⟨0, stop, fromstart, fromend, wherestart, whereend⟩)
          (if isUnion then
            (parseUnion ts (parseSubQuery ts ts.length) .new unionPos ts.length).bind (reported ts)
          else some []))
        (joined (bracedEntries ts 0 fromstart)
          (joined (bracedEntries ts fromstart fromend)
            (bracedEntries ts wherestart whereend))) := by
  have inside := lt_of_tokenId select
  obtain ⟨_, order, within⟩ := getSqlFrom_bounds (Nat.le_refl _) from'
  obtain ⟨_, u, union', lowerUnion, upperUnion, beforeUnion⟩ :=
    @findToken_spec ts _ (by decide : NoBrace [.sqlUnion]) _ _ (Nat.le_refl _)
      (Nat.zero_le ts.length)
  rw [union, Option.some.injEq, Prod.mk.injEq] at union'
  obtain ⟨rfl, rfl⟩ := union'
  have stopInside : stop ≤ ts.length := by
    rw [stops]
    split <;> omega
  obtain ⟨_, _, _, where'', queries, _, upperWhere⟩ :=
    @getSqlWhere_spec ts .new fromend _ stopInside
  rw [where', Option.some.injEq, Prod.mk.injEq, Prod.mk.injEq] at where''
  obtain ⟨rfl, rfl, rfl⟩ := where''
  let query : SQLQuery := ⟨0, stop, fromstart, fromend, wherestart, whereend⟩
  let sub := parseSubQuery ts ts.length
  -- The part behind the UNION, if there is one.
  have behind : Adds ts
    (fun s => if isUnion then parseUnion ts sub s unionPos ts.length else some s)
      (if isUnion then (parseUnion ts sub .new unionPos ts.length).bind (reported ts) else
          some []) := by
    cases isUnion with
    | false => exact Adds.nothing
    | true =>
      exact Adds.of_alike fun s => alike_parseUnion (agree_self ts)
        (subAlike_parseSubQuery (agree_self ts) s) (Alike.start 0 ts s) lowerUnion (beforeUnion rfl)
        (Or.inl rfl)
  have parts := ((Adds.push query).bind behind).bind ((@adds_braced ts 0 fromstart (by omega)).bind
    ((adds_braced fromstart within).bind (@adds_braced ts wherestart whereend (by omega))))
  have whole := parts s
  rw [reported, queries] at whole
  rw [parsedEntries_select select, parseSelect, from', union]
  simp only [Option.bind_eq_bind, Option.bind_some, Bool.true_eq_false, if_false, ← stops, where']
  rw [show entriesOf ts Parsing.new.querylist = some [] from rfl, nil_joined] at whole
  rw [← whole]
  cases isUnion <;> simp [Option.bind_assoc, sub, query]

end OneProxy.Sql
