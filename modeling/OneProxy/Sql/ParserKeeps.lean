import OneProxy.Sql.SqlParser

/-! What both halves of the parser keep, whatever the tokens are. -/

namespace OneProxy.Sql

open Parsing

variable {ts : List SqlToken} {kept : Parsing → Prop}

/-! ## The search for statements -/

/-- Whatever comes out has the property. -/
def Yields (kept : Parsing → Prop) (r : Option Parsing) : Prop := ∀ s, r = some s → kept s

theorem yields_none : Yields kept none := fun _ done => absurd done (by simp)

theorem yields_some {s : Parsing} (holds : kept s) : Yields kept (some s) := by
  intro s' done
  exact Option.some.inj done ▸ holds

/-- Whatever a first step yields, the rest goes on from there. -/
theorem Yields.bind {α : Type} {r : Option α} {next : α → Option Parsing}
    (rest : ∀ a, r = some a → Yields kept (next a)) : Yields kept (r >>= next) := by
  intro s done
  obtain ⟨a, first, last⟩ := Option.bind_eq_some_iff.mp done
  exact rest a first s last

theorem yields_ite {c : Prop} [Decidable c] {r r' : Option Parsing} (yes : Yields kept r)
    (no : Yields kept r') : Yields kept (if c then r else r') := by
  split
  · exact yes
  · exact no

/-- A property that is kept when statements are found. -/
structure KeptBySearch (kept : Parsing → Prop) : Prop where
  pushQuery : ∀ s query, kept s → kept (s.pushQuery query)
  bigQuery : ∀ s, kept s → kept { s with isBigQuery := true }
  insertSelect : ∀ s, kept s → kept { s with isInsertSelect := true }

section

variable {sub : Parsing → Nat → Nat → Option Parsing}

theorem yields_peelBraces (search : ∀ s b e, kept s → Yields kept (sub s b e)) (endBrace : Nat) :
    ∀ s startBrace, kept s → Yields kept (peelBraces ts sub s startBrace endBrace) := by
  induction endBrace with
  | zero =>
    intro s startBrace holds
    exact Yields.bind fun id _ => yields_ite yields_none (yields_some holds)
  | succ endBrace ih =>
    intro s startBrace holds
    refine Yields.bind fun id _ => yields_ite (Yields.bind fun id _ => yields_ite ?_ ?_) ?_
    · refine Yields.bind fun id _ => yields_ite (Yields.bind fun s' found => ?_) (ih s _ holds)
      exact ih s' _ (search s _ _ holds s' found)
    · exact yields_some holds
    · exact yields_some holds

theorem yields_handleSubQueryFrom (search : ∀ s b e, kept s → Yields kept (sub s b e))
    (count : Nat) :
    ∀ i startBrace braceCount s, kept s →
      Yields kept (handleSubQueryFrom ts sub count i startBrace braceCount s) := by
  induction count with
  | zero => exact fun i startBrace braceCount s holds => yields_some holds
  | succ count ih =>
    intro i startBrace braceCount s holds
    refine Yields.bind fun id _ => yields_ite (ih _ _ _ s holds) (yields_ite ?_ (ih _ _ _ s holds))
    refine yields_ite (Yields.bind fun s' peeled => ?_) (ih _ _ _ s holds)
    exact ih _ _ _ s' (yields_peelBraces search _ s _ holds s' peeled)

theorem yields_handleSubQuery (search : ∀ s b e, kept s → Yields kept (sub s b e)) {s : Parsing}
    (holds : kept s) (substart subend : Nat) :
    Yields kept (handleSubQuery ts sub s substart subend) :=
  yields_handleSubQueryFrom search _ _ _ _ s holds

theorem yields_parseUnion (search : ∀ s b e, kept s → Yields kept (sub s b e)) {s : Parsing}
    (holds : kept s) (unionPos tend : Nat) : Yields kept (parseUnion ts sub s unionPos tend) :=
  Yields.bind fun _ _ => Yields.bind fun _ _ =>
    yields_ite (search s _ _ holds) (yields_some holds)

theorem kept_getSqlWhere (keeps : KeptBySearch kept) {s s' : Parsing} (holds : kept s)
    {start stop wherestart whereend : Nat}
    (done : getSqlWhere ts s start stop = some (s', wherestart, whereend)) : kept s' := by
  -- The condition may end behind a keyword that only a big query has.
  rw [getSqlWhere] at done
  obtain ⟨⟨found, i⟩, _, done⟩ := Option.bind_eq_some_iff.mp done
  dsimp only at done
  split at done
  · simp only [Option.some.injEq, Prod.mk.injEq] at done
    exact done.1 ▸ keeps.bigQuery s holds
  · obtain ⟨⟨ended, whereend'⟩, _, done⟩ := Option.bind_eq_some_iff.mp done
    dsimp only at done
    split at done
    · obtain ⟨id, _, done⟩ := Option.bind_eq_some_iff.mp done
      simp only [Option.some.injEq, Prod.mk.injEq] at done
      rw [← done.1]
      split
      · exact keeps.bigQuery s holds
      · exact holds
    · simp only [Option.some.injEq, Prod.mk.injEq] at done
      exact done.1 ▸ holds

theorem yields_parseSelect (keeps : KeptBySearch kept)
    (search : ∀ s b e, kept s → Yields kept (sub s b e)) {s : Parsing} (holds : kept s)
    (tbegin tend : Nat) : Yields kept (parseSelect ts sub s tbegin tend) := by
  -- Statements within the columns, the tables and the condition are found one after the other.
  refine Yields.bind fun from_ _ => ?_
  obtain ⟨found, fromstart, fromend⟩ := from_
  refine yields_ite (yields_some holds) (Yields.bind fun union _ => ?_)
  obtain ⟨isUnion, unionPos⟩ := union
  refine Yields.bind fun where_ condition => ?_
  obtain ⟨s₁, wherestart, whereend⟩ := where_
  have pushed := keeps.pushQuery s₁ ⟨tbegin, if isUnion then unionPos else tend, fromstart, fromend,
    wherestart, whereend⟩ (kept_getSqlWhere keeps holds condition)
  have rest : ∀ s₂, kept s₂ → Yields kept (do
      let s ← handleSubQuery ts sub s₂ tbegin fromstart
      let s ← handleSubQuery ts sub s fromstart fromend
      handleSubQuery ts sub s wherestart whereend) := by
    intro s₂ second
    refine Yields.bind fun s₃ done => Yields.bind fun s₄ done' => ?_
    have third := yields_handleSubQuery search second _ _ s₃ done
    exact yields_handleSubQuery search (yields_handleSubQuery search third _ _ s₄ done') _ _
  exact yields_ite
    (Yields.bind fun s₂ done => rest s₂ (yields_parseUnion search pushed _ _ s₂ done))
    (Yields.bind fun s₂ done => rest s₂ (yields_some pushed s₂ done))

theorem yields_parseUpdate (keeps : KeptBySearch kept)
    (search : ∀ s b e, kept s → Yields kept (sub s b e)) {s : Parsing} (holds : kept s)
    (tbegin tend : Nat) : Yields kept (parseUpdate ts sub s tbegin tend) := by
  refine Yields.bind fun set _ => yields_ite (yields_some holds) (Yields.bind fun id _ => ?_)
  refine yields_ite (yields_some holds) (Yields.bind fun name _ => Yields.bind fun where_ _ => ?_)
  refine Yields.bind fun s₂ done => ?_
  have second := yields_handleSubQuery search (keeps.pushQuery s _ holds) _ _ s₂ done
  exact yields_handleSubQuery search second _ _

theorem yields_parseDelete (keeps : KeptBySearch kept)
    (search : ∀ s b e, kept s → Yields kept (sub s b e)) {s : Parsing} (holds : kept s)
    (tbegin tend : Nat) : Yields kept (parseDelete ts sub s tbegin tend) := by
  refine Yields.bind fun from_ _ => yields_ite (Yields.bind fun where_ _ => ?_) (yields_some holds)
  refine Yields.bind fun s₂ done => ?_
  have second := yields_handleSubQuery search (keeps.pushQuery s _ holds) _ _ s₂ done
  exact yields_handleSubQuery search second _ _

theorem yields_parseInsert (keeps : KeptBySearch kept)
    (search : ∀ s b e, kept s → Yields kept (sub s b e)) {s : Parsing} (holds : kept s)
    (tbegin tend : Nat) : Yields kept (parseInsert ts sub s tbegin tend) := by
  refine Yields.bind fun into _ => yields_ite (Yields.bind fun fromend _ => ?_) (yields_some holds)
  refine Yields.bind fun values _ => ?_
  have pushed := keeps.pushQuery s ⟨tbegin, tend, into.2 + 1, fromend, values.1, values.1⟩ holds
  have rest : ∀ selects : Bool, Yields kept (if selects = true then
      findToken ts fromend tend .sqlSelect >>= fun select =>
        if select.1 then
          sub { (s.pushQuery ⟨tbegin, tend, into.2 + 1, fromend, values.1, values.1⟩) with
            isInsertSelect := true } select.2 tend
        else some (s.pushQuery ⟨tbegin, tend, into.2 + 1, fromend, values.1, values.1⟩)
      else some (s.pushQuery ⟨tbegin, tend, into.2 + 1, fromend, values.1, values.1⟩)) := by
    intro selects
    refine yields_ite (Yields.bind fun select _ => ?_) (yields_some pushed)
    exact yields_ite (search _ _ _ (keeps.insertSelect _ pushed)) (yields_some pushed)
  exact yields_ite (Yields.bind fun selects _ => rest selects)
    (Yields.bind fun selects _ => rest selects)

theorem yields_parseCreate (keeps : KeptBySearch kept) {s : Parsing} (holds : kept s)
    (tbegin tend : Nat) : Yields kept (parseCreate ts s tbegin tend) := by
  refine yields_ite (Yields.bind fun id _ => yields_ite (Yields.bind fun fromstart _ => ?_)
    (yields_some holds)) (yields_some holds)
  refine yields_ite (Yields.bind fun id _ => ?_) (yields_some (keeps.pushQuery s _ holds))
  exact yields_some (keeps.pushQuery s _ holds)

theorem yields_parseDescribe (keeps : KeptBySearch kept) {s : Parsing} (holds : kept s)
    (tbegin tend : Nat) : Yields kept (parseDescribe ts s tbegin tend) := by
  refine yields_ite (Yields.bind fun id _ => yields_ite (Yields.bind fun fromend _ => ?_)
    (yields_some holds)) (yields_some holds)
  exact yields_some (keeps.pushQuery s _ holds)

theorem yields_parseShow (keeps : KeptBySearch kept) {s : Parsing} (holds : kept s)
    (tbegin tend : Nat) : Yields kept (parseShow ts s tbegin tend) := by
  refine yields_ite (Yields.bind fun columns _ => yields_ite (Yields.bind fun from_ _ => ?_)
    (yields_some holds)) (yields_some holds)
  exact Yields.bind fun fromend _ => yields_some (keeps.pushQuery s _ holds)

theorem yields_parseVacuum (keeps : KeptBySearch kept) {s : Parsing} (holds : kept s)
    (tbegin tend : Nat) : Yields kept (parseVacuum ts s tbegin tend) :=
  yields_ite (Yields.bind fun _ _ => yields_ite (yields_some (keeps.pushQuery s _ holds))
    (yields_some holds)) (yields_some holds)

theorem yields_parseTruncate (keeps : KeptBySearch kept) {s : Parsing} (holds : kept s)
    (tbegin tend : Nat) : Yields kept (parseTruncate ts s tbegin tend) := by
  have vacuum := @yields_parseVacuum ts kept keeps s holds tbegin tend
  refine yields_ite (Yields.bind fun id _ => yields_ite (Yields.bind fun fromend _ => ?_) vacuum)
    vacuum
  exact yields_some (keeps.pushQuery s _ holds)

theorem yields_parseStatements (search : ∀ s b e, kept s → Yields kept (sub s b e))
    (tbegin tend fuel : Nat) : ∀ s fromstart fromend, kept s →
      Yields kept (parseStatements ts sub tbegin tend fuel s fromstart fromend) := by
  induction fuel with
  | zero => exact fun s fromstart fromend _ => yields_none
  | succ fuel ih =>
    intro s fromstart fromend holds
    refine yields_ite (Yields.bind fun fromend' _ => ?_) (yields_some holds)
    have rest : ∀ s', kept s' → Yields kept (
        if fromend' < tend then parseStatements ts sub tbegin tend fuel s' (fromend' + 1)
          (fromend' + 1)
        else parseStatements ts sub tbegin tend fuel s' fromstart fromend') :=
      fun s' next => yields_ite (ih s' _ _ next) (ih s' _ _ next)
    exact yields_ite (Yields.bind fun s' done => rest s' (search s _ _ holds s' done))
      (Yields.bind fun s' done => rest s' (yields_some holds s' done))

/-- A statement keeps what is kept when statements are found. -/
theorem yields_parseStatement (keeps : KeptBySearch kept)
    (search : ∀ s b e, kept s → Yields kept (sub s b e)) {s : Parsing} (holds : kept s)
    (id : SqlTokenId) (tbegin tend : Nat) :
    Yields kept (parseStatement ts sub id s tbegin tend) := by
  -- One case for each kind of statement.
  unfold parseStatement
  split
  · exact yields_parseSelect keeps search holds _ _
  · exact yields_parseUpdate keeps search holds _ _
  · exact yields_parseDelete keeps search holds _ _
  · exact yields_parseInsert keeps search holds _ _
  · exact yields_parseInsert keeps search holds _ _
  · exact yields_parseCreate keeps holds _ _
  · exact yields_parseCreate keeps holds _ _
  · exact yields_parseCreate keeps holds _ _
  · exact yields_parseDescribe keeps holds _ _
  · exact yields_parseDescribe keeps holds _ _
  · exact yields_parseShow keeps holds _ _
  · exact yields_parseTruncate keeps holds _ _
  · exact yields_parseStatements search _ _ _ s _ _ holds
  · exact yields_parseVacuum keeps holds _ _
  · exact yields_some holds

end

/-- So does the whole search, however deep the statements lie. -/
theorem yields_parseSubQuery (keeps : KeptBySearch kept) (fuel : Nat) : ∀ s tbegin tend, kept s →
    Yields kept (parseSubQuery ts fuel s tbegin tend) := by
  induction fuel with
  | zero => exact fun s tbegin tend _ => yields_none
  | succ fuel ih =>
    intro s tbegin tend holds
    refine Yields.bind fun tkstart _ => yields_ite (yields_some holds) (Yields.bind fun id _ => ?_)
    exact yields_parseStatement keeps ih holds id tkstart tend

/-! ## The search for tables -/

/-- A name is where it should be: it is a name, or it stands behind a dot. -/
theorem simpleTable_spec {window : List SqlToken} {tableName aliasName : Bytes} {place : Nat}
    (found : simpleTable window = some (tableName, aliasName, place)) :
    (∃ t, window[place]? = some t ∧ t.text = tableName ∧
      (t.tokenId = .literal ∨ tokenBefore window place = some .dot)) ∧
      (aliasName = [] ∨ ∃ t ∈ window, t.text = aliasName ∧ t.tokenId = .literal) := by
  unfold simpleTable at found
  split at found
  all_goals
    repeat' split at found
    all_goals cases found
  all_goals simp_all [tokenBefore, tokenId]

/-- A property that is kept when the tokens of a range are a table. -/
def KeptByTables (ts : List SqlToken) (kept : Parsing → Prop) : Prop :=
  ∀ s query start stop tableName aliasName place,
    simpleTable ((ts.drop start).take (stop - start)) = some (tableName, aliasName, place) →
      kept s → kept (s.addTableInfo tableName aliasName (start + place) query)

theorem yields_parseSimple (keeps : KeptByTables ts kept) {s : Parsing} (holds : kept s)
    {query : SQLQuery} {start stop : Nat} {named : Bool} {s' : Parsing}
    (done : parseSimpleTableNameAndAlias ts s query start stop = some (named, s')) : kept s' := by
  obtain ⟨stop', _, done⟩ := Option.bind_eq_some_iff.mp done
  split at done
  · simp only [Option.some.injEq, Prod.mk.injEq] at done
    exact done.2 ▸ holds
  · split at done
    · simp only [Option.some.injEq, Prod.mk.injEq] at done
      exact done.2 ▸ holds
    · next tableName aliasName place found =>
      simp only [Option.some.injEq, Prod.mk.injEq] at done
      exact done.2 ▸ keeps s query start stop' tableName aliasName place found holds

theorem kept_parseJoinedTables (keeps : KeptByTables ts kept) (query : SQLQuery) (stop fuel : Nat) :
    ∀ s table0End firstJoin named s', kept s →
      parseJoinedTables ts query stop fuel s table0End firstJoin = some (named, s') → kept s' := by
  induction fuel with
  | zero =>
    exact fun s table0End firstJoin named s' _ done => absurd done (by simp [parseJoinedTables])
  | succ fuel ih =>
    intro s table0End firstJoin named s' holds done
    obtain ⟨⟨found, table1Start⟩, _, done⟩ := Option.bind_eq_some_iff.mp done
    dsimp only at done
    split at done
    · -- The last table, which a comma precedes, or none at all.
      obtain ⟨id, _, done⟩ := Option.bind_eq_some_iff.mp done
      split at done
      · obtain ⟨⟨named', s₁⟩, simple, done⟩ := Option.bind_eq_some_iff.mp done
        simp only [Option.some.injEq, Prod.mk.injEq] at done
        exact done.2 ▸ yields_parseSimple keeps holds simple
      · simp only [Option.some.injEq, Prod.mk.injEq] at done
        exact done.2 ▸ holds
    · obtain ⟨id, _, done⟩ := Option.bind_eq_some_iff.mp done
      split at done
      · split at done
        · obtain ⟨⟨named', s₁⟩, simple, done⟩ := Option.bind_eq_some_iff.mp done
          exact ih s₁ _ _ _ _ (yields_parseSimple keeps holds simple) done
        · exact ih s _ _ _ _ holds done
      · obtain ⟨⟨found', table1End⟩, _, done⟩ := Option.bind_eq_some_iff.mp done
        dsimp only at done
        split at done
        · exact ih s _ _ _ _ holds done
        · obtain ⟨⟨named', s₁⟩, simple, done⟩ := Option.bind_eq_some_iff.mp done
          have next := yields_parseSimple keeps holds simple
          dsimp only at done
          split at done
          · exact ih s₁ _ _ _ _ next done
          · simp only [Option.some.injEq, Prod.mk.injEq] at done
            exact done.2 ▸ next

theorem kept_parseFirstTable (keeps : KeptByTables ts kept) (query : SQLQuery) (stop fuel : Nat) :
    ∀ s i named s', kept s →
      parseFirstTable ts query stop fuel s i = some (named, s') → kept s' := by
  -- The induction is on the fuel, as the loop may pass over braces.
  induction fuel with
  | zero => exact fun s i named s' _ done => absurd done (by simp [parseFirstTable])
  | succ fuel ih =>
    intro s i named s' holds done
    rw [parseFirstTable] at done
    split at done
    · obtain ⟨⟨found, table0End⟩, _, done⟩ := Option.bind_eq_some_iff.mp done
      dsimp only at done
      split at done
      · obtain ⟨id, _, done⟩ := Option.bind_eq_some_iff.mp done
        split at done
        · exact ih s _ _ _ holds done
        · obtain ⟨⟨named', s₁⟩, simple, done⟩ := Option.bind_eq_some_iff.mp done
          exact kept_parseJoinedTables keeps query stop _ s₁ _ _ _ _
            (yields_parseSimple keeps holds simple) done
      · exact yields_parseSimple keeps holds done
    · simp only [Option.some.injEq, Prod.mk.injEq] at done
      exact done.2 ▸ holds

theorem yields_parseQueryTable (keeps : KeptByTables ts kept) {s : Parsing} (holds : kept s)
    (query : SQLQuery) : Yields kept (parseQueryTable ts s query) := by
  refine Yields.bind fun id _ => ?_
  have simple : Yields kept
    (parseSimpleTableNameAndAlias ts s query query.fromstart query.fromend >>=
      fun r => some r.2) :=
    Yields.bind fun r done => yields_some (yields_parseSimple keeps holds done)
  split
  · exact Yields.bind fun r done =>
      yields_some (kept_parseFirstTable keeps query _ _ s _ r.1 r.2 holds done)
  all_goals first | exact simple | exact yields_some holds

theorem yields_parseQueryTables (keeps : KeptByTables ts kept) (queries : List SQLQuery) :
    ∀ s, kept s → Yields kept (parseQueryTables ts queries s) := by
  induction queries with
  | nil => exact fun s holds => yields_some holds
  | cons query queries ih =>
    intro s holds
    exact Yields.bind fun s' done => ih s' (yields_parseQueryTable keeps holds query s' done)

/-- What holds of nothing, and is kept by both halves of the parser, holds of what it finds. -/
theorem yields_parse (search : KeptBySearch kept) (tables : KeptByTables ts kept)
    (start : kept .new) : Yields kept (parse ts) :=
  Yields.bind fun s found =>
    yields_parseQueryTables tables _ s (yields_parseSubQuery search _ _ _ _ start s found)

end OneProxy.Sql
