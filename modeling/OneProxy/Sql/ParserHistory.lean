import OneProxy.Sql.StatementKind
import OneProxy.Sql.TokenizerLaws

/-! A parser that is used for one statement after another. -/

namespace OneProxy.Sql

/-- A parser. Its range of tokens, of `m_local_begin` and `m_local_end`, is always all of them. -/
structure SqlParser where
  store : TokenStore
  /-- What `parse` has found out, unless it read a token that is not there. -/
  parsing : Option Parsing

namespace SqlParser

/-- A new parser. -/
def new : SqlParser := ⟨.new, some .new⟩

/-- `reset`. -/
def reset (p : SqlParser) : SqlParser := ⟨p.store.reset, some .new⟩

/-- `parse`. -/
def parse (p : SqlParser) (text : Bytes) : SqlParser :=
  let p := p.reset
  let store := parseToken p.store text
  let ts := store.values
  { store := store
    parsing := do
      let s ← p.parsing
      let s ← parseSubQuery ts (ts.length + 1) s 0 ts.length
      parseQueryTables ts s.querylist s }

/-- What a parser is asked for after `parse`. -/
structure Answers where
  tokens : List SqlToken
  pattern : Bytes
  queryType : Option QueryType
  isStartTrans : Option Bool
  tablelist : Option (List SQLTable)

/-- The answers of a parser. -/
def answers (p : SqlParser) : Answers where
  tokens := p.store.values
  pattern := toPatternQuery p.store.values
  queryType := Sql.queryType p.store.values
  isStartTrans := Sql.isStartTrans p.store.values
  tablelist := p.parsing.map (·.tablelist)

variable {p : SqlParser}

/-- After a reset, the tokens are in order at every moment of the scan. -/
theorem wellFormed_scan (wf : p.store.WellFormed) (text : Bytes) (matches_ : Nat) :
    ((Scan.begin_ p.store.reset text).run matches_).store.WellFormed := by
  have start : Scan.Alike (.begin_ p.store.reset text) (.begin_ p.store.reset text) :=
    ⟨rfl, rfl, rfl, rfl, rfl, wf.reset, wf.reset⟩
  exact (start.run matches_).wf

/-- The tokens of a statement are those that a new parser makes. -/
theorem values_parse (wf : p.store.WellFormed) (text : Bytes) :
    (p.parse text).store.values = tokenize text :=
  (values_parseToken wf.reset rfl text).2

/-- What is found out is what a new parser finds out. -/
theorem parsing_parse (wf : p.store.WellFormed) (text : Bytes) :
    (p.parse text).parsing = Sql.parse (tokenize text) := by
  have same := values_parse wf text
  simp only [parse] at same ⊢
  rw [same]
  rfl

/-- The answers depend on nothing but the text. -/
theorem answers_parse (wf : p.store.WellFormed) (text : Bytes) : (p.parse text).answers =
    { tokens := tokenize text
      pattern := toPatternQuery (tokenize text)
      queryType := Sql.queryType (tokenize text)
      isStartTrans := Sql.isStartTrans (tokenize text)
      tablelist := (Sql.parse (tokenize text)).map (·.tablelist) } := by
  rw [answers, values_parse wf text, parsing_parse wf text]

/-- Whatever is parsed, the tokens are in order. -/
theorem wellFormed_foldl (earlier : List Bytes) :
    (earlier.foldl parse new).store.WellFormed := by
  induction earlier using List.reverseRecOn with
  | nil => exact TokenStore.wellFormed_new
  | append_singleton earlier text ih =>
    rw [List.foldl_append]
    exact wellFormed_scan ih text _

end SqlParser

end OneProxy.Sql
