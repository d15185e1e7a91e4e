import OneProxy.Sql.Token

/-! `SqlParser`: what it finds out about the tokens of a statement. -/

namespace OneProxy.Sql

/-- `SQLQuery`: where a statement, its list of tables and its condition begin and end. -/
structure SQLQuery where
  tbegin : Nat
  tend : Nat
  fromstart : Nat
  fromend : Nat
  wherestart : Nat
  whereend : Nat
  deriving DecidableEq

/-- `SQLTable`: a table that a statement names, with the ranges of that statement. -/
structure SQLTable where
  tbegin : Nat
  tend : Nat
  fromstart : Nat
  fromend : Nat
  wherestart : Nat
  whereend : Nat
  bigQuery : Bool
  /-- What `strcpy` writes, whether or not the 1024 bytes of the array hold it. -/
  table : Bytes
  aliasName : Bytes
  /-- The index of the token that names the table. -/
  position : Nat
  deriving DecidableEq

/-- What the parser has found out so far. -/
structure Parsing where
  isBigQuery : Bool
  isInsertSelect : Bool
  tablelist : List SQLTable
  querylist : List SQLQuery
  deriving DecidableEq

namespace Parsing

/-- Nothing, as `reset` leaves it. -/
def new : Parsing := ⟨false, false, [], []⟩

/-- `m_querylist.push_back`. -/
def pushQuery (s : Parsing) (query : SQLQuery) : Parsing :=
  { s with querylist := s.querylist ++ [query] }

/-- The part of a text that `c_str` shows. -/
def cString (text : Bytes) : Bytes := text.takeWhile (· ≠ 0)

/-- `addTableInfo`. -/
def addTableInfo (s : Parsing) (tableName aliasName : Bytes) (position : Nat) (query : SQLQuery) :
    Parsing :=
  { s with
    tablelist := s.tablelist ++ [{
      tbegin := query.tbegin
      tend := query.tend
      fromstart := query.fromstart
      fromend := query.fromend
      wherestart := query.wherestart
      whereend := query.whereend
      bigQuery := s.isBigQuery
      table := cString tableName
      aliasName := cString aliasName
      position := position }] }

end Parsing

variable (ts : List SqlToken)

/-- The id of `token(i)`: the vector does not check the index, and there may be no such token. -/
def tokenId (i : Nat) : Option SqlTokenId := ts[i]?.map (·.tokenId)

/-- The id of `token(i - 1)`. -/
def tokenBefore : Nat → Option SqlTokenId
  | 0 => none
  | i + 1 => tokenId ts i

/-- The loop of `findToken`, with the number of tokens to look at. -/
def findTokenFrom (tokId : SqlTokenId) : Nat → Nat → Int → Option Nat
  | 0, i, _ => some i
  | count + 1, i, braceCount => do
    let id ← tokenId ts i
    if braceCount ≠ 0 ∨ id ≠ tokId then
      if id = .obrace then findTokenFrom tokId count (i + 1) (braceCount + 1)
      else if id = .cbrace then findTokenFrom tokId count (i + 1) (braceCount - 1)
      else findTokenFrom tokId count (i + 1) braceCount
    else some i

/-- `findToken`: whether there is such a token outside of braces, and where. -/
def findToken (start stop : Nat) (tokId : SqlTokenId) : Option (Bool × Nat) := do
  let i ← findTokenFrom ts tokId (stop - start) start 0
  some (decide (i < stop), i)

/-- The loop of `findTokens`, with the number of tokens to look at. -/
def findTokensFrom (tokIds : List SqlTokenId) : Nat → Nat → Int → Option (Bool × Nat)
  | 0, i, _ => some (false, i)
  | count + 1, i, braceCount => do
    let id ← tokenId ts i
    if id = .obrace then findTokensFrom tokIds count (i + 1) (braceCount + 1)
    else if id = .cbrace then findTokensFrom tokIds count (i + 1) (braceCount - 1)
    else if braceCount = 0 ∧ id ∈ tokIds then some (true, i)
    else findTokensFrom tokIds count (i + 1) braceCount

/-- `findTokens`: whether there is one of these tokens outside of braces, and where. -/
def findTokens (start stop : Nat) (tokIds : List SqlTokenId) : Option (Bool × Nat) :=
  findTokensFrom ts tokIds (stop - start) start 0

/-- `skipSomeHeaderTokens`, with the number of tokens to look at. -/
def skipSomeHeaderTokens (tokId : SqlTokenId) : Nat → Nat → Option Nat
  | 0, start => some start
  | count + 1, start => do
    let id ← tokenId ts start
    if id = tokId then skipSomeHeaderTokens tokId count (start + 1) else some start

/-- `skipExternTokensInHeader`. -/
def skipExternTokensInHeader (start stop : Nat) : Option Nat := do
  let start ← skipSomeHeaderTokens ts .comment (stop - start) start
  skipSomeHeaderTokens ts .sqlExplain (stop - start) start

/-- What ends the list of tables. -/
def fromEndIds : List SqlTokenId :=
  [.sqlUnion, .sqlWhere, .sqlGroup, .sqlHaving, .sqlOrder, .sqlLimit, .sqlProcedure, .sqlInto,
    .sqlFor, .sqlLock, .sqlUse, .sqlIgnore, .sqlForce]

/-- `getSqlFrom`: whether there is a list of tables, and where it begins and ends. -/
def getSqlFrom (start stop : Nat) : Option (Bool × Nat × Nat) := do
  let (found, i) ← findToken ts start stop .sqlFrom
  if found = false then some (false, i, 0)
  else
    let (_, fromend) ← findTokens ts (i + 1) stop fromEndIds
    some (true, i + 1, fromend)

/-- What ends the condition. -/
def whereEndIds : List SqlTokenId :=
  [.sqlUnion, .sqlGroup, .sqlHaving, .sqlOrder, .sqlLimit, .sqlProcedure, .sqlInto, .sqlFor,
    .sqlLock]

/-- `getSqlWhere`: where the condition begins and ends, if there is one. -/
def getSqlWhere (s : Parsing) (start stop : Nat) : Option (Parsing × Nat × Nat) := do
  let (found, i) ← findToken ts start stop .sqlWhere
  if found = false then some ({ s with isBigQuery := true }, i, 0)
  else
    let (ended, whereend) ← findTokens ts (i + 1) stop whereEndIds
    if ended then
      let id ← tokenId ts whereend
      let s :=
        if id = .sqlUnion ∨ id = .sqlGroup ∨ id = .sqlHaving ∨ id = .sqlOrder then
          { s with isBigQuery := true }
        else s
      some (s, i + 1, whereend)
    else some (s, i + 1, whereend)

/-- Drops the semicolons at the end of a range. -/
def trimSemicolons (start : Nat) : Nat → Option Nat
  | 0 => some 0
  | last + 1 =>
    if start < last + 1 then do
      let id ← tokenId ts last
      if id = .semicolon then trimSemicolons start last else some (last + 1)
    else some (last + 1)

/-- The name, the alias and the place of the name, when the tokens are those of one table. -/
def simpleTable (window : List SqlToken) : Option (Bytes × Bytes × Nat) :=
  match window with
  | [t0] => if t0.tokenId = .literal then some (t0.text, [], 0) else none
  | [t0, t1] =>
    if t0.tokenId = .literal ∧ t1.tokenId = .literal then some (t0.text, t1.text, 0) else none
  | [t0, t1, t2] =>
    if t1.tokenId = .sqlAs then
      if t0.tokenId = .literal ∧ t2.tokenId = .literal then some (t0.text, t2.text, 0) else none
    else if t1.tokenId = .dot then
      if t0.tokenId = .literal ∧ t2.tokenId = .literal then some (t2.text, [], 2) else none
    else none
  | [t0, t1, t2, t3] =>
    if t1.tokenId = .dot then
      if t0.tokenId = .literal ∧ t2.tokenId = .literal ∧ t3.tokenId = .literal then
        some (t2.text, t3.text, 2)
      else none
    else none
  | [t0, t1, t2, t3, t4] =>
    if t1.tokenId = .dot ∧ t3.tokenId = .sqlAs then
      if t0.tokenId = .literal ∧ t2.tokenId = .literal ∧ t4.tokenId = .literal then
        some (t2.text, t4.text, 2)
      else none
    else if t0.tokenId = .literal ∧ t1.tokenId = .dot ∧ t2.tokenId = .literal ∧
        t3.tokenId = .dot then
      some (t4.text, [], 4)
    else none
  | [t0, t1, t2, t3, t4, t5] =>
    if t0.tokenId = .literal ∧ t1.tokenId = .dot ∧ t2.tokenId = .literal ∧ t3.tokenId = .dot ∧
        t5.tokenId = .literal then
      some (t4.text, t5.text, 4)
    else none
  | [t0, t1, t2, t3, t4, t5, t6] =>
    if t0.tokenId = .literal ∧ t1.tokenId = .dot ∧ t2.tokenId = .literal ∧ t3.tokenId = .dot ∧
        t5.tokenId = .sqlAs ∧ t6.tokenId = .literal then
      some (t4.text, t6.text, 4)
    else none
  | _ => none

/-- `parseSimpleTableNameAndAlias`. -/
def parseSimpleTableNameAndAlias (s : Parsing) (query : SQLQuery) (start stop : Nat) :
    Option (Bool × Parsing) := do
  let stop ← trimSemicolons ts start stop
  if stop ≤ start then some (false, s)
  else
    -- The last token of the range has just been read, so all of them are there.
    match simpleTable ((ts.drop start).take (stop - start)) with
    | none => some (false, s)
    | some (tableName, aliasName, place) =>
      some (true, s.addTableInfo tableName aliasName (start + place) query)

/-- `joinKw`: what the inner loop of `parseTableNameAndAlias` goes on to. -/
def joinKw : List SqlTokenId := [.sqlJoin, .sqlStraightJoin, .comma]

/-- `condKw`: what may follow a joined table. -/
def condKw : List SqlTokenId := [.sqlOn, .sqlUsing, .comma]

/-- The inner loop of `parseTableNameAndAlias`, which every path leaves by a `return`. -/
def parseJoinedTables (query : SQLQuery) (stop : Nat) :
    Nat → Parsing → Nat → Bool → Option (Bool × Parsing)
  | 0, _, _, _ => none
  | fuel + 1, s, table0End, firstJoin => do
    let (found, table1Start) ← findTokens ts table0End stop joinKw
    if found = false then
      let id ← tokenBefore ts table0End
      if id = .comma ∧ table1Start - table0End < 5 then
        let (_, s) ← parseSimpleTableNameAndAlias ts s query table0End table1Start
        some (!firstJoin, s)
      else some (!firstJoin, s)
    else
      let id ← tokenId ts table1Start
      if id = .comma then
        if table1Start - table0End < 5 then
          let (_, s) ← parseSimpleTableNameAndAlias ts s query table0End table1Start
          parseJoinedTables query stop fuel s (table1Start + 1) false
        else parseJoinedTables query stop fuel s (table1Start + 1) false
      else
        let table1Start := table1Start + 1
        let (found, table1End) ← findTokens ts table1Start stop condKw
        if table1End - table1Start > 5 then
          -- The table is passed over, and the loop goes on even if nothing was found.
          parseJoinedTables query stop fuel s (table1End + 1) false
        else
          let (_, s) ← parseSimpleTableNameAndAlias ts s query table1Start table1End
          if found then parseJoinedTables query stop fuel s (table1End + 1) false
          else some (true, s)

/-- What may follow the first table. -/
def firstKeyIds : List SqlTokenId :=
  [.sqlInner, .sqlCross, .sqlStraightJoin, .sqlLeft, .sqlRight, .sqlNatural, .sqlJoin, .comma]

/-- The outer loop of `parseTableNameAndAlias`. -/
def parseFirstTable (query : SQLQuery) (stop : Nat) :
    Nat → Parsing → Nat → Option (Bool × Parsing)
  | 0, _, _ => none
  | fuel + 1, s, i =>
    if i < stop then do
      let (found, table0End) ← findTokens ts i stop firstKeyIds
      if found then
        let id ← tokenId ts table0End
        if table0End - i > 5 then
          parseFirstTable query stop fuel s (if id = .comma then table0End + 1 else table0End)
        else
          let (_, s) ← parseSimpleTableNameAndAlias ts s query i table0End
          parseJoinedTables ts query stop (stop + 2 - table0End) s table0End true
      else parseSimpleTableNameAndAlias ts s query i table0End
    else some (true, s)

/-- `parseTableNameAndAlias`. -/
def parseTableNameAndAlias (s : Parsing) (query : SQLQuery) (start stop : Nat) :
    Option (Bool × Parsing) :=
  parseFirstTable ts query stop (stop - start + 1) s start

/-- `parseQueryTable`. -/
def parseQueryTable (s : Parsing) (query : SQLQuery) : Option Parsing := do
  let id ← tokenId ts query.tbegin
  match id with
  | .sqlSelect => do
    let (_, s) ← parseTableNameAndAlias ts s query query.fromstart query.fromend
    some s
  | .sqlUpdate | .sqlInsert | .sqlReplace | .sqlDelete | .sqlCreate | .sqlAlter | .sqlDrop
  | .sqlDescribe | .sqlDesc | .sqlTruncate | .sqlShow | .sqlVacuum => do
    let (_, s) ← parseSimpleTableNameAndAlias ts s query query.fromstart query.fromend
    some s
  | _ => some s

section

-- `parseSubQuery`, for the statements within a statement.
variable (sub : Parsing → Nat → Nat → Option Parsing)

/--
The inner loop of `handleSubQuery`, on the braces from `start_brace` to before `end_brace + 1`.
-/
def peelBraces (s : Parsing) (startBrace : Nat) : Nat → Option Parsing
  | 0 => do
    let id ← tokenId ts startBrace
    if id = .obrace then none else some s
  | endBrace + 1 => do
    let id ← tokenId ts startBrace
    if id = .obrace then
      let id ← tokenId ts endBrace
      if id = .cbrace then
        let id ← tokenId ts (startBrace + 1)
        if id = .sqlSelect then
          let s ← sub s (startBrace + 1) endBrace
          peelBraces s (startBrace + 1) endBrace
        else peelBraces s (startBrace + 1) endBrace
      else some s
    else some s

/--
The loop of `handleSubQuery`, with the number of tokens to look at.

Its inner loop moves `start_brace`, which is set again before it is next read.
-/
def handleSubQueryFrom : Nat → Nat → Nat → Int → Parsing → Option Parsing
  | 0, _, _, _, s => some s
  | count + 1, i, startBrace, braceCount, s => do
    let id ← tokenId ts i
    if id = .obrace then
      handleSubQueryFrom count (i + 1) (if braceCount = 0 then i else startBrace) (braceCount + 1) s
    else if id = .cbrace then
      if braceCount - 1 = 0 then
        let s ← peelBraces ts sub s startBrace (i + 1)
        handleSubQueryFrom count (i + 1) startBrace (braceCount - 1) s
      else handleSubQueryFrom count (i + 1) startBrace (braceCount - 1) s
    else handleSubQueryFrom count (i + 1) startBrace braceCount s

/-- `handleSubQuery`. -/
def handleSubQuery (s : Parsing) (substart subend : Nat) : Option Parsing :=
  handleSubQueryFrom ts sub (subend - substart) substart 0 0 s

/-- The SELECT that follows a UNION, if there is one. -/
def parseUnion (s : Parsing) (unionPos tend : Nat) : Option Parsing := do
  let id ← tokenId ts (unionPos + 1)
  let next := if id = .sqlAll then unionPos + 2 else unionPos + 1
  let id ← tokenId ts next
  if id = .sqlSelect then sub s next tend else some s

/-- `parseSubQuery` of a SELECT. -/
def parseSelect (s : Parsing) (tbegin tend : Nat) : Option Parsing := do
  let (found, fromstart, fromend) ← getSqlFrom ts tbegin tend
  if found = false then some s
  else
    let (isUnion, unionPos) ← findToken ts tbegin tend .sqlUnion
    let queryEnd := if isUnion then unionPos else tend
    let (s, wherestart, whereend) ← getSqlWhere ts s fromend queryEnd
    let s := s.pushQuery ⟨tbegin, queryEnd, fromstart, fromend, wherestart, whereend⟩
    let s ← if isUnion then parseUnion ts sub s unionPos tend else some s
    let s ← handleSubQuery ts sub s tbegin fromstart
    let s ← handleSubQuery ts sub s fromstart fromend
    handleSubQuery ts sub s wherestart whereend

/-- `parseSubQuery` of an UPDATE. -/
def parseUpdate (s : Parsing) (tbegin tend : Nat) : Option Parsing := do
  let (found, setPos) ← findToken ts tbegin tend .sqlSet
  if found = false then some s
  else
    let id ← tokenBefore ts setPos
    if id ≠ .literal then some s
    else
      let (named, name) ← findToken ts tbegin setPos .literal
      let fromstart := if named then name else 2
      let (_, wherestart) ← findToken ts setPos tend .sqlWhere
      let s := s.pushQuery ⟨tbegin, tend, fromstart, setPos, wherestart, wherestart⟩
      let s ← handleSubQuery ts sub s fromstart wherestart
      handleSubQuery ts sub s wherestart tend

/-- `parseSubQuery` of a DELETE. -/
def parseDelete (s : Parsing) (tbegin tend : Nat) : Option Parsing := do
  let (found, fromPos) ← findToken ts tbegin tend .sqlFrom
  if found = true ∧ fromPos < tend - 1 then
    let (_, wherestart) ← findToken ts (fromPos + 1) tend .sqlWhere
    let s := s.pushQuery ⟨tbegin, tend, fromPos + 1, wherestart, wherestart, tend⟩
    let s ← handleSubQuery ts sub s wherestart wherestart
    handleSubQuery ts sub s wherestart tend
  else some s

/-- The tokens that end the table of an INSERT. -/
def insertEndIds : List SqlTokenId := [.obrace, .sqlValues, .sqlValue, .sqlSelect, .sqlSet]

/-- The end of the table of an INSERT, with the number of tokens to look at. -/
def insertTableEnd : Nat → Nat → Option Nat
  | 0, i => some i
  | count + 1, i => do
    let id ← tokenId ts i
    if id ∈ insertEndIds then some i else insertTableEnd count (i + 1)

/-- `keyIds` of an INSERT. -/
def valuesIds : List SqlTokenId := [.sqlValues, .sqlValue]

/-- Where the values of an INSERT begin, as its query has it, and where the search for them ends. -/
def insertValues (fromend tend : Nat) : Option (Nat × Nat) := do
  let id ← tokenId ts fromend
  let listed ← if id ∈ valuesIds then (tokenId ts (fromend + 1)).map (decide <| · = .obrace)
    else some false
  if listed = true ∨ id = .sqlSet then some (fromend, fromend)
  else
    let (found, i) ← findTokens ts fromend tend valuesIds
    if found then
      let id ← tokenId ts (i + 1)
      some (if id = .obrace then i else 0, i)
    else some (0, i)

/-- `parseSubQuery` of an INSERT or a REPLACE. -/
def parseInsert (s : Parsing) (tbegin tend : Nat) : Option Parsing := do
  let (found, into) ← findToken ts tbegin tend .sqlInto
  if found = true ∧ into + 1 < tend then
    let fromend ← insertTableEnd ts (tend - (into + 2)) (into + 2)
    let (values, searched) ← insertValues ts fromend tend
    let s := s.pushQuery ⟨tbegin, tend, into + 1, fromend, values, values⟩
    let selects ← if searched = tend then some true
      else (tokenId ts searched).map (decide <| · ∉ valuesIds)
    if selects = true then
      let (found, i) ← findToken ts fromend tend .sqlSelect
      if found then sub { s with isInsertSelect := true } i tend else some s
    else some s
  else some s

/-- Skips `IF NOT EXISTS`; nothing but a token of another kind ends the loop. -/
def skipIfNotExists : Nat → Nat → Option Nat
  | 0, _ => none
  | fuel + 1, i => do
    let id ← tokenId ts i
    if id = .sqlIf ∨ id = .sqlNot ∨ id = .sqlExists then skipIfNotExists fuel (i + 1) else some i

/-- `parseSubQuery` of a CREATE, an ALTER or a DROP. -/
def parseCreate (s : Parsing) (tbegin tend : Nat) : Option Parsing :=
  if tbegin + 2 < tend then do
    let id ← tokenId ts (tbegin + 1)
    if id = .sqlTable then
      let fromstart ← skipIfNotExists ts (ts.length + 1) (tbegin + 2)
      if fromstart + 2 < tend then
        -- The index is a variable that is still zero here, and not the end of the table.
        let id ← tokenId ts 0
        let fromend := if id = .dot then fromstart + 3 else fromstart + 1
        some (s.pushQuery ⟨tbegin, tend, fromstart, fromend, 0, 0⟩)
      else some (s.pushQuery ⟨tbegin, tend, fromstart, fromstart + 1, 0, 0⟩)
    else some s
  else some s

/-- The end of a table that begins at a token: two tokens further, if a dot follows. -/
def dottedEnd (fromstart tend : Nat) : Option Nat :=
  if fromstart + 2 < tend then do
    let id ← tokenId ts (fromstart + 1)
    some (if id = .dot then fromstart + 3 else fromstart + 1)
  else some (fromstart + 1)

/-- `parseSubQuery` of a DESCRIBE. -/
def parseDescribe (s : Parsing) (tbegin tend : Nat) : Option Parsing :=
  if tbegin + 1 < tend then do
    let id ← tokenId ts (tbegin + 1)
    if id = .literal then
      let fromend ← dottedEnd ts (tbegin + 1) tend
      some (s.pushQuery ⟨tbegin, tend, tbegin + 1, fromend, 0, 0⟩)
    else some s
  else some s

/-- `parseSubQuery` of a SHOW; the search begins at the second token of all. -/
def parseShow (s : Parsing) (tbegin tend : Nat) : Option Parsing :=
  if tbegin + 2 < tend then do
    let (found, poscol) ← findToken ts 1 tend .sqlColumns
    if found then
      let (named, posfrom) ← findToken ts (poscol + 1) tend .sqlFrom
      let fromstart := if named then posfrom + 1 else poscol + 1
      let fromend ← dottedEnd ts fromstart tend
      some (s.pushQuery ⟨tbegin, tend, fromstart, fromend, 0, 0⟩)
    else some s
  else some s

/-- `parseSubQuery` of a VACUUM, and of a TRUNCATE without TABLE. -/
def parseVacuum (s : Parsing) (tbegin tend : Nat) : Option Parsing :=
  if tbegin + 1 < tend then do
    let id ← tokenId ts (tbegin + 1)
    if id = .literal then some (s.pushQuery ⟨tbegin, tend, tbegin + 1, tbegin + 2, 0, 0⟩)
    else some s
  else some s

/-- `parseSubQuery` of a TRUNCATE. -/
def parseTruncate (s : Parsing) (tbegin tend : Nat) : Option Parsing :=
  if tbegin + 2 < tend then do
    let id ← tokenId ts (tbegin + 1)
    if id = .sqlTable then
      let fromend ← dottedEnd ts (tbegin + 2) tend
      some (s.pushQuery ⟨tbegin, tend, tbegin + 2, fromend, 0, 0⟩)
    else parseVacuum ts s tbegin tend
  else parseVacuum ts s tbegin tend

/-- The next semicolon, with the number of tokens to look at. -/
def findSemicolon : Nat → Nat → Option Nat
  | 0, i => some i
  | count + 1, i => do
    let id ← tokenId ts i
    if id = .semicolon then some i else findSemicolon count (i + 1)

/-- The loop of `parseSubQuery` over the statements that follow a BEGIN. -/
def parseStatements (tbegin tend : Nat) : Nat → Parsing → Nat → Nat → Option Parsing
  | 0, _, _, _ => none
  | fuel + 1, s, fromstart, fromend =>
    if fromend < tend then do
      let fromend ← findSemicolon ts (tend - fromend) fromend
      let s ← if fromstart > tbegin then sub s fromstart fromend else some s
      if fromend < tend then parseStatements tbegin tend fuel s (fromend + 1) (fromend + 1)
      else parseStatements tbegin tend fuel s fromstart fromend
    else some s

/-- `parseSubQuery` of a BEGIN. -/
def parseBegin (s : Parsing) (tbegin tend : Nat) : Option Parsing :=
  parseStatements ts sub tbegin tend (tend - tbegin + 2) s tbegin tbegin

/-- `parseSubQuery`, once its header has been skipped, by the first token of the statement. -/
def parseStatement (tokenid : SqlTokenId) (s : Parsing) (tbegin tend : Nat) : Option Parsing :=
  match tokenid with
  | .sqlSelect => parseSelect ts sub s tbegin tend
  | .sqlUpdate => parseUpdate ts sub s tbegin tend
  | .sqlDelete => parseDelete ts sub s tbegin tend
  | .sqlInsert | .sqlReplace => parseInsert ts sub s tbegin tend
  | .sqlCreate | .sqlAlter | .sqlDrop => parseCreate ts s tbegin tend
  | .sqlDescribe | .sqlDesc => parseDescribe ts s tbegin tend
  | .sqlShow => parseShow ts s tbegin tend
  | .sqlTruncate => parseTruncate ts s tbegin tend
  | .sqlBegin => parseBegin ts sub s tbegin tend
  | .sqlVacuum => parseVacuum ts s tbegin tend
  | _ => some s

end

/-- `parseSubQuery`, with a bound on how deep statements lie within each other. -/
def parseSubQuery : Nat → Parsing → Nat → Nat → Option Parsing
  | 0, _, _, _ => none
  | fuel + 1, s, tbegin, tend => do
    let tkstart ← skipExternTokensInHeader ts tbegin tend
    if tkstart = tend then some s
    else
      let tokenid ← tokenId ts tkstart
      parseStatement ts (parseSubQuery fuel) tokenid s tkstart tend

/-- The second half of `parse`: the tables of all statements that were found. -/
def parseQueryTables : List SQLQuery → Parsing → Option Parsing
  | [], s => some s
  | query :: queries, s => do
    let s ← parseQueryTable ts s query
    parseQueryTables queries s

/--
`parse`, after the scanner has made the tokens; there is no result when it reads a token that is not
there.
-/
def parse : Option Parsing := do
  let s ← parseSubQuery ts (ts.length + 1) .new 0 ts.length
  parseQueryTables ts s.querylist s

/-- The names of the tables that `parse` finds. -/
def tables : Option (List Bytes) := (parse ts).map fun s => s.tablelist.map (·.table)

end OneProxy.Sql
