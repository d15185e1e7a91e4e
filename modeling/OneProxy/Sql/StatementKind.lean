import OneProxy.Sql.SqlParser

/-! `SqlParser`: what kind of statement its tokens are. -/

namespace OneProxy.Sql

variable (ts : List SqlToken)

/-- The token that the statement begins with, behind its header, if there is one. -/
def headId : Option (Option SqlTokenId) := do
  let tkstart ← skipExternTokensInHeader ts 0 ts.length
  if tkstart = ts.length then some none
  else
    let id ← tokenId ts tkstart
    some (some id)

/-- What `queryType` returns. -/
inductive QueryType
  | unknown | select | update | insert | replace | delete | commit | rollback
  deriving DecidableEq

/-- The type of a statement that begins with such a token. -/
def QueryType.ofId : SqlTokenId → QueryType
  | .sqlSelect => .select
  | .sqlInsert => .insert
  | .sqlReplace => .replace
  | .sqlUpdate => .update
  | .sqlDelete => .delete
  | .sqlCommit => .commit
  | .sqlRollback => .rollback
  | _ => .unknown

/-- `queryType`. -/
def queryType : Option QueryType := do
  match ← headId ts with
  | none => some .unknown
  | some id => some (.ofId id)

/-- The tokens that a DDL statement begins with. -/
def ddlIds : List SqlTokenId :=
  [.sqlCreate, .sqlAlter, .sqlDrop, .sqlTruncate, .sqlDescribe, .sqlDesc]

/-- `isDDLQuery`. -/
def isDDLQuery : Option Bool := do
  match ← headId ts with
  | none => some false
  | some id => some (decide (id ∈ ddlIds))

/-- The loop of `isStartTrans`, with the number of tokens to look at. -/
def startTransFrom :
    Nat → Nat → Option SqlTokenId → Option SqlTokenId →
      Option (Option SqlTokenId × Option SqlTokenId)
  | 0, _, tk1, tk2 => some (tk1, tk2)
  | count + 1, i, tk1, tk2 => do
    let id ← tokenId ts i
    if id = .sqlStart ∨ id = .sqlTransaction then
      if tk1 = none then startTransFrom count (i + 1) (some id) tk2
      else if tk2 = none then startTransFrom count (i + 1) tk1 (some id)
      else some (tk1, tk2)
    else if id ≠ .comment then some (tk1, tk2)
    else startTransFrom count (i + 1) tk1 tk2

/-- `isStartTrans`. -/
def isStartTrans : Option Bool := do
  let tkstart ← skipExternTokensInHeader ts 0 ts.length
  if tkstart ≥ ts.length then some false
  else
    let id ← tokenId ts tkstart
    if id = .sqlBegin then some true
    else
      let (tk1, tk2) ← startTransFrom ts (ts.length - tkstart) tkstart none none
      some (decide (tk1 = some .sqlStart ∧ tk2 = some .sqlTransaction))

end OneProxy.Sql
