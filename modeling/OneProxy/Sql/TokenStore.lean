import OneProxy.Lib.Runs
import OneProxy.Sql.Token

/-! The tokens of a parser, which it uses again for the next statement, and how they are printed. -/

namespace OneProxy.Sql

/-! ## Tokens on the heap -/

/-- A token, and where it is on the heap. -/
structure TokenObject where
  address : Nat
  token : SqlToken

/-- The tokens of the statement, and those that are kept for the next one. -/
structure TokenStore where
  tokens : List TokenObject
  tokenCache : List TokenObject
  /-- The number of tokens that were ever made. -/
  made : Nat

namespace TokenStore

/-- No token at all, as in a new parser. -/
def new : TokenStore := ⟨[], [], 0⟩

/-- `getSqlTokenFromCache`. -/
def getSqlTokenFromCache (s : TokenStore) : TokenObject × TokenStore :=
  match s.tokenCache with
  | [] => (⟨s.made, ⟨.unknown, []⟩⟩, { s with made := s.made + 1 })
  | token :: rest => (token, { s with tokenCache := rest })

/-- `reset`, as far as it is about tokens. -/
def reset (s : TokenStore) : TokenStore :=
  { s with
    tokens := []
    tokenCache := s.tokenCache ++ s.tokens.map fun object =>
      { object with token := ⟨.unknown, []⟩ } }

/-- Appends a text to that of a token, and puts the token behind the others. -/
def push (s : TokenStore) (object : TokenObject) (tokenId : SqlTokenId) (text : Bytes) :
    TokenStore :=
  { s with
    tokens := s.tokens ++ [{ object with token := ⟨tokenId, object.token.text ++ text⟩ }] }

/-- `appendToken` of anything but a number, which it calls itself with. -/
def appendOther (s : TokenStore) (tokenId : SqlTokenId) (text : Bytes) : TokenStore :=
  let (object, s) := s.getSqlTokenFromCache
  s.push object tokenId text

/-- A number with a sign. -/
def signed (tokenId : SqlTokenId) (text : Bytes) : Bool :=
  (tokenId = .float || tokenId = .integer) && (text.head? = some 45 || text.head? = some 43)

/-- The tokens behind which a sign is an operator. -/
def operandIds : List SqlTokenId := [.literal, .float, .integer, .string]

/-- The id of the last token. -/
def lastId (s : TokenStore) : Option SqlTokenId := s.tokens.getLast?.map (·.token.tokenId)

/-- `appendToken`. -/
def appendToken (s : TokenStore) (tokenId : SqlTokenId) (text : Bytes) : TokenStore :=
  let behindOperand := s.lastId.any (· ∈ operandIds)
  let (object, s) := s.getSqlTokenFromCache
  if signed tokenId text && behindOperand then
    let s :=
      if text.head? = some 45 then s.appendOther .minus [45] else s.appendOther .plus [43]
    s.push object tokenId text.tail
  else s.push object tokenId text

/-- `appendTokenToLast`. -/
def appendTokenToLast (s : TokenStore) (text : Bytes) : TokenStore :=
  match s.tokens.getLast? with
  | none => s
  | some object => { s with
      tokens := s.tokens.dropLast ++
        [{ object with token := { object.token with text := object.token.text ++ text } }] }

/-- The tokens of the statement, wherever they are. -/
def values (s : TokenStore) : List SqlToken := s.tokens.map (·.token)

end TokenStore

/-! ## Runs -/

/-- What is called on the tokens of a parser. -/
inductive StoreCall
  | reset
  | appendToken (tokenId : SqlTokenId) (text : Bytes)
  | appendTokenToLast (text : Bytes)

/-- One call. -/
def StoreCall.next (s : TokenStore) : StoreCall → Option TokenStore
  | .reset => some s.reset
  | .appendToken tokenId text => some (s.appendToken tokenId text)
  | .appendTokenToLast text => some (s.appendTokenToLast text)

/-- Any calls on the tokens of a new parser. -/
def storeRuns : Runs.System TokenStore StoreCall := .ofStep (· = .new) StoreCall.next

/-! ## The printed pattern -/

/-- What `toPatternQuery` prints of a token. -/
def SqlToken.printed (t : SqlToken) : Bytes :=
  match t.tokenId with
  | .string | .integer | .float => [63]
  | .comment => [47, 42, 42, 47]
  | .commentMysql => [47, 42, 33, 42, 47]
  | _ => t.text

/-- The tokens that a space follows even before a brace. -/
def spacedIds : List SqlTokenId := [.sqlFrom, .sqlWhere, .sqlIn, .sqlExists, .sqlSelect]

/-- Whether there is a space between two tokens. -/
def spaced (prev tokenId : SqlTokenId) : Bool :=
  prev ≠ .dot && tokenId ≠ .dot &&
    (prev ∈ spacedIds || tokenId ≠ .cbrace && tokenId ≠ .obrace && prev ≠ .obrace)

/-- What `toPatternQuery` prints behind a token, or at first. -/
def toPatternQueryFrom : Option SqlTokenId → List SqlToken → Bytes
  | _, [] => []
  | none, t :: ts => t.printed ++ toPatternQueryFrom (some t.tokenId) ts
  | some prev, t :: ts =>
    (if spaced prev t.tokenId then [32] else []) ++ t.printed ++
      toPatternQueryFrom (some t.tokenId) ts

/-- `toPatternQuery`. -/
def toPatternQuery (ts : List SqlToken) : Bytes := toPatternQueryFrom none ts

end OneProxy.Sql
