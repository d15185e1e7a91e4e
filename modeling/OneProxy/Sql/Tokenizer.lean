import OneProxy.Lib.Lexing
import OneProxy.Sql.Keywords
import OneProxy.Sql.TokenStoreLaws

/-! The scanner: its rules, which are tried by the longest match, and what they do. -/

namespace OneProxy.Sql

open Lexing

/-! ## Rules -/

/-- The start conditions. -/
inductive StartState
  | initial | comment | linecomment | quoted
  deriving DecidableEq

/-- What a rule does with the text that it matches. -/
inductive Action
  /-- `appendToken`, with the text. -/
  | token (tokenId : SqlTokenId)
  /-- `appendToken`, with no text yet, and `BEGIN`. -/
  | start (tokenId : SqlTokenId) (next : StartState)
  /-- `appendTokenToLast`. -/
  | toLast
  /-- `BEGIN`. -/
  | goto (next : StartState)
  /-- A quote begins. -/
  | quote
  /-- `yymore`. -/
  | more
  /-- Two quotes, and one quote, within a quote. -/
  | twoQuotes
  | oneQuote
  /-- A name, which may have dots. -/
  | name
  /-- Nothing. -/
  | ignore
  /-- The default rule of the scanner generator. -/
  | echo
  deriving DecidableEq

def isDigit (c : UInt8) : Bool := 48 ≤ c && c ≤ 57

def isAlpha (c : UInt8) : Bool := 65 ≤ c && c ≤ 90 || 97 ≤ c && c ≤ 122

/-- `[[:space:]]`. -/
def isSpace (c : UInt8) : Bool := 9 ≤ c && c ≤ 13 || c = 32

/-- `["'\`]`. -/
def isQuote (c : UInt8) : Bool := c = 34 || c = 39 || c = 96

/-- `.`. -/
def notNewline (c : UInt8) : Bool := c ≠ 10

namespace Rule

/-- Digits. -/
def digits : Pattern UInt8 := .some_ isDigit

/-- `"\r"?"\n"`. -/
def newline : Pattern UInt8 := .seq (.optional (.text [13])) (.text [10])

/-- `([[:digit:]]*".")?[[:digit:]]+[eE][-+]?[[:digit:]]+`. -/
def scientific : Pattern UInt8 :=
  .seq (.optional (.seq (.many isDigit) (.text [46]))) <| .seq digits <|
    .seq (.one fun c => c = 101 || c = 69) <|
      .seq (.optional (.one fun c => c = 45 || c = 43)) digits

/-- `[[:digit:]]*"."[[:digit:]]+`. -/
def decimal : Pattern UInt8 := .seq (.many isDigit) (.seq (.text [46]) digits)

/-- `[[:alnum:]_@$#]`. -/
def inName (c : UInt8) : Bool :=
  isAlpha c || isDigit c || c = 95 || c = 64 || c = 36 || c = 35

/-- `"."[[:digit:]]*[[:alpha:]_@][[:alnum:]_@]*`. -/
def dotted : Pattern UInt8 :=
  .seq (.text [46]) <| .seq (.many isDigit) <|
    .seq (.one fun c => isAlpha c || c = 95 || c = 64)
      (.many fun c => isAlpha c || isDigit c || c = 95 || c = 64)

/-- `[[:alpha:]_@$#][[:alnum:]_@$#]*`, with up to two dotted parts behind it. -/
def name : Pattern UInt8 :=
  .seq (.one fun c => isAlpha c || c = 95 || c = 64 || c = 36 || c = 35) <|
    .seq (.many inName) (.optional (.seq dotted (.optional dotted)))

end Rule

/-- The rules of the start condition `COMMENT`. -/
def commentRules : List (Pattern UInt8 × Action) :=
  [(.many (· ≠ 42), .toLast),
    (.seq (.some_ (· = 42)) (.many fun c => c ≠ 42 && c ≠ 47), .toLast),
    (.seq (.some_ (· = 42)) (.text [47]), .goto .initial)]

/-- The rules of the start condition `LINECOMMENT`. -/
def linecommentRules : List (Pattern UInt8 × Action) :=
  [(.many notNewline, .toLast), (Rule.newline, .goto .initial)]

/-- The rules of the start condition `QUOTED`. -/
def quotedRules : List (Pattern UInt8 × Action) :=
  [(.text [92, 39], .more), (.many fun c => !isQuote c && c ≠ 92, .toLast),
    (.seq (.text [92]) (.one notNewline), .toLast),
      (.seq (.one isQuote) (.one isQuote), .twoQuotes),
    (.one isQuote, .oneQuote)]

/-- The rules of the start condition `INITIAL`. -/
def initialRules : List (Pattern UInt8 × Action) :=
  [(.seq (.text [45, 45]) Rule.newline, .start .comment .initial),
    (.text [47, 42], .start .comment .comment), (.text [47, 42, 33], .start .commentMysql .comment),
    (.text [45, 45], .start .comment .linecomment), (.one isQuote, .quote),
    (.some_ isSpace, .ignore),
    (Rule.scientific, .token .float), (.seq (.text [45]) Rule.scientific, .token .float),
    (.seq (.text [43]) Rule.scientific, .token .float),
    (Rule.name, .name),
    (Rule.digits, .token .integer), (.seq (.text [45]) Rule.digits, .token .integer),
    (.seq (.text [43]) Rule.digits, .token .integer),
    (Rule.decimal, .token .float), (.seq (.text [45]) Rule.decimal, .token .float),
    (.seq (.text [43]) Rule.decimal, .token .float),
    (.text [44], .token .comma), (.text [46], .token .dot), (.text [60], .token .lt),
    (.text [62], .token .gt), (.text [60, 61], .token .le), (.text [62, 61], .token .ge),
    (.text [61], .token .eq), (.text [60, 62], .token .ne), (.text [33, 61], .token .ne),
    (.text [40], .token .obrace), (.text [41], .token .cbrace),
    -- The action for a semicolon is a comment.
    (.text [59], .ignore),
    (.text [58, 61], .token .assign), (.text [42], .token .star), (.text [43], .token .plus),
    (.text [47], .token .div), (.text [45], .token .minus), (.text [38], .token .bitwiseAnd),
    (.text [38, 38], .token .logicalAnd), (.text [124], .token .bitwiseOr),
    (.text [124, 124], .token .logicalOr), (.text [94], .token .bitwiseXor),
    (.text [58, 58], .token .sqlActionscope), (.text [126], .token .sqlMatchregexcase),
    (.text [126, 42], .token .sqlMatchregexnocase), (.text [33, 126], .token .sqlNomatchregexcase),
    (.text [33, 126, 42], .token .sqlNomatchregexnocase), (.one notNewline, .token .unknown)]

/-- The rules of a start condition, and the default rule behind them. -/
def rules (state : StartState) : List (Pattern UInt8 × Action) :=
  (match state with
    | .initial => initialRules
    | .comment => commentRules
    | .linecomment => linecommentRules
    | .quoted => quotedRules) ++ [(.one fun _ => true, .echo)]

/-! ## Scanning -/

/-- The scanner within a text. -/
structure Scan where
  state : StartState
  quoteChar : UInt8
  /-- What `yymore` keeps for the next rule. -/
  kept : Bytes
  /-- What is not scanned yet. -/
  rest : Bytes
  store : TokenStore

namespace Scan

/-- The scanner at the beginning of a text. -/
def begin_ (store : TokenStore) (text : Bytes) : Scan := ⟨.initial, 0, [], text, store⟩

/-- The names between the dots of a text, and the dots, as they are appended. -/
def appendNames (store : TokenStore) : List Bytes → TokenStore
  | [] => store
  | [name] => store.appendToken (tokenIdByName name) name
  | name :: names =>
    appendNames ((store.appendToken (tokenIdByName name) name).appendToken .dot [46]) names

/-- The id of the token that a quote makes. -/
def quoteTokenId (quoteChar : UInt8) : SqlTokenId := if quoteChar = 39 then .string else .literal

/-- An action on `yytext`, with the text behind it. -/
def act (s : Scan) (yytext rest : Bytes) : Action → Scan
  | .token tokenId => { s with
      kept := [], rest := rest, store := s.store.appendToken tokenId yytext }
  | .start tokenId next => { s with
      state := next, kept := [], rest := rest, store := s.store.appendToken tokenId [] }
  | .toLast => { s with kept := [], rest := rest, store := s.store.appendTokenToLast yytext }
  | .goto next => { s with state := next, kept := [], rest := rest }
  | .quote =>
    let quoteChar := yytext.headD 0
    { s with
      state := .quoted, quoteChar := quoteChar, kept := [], rest := rest
      store := s.store.appendToken (quoteTokenId quoteChar) [] }
  | .more => { s with kept := yytext, rest := rest }
  | .twoQuotes =>
    if yytext[0]? = yytext[1]? ∧ yytext[1]? = some s.quoteChar then
      { s with kept := [], rest := rest, store := s.store.appendTokenToLast yytext }
    else
      -- `yyless (1)`: all but the first character is scanned again.
      { s with
        kept := [], rest := yytext.drop 1 ++ rest
        store := s.store.appendTokenToLast (yytext.take 1) }
  | .oneQuote =>
    if yytext.head? = some s.quoteChar then { s with state := .initial, kept := [], rest := rest }
    else { s with kept := [], rest := rest, store := s.store.appendTokenToLast yytext }
  | .name => { s with
      kept := [], rest := rest, store := appendNames s.store (yytext.splitOn 46) }
  | .ignore | .echo => { s with kept := [], rest := rest }

/-- One match, or the end of the text, at which `INITIAL` is left for good. -/
def step (s : Scan) : Option Scan :=
  if s.rest = [] then
    if s.state = .initial then none else some { s with state := .initial, kept := [] }
  else
    (pick (rules s.state) s.rest).map fun (action, n) =>
      s.act (s.kept ++ s.rest.take n) (s.rest.drop n) action

/-- Matches until the end, at most as many as given. -/
def run : Nat → Scan → Scan
  | 0, s => s
  | fuel + 1, s =>
    match s.step with
    | none => s
    | some s => run fuel s

/-- A bound for the number of matches; `yyless` can give back what `yymore` has kept. -/
def bound (length : Nat) : Nat := (length + 2) * (length + 2)

end Scan

/-- `parseToken`: the tokens of a text are appended to those that are there. -/
def parseToken (store : TokenStore) (text : Bytes) : TokenStore :=
  ((Scan.begin_ store text).run (Scan.bound text.length)).store

/-- The tokens of a text, for a new parser. -/
def tokenize (text : Bytes) : List SqlToken := (parseToken .new text).values

end OneProxy.Sql
