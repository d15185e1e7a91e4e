import OneProxy.Lib.Search
import OneProxy.Lib.StdMap
import OneProxy.Util.Atoi
import OneProxy.Util.Tool

/-! The parser of HTTP requests. -/

namespace OneProxy.HttpParse

open Tool

/-! ## Requests -/

/-- What the program is built for. -/
structure Platform where
  /-- `__WIN32`. -/
  win32 : Bool
  /-- A `size_t` is wider than an `unsigned int`. -/
  wide : Bool

/-- `CRLF`. -/
def Platform.crlf (p : Platform) : Bytes := if p.win32 then [13, 10] else [10]

inductive HttpMethod
  | get | post | head | put | delete | trace | connect | options | patch | unkown
  deriving DecidableEq

/-- The request as far as it is parsed. -/
structure Http where
  httpMethod : HttpMethod
  uri : Bytes
  baseUri : Bytes
  uriParamMap : StdMap Bytes Bytes
  httpversion : Bytes
  httpversionMajor : Int32
  httpversionMinor : Int32
  headerOptionMap : StdMap Bytes Bytes

/-- A new request, of which the numbers are what the memory holds. -/
def Http.fresh (httpMethod : HttpMethod) (httpversionMajor httpversionMinor : Int32) : Http where
  httpMethod := httpMethod
  uri := []
  baseUri := []
  uriParamMap := fun _ => none
  httpversion := []
  httpversionMajor := httpversionMajor
  httpversionMinor := httpversionMinor
  headerOptionMap := fun _ => none

/-- The received bytes, which a NUL follows, and how many of them are handled. -/
structure Req where
  data : Bytes
  offset : Nat
  /-- `m_length` is an `unsigned int`. -/
  small : data.length < 0x100000000

/-! ## Searching -/

/-- How a call ends that does not return 0. -/
inductive Failure
  /-- It returns -1. -/
  | returned
  /-- It uses what a search gives that finds nothing, or makes a string of a negative length. -/
  | fault
  deriving DecidableEq

/-- `strstr`, from a position up to the next NUL. -/
def strstr (data : Bytes) (pos : Nat) (needle : Bytes) : Option Nat :=
  (Search.find needle (cStr (data.drop pos))).map (pos + ·)

/-- The result of a search, which is used as it is. -/
def used : Option Nat → Except Failure Nat
  | some pos => .ok pos
  | none => .error .fault

/-- The characters from one position to another. -/
def text (data : Bytes) (pos stop : Nat) : Bytes := (data.drop pos).take (stop - pos)

/-! ## The first line -/

/-- `tmpHttpMethod`. -/
def tmpHttpMethod : List (Bytes × HttpMethod) :=
  [([71, 69, 84], .get), ([80, 79, 83, 84], .post), ([72, 69, 65, 68], .head),
    ([80, 85, 84], .put), ([68, 69, 76, 69, 84, 69], .delete), ([84, 82, 65, 67, 69], .trace),
    ([67, 79, 78, 78, 69, 67, 84], .connect), ([79, 80, 84, 73, 79, 78, 83], .options),
    ([80, 65, 84, 67, 72], .patch)]

/-- `StatusStep`, without the last one. -/
inductive StatusStep
  | method | uri | version

/-- `HTTP/`. -/
def httpSlash : Bytes := [72, 84, 84, 80, 47]

/-- `parse_httpVersion`: `npos` cut to an `unsigned int` is taken for a position. -/
def parseHttpVersion (p : Platform) (http : Http) : Except Failure Http :=
  let missing : Failure := if p.wide then .fault else .returned
  match Search.find ([47] : Bytes) http.httpversion with
  | none => .error missing
  | some pos =>
    let http := { http with httpversionMajor := atoi (http.httpversion.drop (pos + 1)) }
    match Search.find ([46] : Bytes) http.httpversion with
    | none => .error missing
    | some pos => .ok { http with httpversionMinor := atoi (http.httpversion.drop (pos + 1)) }

/-- The length from which on an `int` is negative. -/
def intLimit : Nat := 0x80000000

/-- One item of the first line, in its step; `itemLen` is an `int`. -/
def parseItem (p : Platform) (data : Bytes) (curr itemEndPos : Nat) (http : Http) :
    StatusStep → Except Failure Http
  | .method =>
    match tmpHttpMethod.lookup (text data curr itemEndPos) with
    | some httpMethod => .ok { http with httpMethod := httpMethod }
    | none => .error .returned
  | .uri => do
    let slash ← used (strstr data curr [47])
    if slash > itemEndPos then .error .returned
    else if itemEndPos - curr ≥ intLimit then .error .fault
    else .ok { http with uri := text data curr itemEndPos }
  | .version => do
    let http_ ← used (strstr data curr httpSlash)
    if http_ > itemEndPos then .error .returned
    else if itemEndPos - curr ≥ intLimit then .error .fault
    else parseHttpVersion p { http with httpversion := text data curr itemEndPos }

/-- The loop over the items, for the steps that are left. -/
def firstLineLoop (p : Platform) (data : Bytes) (endPos : Nat) :
    List StatusStep → Nat → Http → Except Failure (Nat × Http)
  | [], curr, http =>
    if curr < endPos then do
      let _ ← used (strstr data curr [32])
      .error .returned
    else .ok (curr, http)
  | step :: steps, curr, http =>
    if curr < endPos then do
      let itemEndPos ← used (strstr data curr [32])
      let itemEndPos := if itemEndPos > endPos then endPos else itemEndPos
      let http ← parseItem p data curr itemEndPos http step
      firstLineLoop p data endPos steps (itemEndPos + 1) http
    else .error .returned

/-- `parse_httpFirstLine`, which sets the offset. -/
def parseHttpFirstLine (p : Platform) (req : Req) (http : Http) : Except Failure (Nat × Http) :=
  match strstr req.data req.offset p.crlf with
  | none => .error .returned
  | some endPos => do
    let (curr, http) ← firstLineLoop p req.data endPos [.method, .uri, .version] req.offset http
    .ok (curr + 1, http)

/-! ## The parameters -/

/-- The loop over the parameters; the fuel bounds its rounds. -/
def uriParamLoop (uri : Bytes) : Nat → Nat → Nat → Http → Except Failure Http
  | 0, _, _, _ => .error .fault
  | fuel + 1, paramCurrPos, paramEndPos, http =>
    if paramEndPos ≤ uri.length then do
      let keyEndPos ← used (strstr uri paramCurrPos [61])
      if keyEndPos ≥ paramEndPos then .error .returned
      else
        let key := text uri paramCurrPos keyEndPos
        let value := text uri (keyEndPos + 1) paramEndPos
        let http := { http with uriParamMap := Function.update http.uriParamMap key (some value) }
        let paramCurrPos := paramEndPos + 1
        if paramCurrPos ≥ uri.length then .ok http
        else
          let paramEndPos := (strstr uri paramCurrPos [38]).getD uri.length
          uriParamLoop uri fuel paramCurrPos paramEndPos http
    else .ok http

/-- `parse_httpUriParam`. -/
def parseHttpUriParam (http : Http) : Except Failure Http :=
  match strstr http.uri 0 [63] with
  | none => .ok { http with baseUri := http.uri }
  | some pos =>
    let http := { http with baseUri := text http.uri 0 pos }
    let paramCurrPos := pos + 1
    let paramEndPos := (strstr http.uri paramCurrPos [38]).getD http.uri.length
    uriParamLoop http.uri (http.uri.length + 1) paramCurrPos paramEndPos http

/-! ## The header lines -/

/-- The loop over the header lines; the fuel bounds its rounds. -/
def headerOptionLoop (p : Platform) (data : Bytes) : Nat → Nat → Nat → Http → Except Failure Http
  | 0, _, _, _ => .error .fault
  | fuel + 1, curr, endPos, http =>
    if curr < endPos then do
      let keyEndPos ← used (strstr data curr [58, 32])
      if keyEndPos > endPos then .error .returned
      else
        let key := text data curr keyEndPos
        let value := text data (keyEndPos + 2) endPos
        let http :=
          { http with headerOptionMap := Function.update http.headerOptionMap key (some value) }
        let curr := endPos + 2
        if curr ≥ data.length then .ok http
        else
          match strstr data curr p.crlf with
          | none => .error .returned
          | some endPos => headerOptionLoop p data fuel curr endPos http
    else .ok http

/-- `parse_httpHeaderOption`. -/
def parseHttpHeaderOption (p : Platform) (data : Bytes) (offset : Nat) (http : Http) :
    Except Failure Http := do
  let endPos ← used (strstr data offset p.crlf)
  headerOptionLoop p data (data.length + 1) offset endPos http

/-- `parse_httpRequest`. -/
def parseHttpRequest (p : Platform) (req : Req) (http : Http) : Except Failure Http := do
  let (offset, http) ← parseHttpFirstLine p req http
  let http ← parseHttpUriParam http
  parseHttpHeaderOption p req.data offset http

end OneProxy.HttpParse
