import OneProxy.Httpserver.Request

/-! Well-formed requests, and when the parser gives what they say. -/

namespace OneProxy.HttpParse

open Tool Search

/-! ## Well-formed requests -/

/-- Characters that neither end a line nor a string. -/
def Plain (s : Bytes) : Prop := ∀ c ∈ s, c ≠ 0 ∧ c ≠ 10 ∧ c ≠ 13

theorem Plain.append {s t : Bytes} (left : Plain s) (right : Plain t) : Plain (s ++ t) :=
  fun c member => (List.mem_append.mp member).elim (left c) (right c)

/-- A header line `key: value`, whose key has no colon with a space. -/
structure HeaderLine where
  key : Bytes
  value : Bytes
  noColon : ¬ [58, 32] <:+: key
  plainKey : Plain key
  plainValue : Plain value

/-- The characters of a header line, without its end. -/
def HeaderLine.line (header : HeaderLine) : Bytes := header.key ++ [58, 32] ++ header.value

/--
A method, a URI with a slash and a version `HTTP/x.y`, then header lines and an empty line.

Every line ends in a carriage return and a line feed.
-/
structure RequestText where
  name : Bytes
  httpMethod : HttpMethod
  known : (name, httpMethod) ∈ tmpHttpMethod
  uri : Bytes
  slash : 47 ∈ uri
  plain : Plain uri
  noSpace : 32 ∉ uri
  major : Bytes
  minor : Bytes
  majorDigits : major ≠ [] ∧ ∀ c ∈ major, isDigit c
  minorDigits : minor ≠ [] ∧ ∀ c ∈ minor, isDigit c
  headers : List HeaderLine

namespace RequestText

variable (r : RequestText)

def version : Bytes := httpSlash ++ r.major ++ 46 :: r.minor

/-- The first line, without its end. -/
def line : Bytes := r.name ++ 32 :: (r.uri ++ 32 :: r.version)

/-- Header lines, and the empty line behind them. -/
def headersText (headers : List HeaderLine) : Bytes :=
  headers.flatMap (fun header => header.line ++ [13, 10]) ++ [13, 10]

/-- The whole request. -/
def text : Bytes := r.line ++ [13, 10] ++ headersText r.headers

/-- The keys with their values, of which a later one wins. -/
def headerOptions : StdMap Bytes Bytes :=
  addLines (fun _ => none) (r.headers.map fun header => (header.key, header.value))

end RequestText

/-- The parser returns 0, and gives what the request says. -/
def Parses (p : Platform) (req : Req) (http : Http) (r : RequestText) : Prop :=
  ∃ http', parseHttpRequest p req http = .ok http' ∧ http'.httpMethod = r.httpMethod ∧
    http'.uri = r.uri ∧ http'.httpversion = r.version ∧ http'.headerOptionMap = r.headerOptions

/-! ## Their characters -/

theorem HeaderLine.plain_line (header : HeaderLine) : Plain header.line := by
  refine (header.plainKey.append ?_).append header.plainValue
  intro c member
  simp only [List.mem_cons, List.not_mem_nil, or_false] at member
  rcases member with rfl | rfl <;> decide

/-- Digits are plain, and none of them is a space. -/
theorem plain_digits {digits : Bytes} (isDigits : ∀ c ∈ digits, isDigit c) :
    Plain digits ∧ 32 ∉ digits := by
  constructor
  · intro c member
    have digit := isDigits c member
    refine ⟨?_, ?_, ?_⟩ <;> rintro rfl <;> exact absurd digit (by decide)
  · intro member
    exact absurd (isDigits 32 member) (by decide)

namespace RequestText

variable (r : RequestText)

/-- The method is one that the parser looks up. -/
theorem lookup_name : tmpHttpMethod.lookup r.name = some r.httpMethod := by
  have known := r.known
  simp only [tmpHttpMethod, List.mem_cons, Prod.mk.injEq, List.not_mem_nil, or_false] at known
  rcases known with ⟨name, method⟩ | ⟨name, method⟩ | ⟨name, method⟩ | ⟨name, method⟩ |
    ⟨name, method⟩ | ⟨name, method⟩ | ⟨name, method⟩ | ⟨name, method⟩ | ⟨name, method⟩ <;>
  · rw [name, method]
    rfl

theorem plain_name : Plain r.name ∧ 32 ∉ r.name := by
  have known := r.known
  simp only [tmpHttpMethod, List.mem_cons, Prod.mk.injEq, List.not_mem_nil, or_false] at known
  rcases known with ⟨name, _⟩ | ⟨name, _⟩ | ⟨name, _⟩ | ⟨name, _⟩ | ⟨name, _⟩ | ⟨name, _⟩ |
    ⟨name, _⟩ | ⟨name, _⟩ | ⟨name, _⟩ <;>
  · rw [name]
    simp [Plain]

theorem plain_version : Plain r.version ∧ 32 ∉ r.version := by
  obtain ⟨majorPlain, noSpace⟩ := plain_digits r.majorDigits.2
  obtain ⟨minorPlain, noSpace'⟩ := plain_digits r.minorDigits.2
  have slash : Plain httpSlash := by simp [Plain, httpSlash]
  have dot : Plain [46] := by simp [Plain]
  constructor
  · exact (slash.append majorPlain).append (dot.append minorPlain)
  · simp only [version, List.mem_append, List.mem_cons, not_or]
    exact ⟨⟨by decide, noSpace⟩, by decide, noSpace'⟩

theorem plain_line : Plain r.line := by
  have space : Plain [32] := by simp [Plain]
  exact r.plain_name.1.append (space.append (r.plain.append (space.append r.plain_version.1)))

/-- No request has a NUL in it. -/
theorem noNul_headersText (headers : List HeaderLine) : 0 ∉ headersText headers := by
  induction headers with
  | nil => decide
  | cons header headers ih =>
    have parts : headersText (header :: headers) =
        header.line ++ [13, 10] ++ headersText headers := by
      simp [headersText]
    rw [parts, List.mem_append, List.mem_append, not_or, not_or]
    exact ⟨⟨fun member => (header.plain_line 0 member).1 rfl, by decide⟩, ih⟩

theorem noNul_text : 0 ∉ r.text := by
  rw [text, List.mem_append, List.mem_append, not_or, not_or]
  exact ⟨⟨fun member => (r.plain_line 0 member).1 rfl, by decide⟩, noNul_headersText r.headers⟩

/-- There is a space behind the first line exactly if there is a header line. -/
theorem space_headersText : 32 ∈ headersText r.headers ↔ r.headers ≠ [] := by
  cases headers : r.headers with
  | nil => simp [headersText]
  | cons header headers => simp [headersText, HeaderLine.line]

/-- The header lines of a request are read. -/
theorem headersRead {p : Platform} (win : p.win32 = true) (headers : List HeaderLine) :
    HeadersRead p (headersText headers) (headers.map fun header => (header.key, header.value)) := by
  -- The induction is on the lines; none of their characters is the end of a line or of the string.
  have crlf : p.crlf = [13, 10] := by simp [Platform.crlf, win]
  induction headers with
  | nil =>
    refine @HeadersRead.stop p _ [] ?_
    rw [crlf]
    exact ⟨by decide, fun _ _ _ => Nat.zero_le _⟩
  | cons header headers ih =>
    have parts : headersText (header :: headers) =
        header.line ++ [13, 10] ++ headersText headers := by
      simp [headersText]
    have whole : cStr (headersText (header :: headers)) = headersText (header :: headers) :=
      Separator.takeWhile_fresh (noNul_headersText _)
    have first : First p.crlf (cStr (headersText (header :: headers))) header.line
        (headersText headers) := by
      rw [whole, parts, crlf]
      exact first_of_notMem fun member => (header.plain_line 13 member).2.2 rfl
    have keyed : First [58, 32] header.line header.key header.value :=
      first_pair (by decide) header.noColon
    have behind : (headersText (header :: headers)).drop (header.line.length + 2) =
        headersText headers := by
      rw [parts]
      simp
    refine .next first keyed ?_ (behind ▸ ih)
    rw [parts]
    simp [headersText]

/-- What the line end leaves at the end of the first line. -/
def rest (p : Platform) : Bytes := if p.win32 then [] else [13]

/-- The first line, as the parser sees it. -/
theorem first_text (p : Platform) :
    First p.crlf r.text (r.line ++ rest p) (headersText r.headers) := by
  cases win : p.win32 with
  | true =>
    have crlf : p.crlf = [13, 10] := by simp [Platform.crlf, win]
    rw [crlf, rest, if_pos win, List.append_nil]
    exact first_of_notMem fun member => (r.plain_line 13 member).2.2 rfl
  | false =>
    have crlf : p.crlf = [10] := by simp [Platform.crlf, win]
    have parts : r.text = (r.line ++ [13]) ++ 10 :: headersText r.headers := by simp [text]
    rw [crlf, parts, rest, if_neg (by simp [win])]
    refine first_char ?_
    rw [List.mem_append, not_or]
    exact ⟨fun member => (r.plain_line 10 member).2.1 rfl, by decide⟩

end RequestText

end OneProxy.HttpParse
