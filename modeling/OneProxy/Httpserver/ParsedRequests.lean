import OneProxy.Httpserver.RequestText

/-! When the parser gives what a request says. -/

namespace OneProxy.HttpParse

open Tool Search

variable {p : Platform} {req : Req} {http : Http} {r : RequestText}

namespace RequestText

/-- The items of a first line are the ones that the request says, and the last one ends it. -/
theorem items_eq {more method uri version : Bytes} {ended : Bool}
    (items : ThreeItems (r.line ++ rest p) more method uri version ended) :
    method = r.name ∧ uri = r.uri ∧ version = r.version ++ rest p ∧ ended = true := by
  have shape : r.line ++ rest p = r.name ++ 32 :: (r.uri ++ 32 :: (r.version ++ rest p)) := by
    simp [line]
  have same := shape.symm.trans items.line_eq
  obtain ⟨first, behind⟩ := (Separator.append_cons_inj r.plain_name.2 items.method.1).mp same
  obtain ⟨second, last⟩ := (Separator.append_cons_inj r.noSpace items.uri.1).mp behind
  cases ended with
  | true => exact ⟨first.symm, second.symm, by simpa using last.symm, rfl⟩
  | false =>
    -- Neither the version nor what the line end leaves has a space.
    have inside : 32 ∈ r.version ++ rest p := last ▸ by simp
    rcases List.mem_append.mp inside with inside | inside
    · exact absurd inside r.plain_version.2
    · rw [rest] at inside
      split at inside
      · exact absurd inside List.not_mem_nil
      · exact absurd inside (by decide)

/-- A version reads as one, if it is no longer than an `int` says. -/
theorem reads_version (short : r.version.length < intLimit) : Reads r.version .version :=
  ⟨⟨[], r.major ++ 46 :: r.minor, by simp [version]⟩, short, by simp [version]⟩

/-- The items of a first line on Windows. -/
theorem threeItems (win : p.win32 = true) (headers : r.headers ≠ [])
    (uriShort : r.uri.length < intLimit) (versionShort : r.version.length < intLimit) :
    ThreeItems (r.line ++ rest p) (headersText r.headers) r.name r.uri r.version true where
  line_eq := by simp [line, rest, win]
  method := ⟨r.plain_name.2, by rw [Reads, r.lookup_name]; rfl⟩
  uri := ⟨r.noSpace, r.slash, uriShort⟩
  version := ⟨r.plain_version.2, r.reads_version versionShort⟩
  spaced := fun _ => r.space_headersText.mpr headers

/-- The first line of a request begins at the offset. -/
theorem first_string (here : req.data.drop req.offset = r.text) :
    First p.crlf req.string (r.line ++ rest p) (headersText r.headers) := by
  have string : req.string = r.text := by
    rw [Req.string, here]
    exact Separator.takeWhile_fresh r.noNul_text
  rw [string]
  exact r.first_text p

/-- On Windows, the header lines begin where the parser takes them from. -/
theorem headers_eq (here : req.data.drop req.offset = r.text) (win : p.win32 = true) :
    req.headers (r.line ++ rest p) true = headersText r.headers := by
  rw [Req.headers, Nat.add_assoc, ← List.drop_drop, here, rest, if_pos win, text]
  simp

end RequestText

/-- The parser gives what a request says exactly under these conditions. -/
theorem parses_iff {a b : Int32} {m : HttpMethod} (here : req.data.drop req.offset = r.text) :
    Parses p req (Http.fresh m a b) r ↔ p.win32 = true ∧ r.headers ≠ [] ∧ UriRead r.uri ∧
      r.uri.length < intLimit ∧ r.version.length < intLimit := by
  have one : First p.crlf req.string _ _ := RequestText.first_string here
  constructor
  · rintro ⟨http', done, _, _, version, _⟩
    cases taken : parseHttpFirstLine p req (Http.fresh m a b) with
    | error failure =>
      rw [parseHttpRequest, taken] at done
      exact absurd done (by simp [Bind.bind, Except.bind])
    | ok result =>
      obtain ⟨offset, mid⟩ := result
      obtain ⟨method', uri', version', ended, items, rfl, rfl⟩ :=
        (parseHttpFirstLine_ok one).mp taken
      obtain ⟨rfl, rfl, rfl, rfl⟩ := RequestText.items_eq items
      obtain ⟨read, _, readOf⟩ := @parseHttpUriParam_outcome
        (writeItems r.name r.uri (r.version ++ RequestText.rest p) (Http.fresh m a b))
        (noNul_uri one items)
      rw [parseHttpRequest, taken] at done
      simp only [Bind.bind, Except.bind] at done
      cases params : parseHttpUriParam
          (writeItems r.name r.uri (r.version ++ RequestText.rest p) (Http.fresh m a b)) with
      | error failure =>
        rw [params] at done
        exact absurd done (by simp)
      | ok afterUri =>
        rw [params] at done
        have uriRead := readOf ⟨afterUri, params⟩
        obtain ⟨afterUri', same, keeps⟩ := read uriRead
        obtain rfl := Except.ok.inj (params.symm.trans same)
        -- What the line end leaves stays in the version.
        have kept : r.version = r.version ++ RequestText.rest p :=
          version.symm.trans ((httpversion_parseHttpHeaderOption done).trans keeps.httpversion)
        have nothing : RequestText.rest p = [] := List.self_eq_append_right.mp kept
        have win : p.win32 = true := by
          cases win : p.win32 with
          | true => rfl
          | false =>
            rw [RequestText.rest, if_neg (by simp [win])] at nothing
            exact absurd nothing (by simp)
        refine ⟨win, r.space_headersText.mp (items.spaced rfl), uriRead, items.uri.2.2, ?_⟩
        have short := items.version.2.2.1
        rwa [nothing, List.append_nil] at short
  · rintro ⟨win, headers, uriRead, uriShort, versionShort⟩
    have items := r.threeItems win headers uriShort versionShort
    have taken := (@parseHttpFirstLine_ok p req (Http.fresh m a b) _ _ _ one _).mpr
      ⟨_, _, _, _, items, rfl, rfl⟩
    obtain ⟨read, _, _⟩ := @parseHttpUriParam_outcome
      (writeItems r.name r.uri r.version (Http.fresh m a b)) (noNul_uri one items)
    obtain ⟨http', params, keeps⟩ := read uriRead
    have lines := RequestText.headersRead win r.headers
    rw [← RequestText.headers_eq here win] at lines
    refine ⟨{ http' with
      headerOptionMap := addLines http'.headerOptionMap
        (r.headers.map fun header => (header.key, header.value)) }, ?_, ?_, ?_, ?_, ?_⟩
    · rw [parseHttpRequest, taken]
      simp only [Bind.bind, Except.bind, params]
      exact parseHttpHeaderOption_read lines
    · rw [keeps.httpMethod]
      simp [writeItems, writeItem, r.lookup_name]
    · exact keeps.uri
    · exact keeps.httpversion
    · simp only [keeps.headerOptionMap]
      rfl

/-! ## Every buffer -/

/--
A request is parsed as it is written.

On a buffer that is none, the parser returns without the result of a search that finds nothing.
-/
def ParsedAsWritten (p : Platform) (req : Req) (http : Http) : Prop :=
  (∀ r : RequestText, req.data.drop req.offset = r.text → Parses p req http r) ∧
    ((∀ r : RequestText, req.data.drop req.offset ≠ r.text) →
      parseHttpRequest p req http ≠ .error .fault)

/--
A request that the parser of this platform can take, or a buffer on which no search is misused.

A line ends in two characters, so that the version has no carriage return and the first header
line begins where it is taken from. The last item of the first line needs a space behind it.
-/
def Regular (p : Platform) (req : Req) : Prop :=
  (∀ r : RequestText, req.data.drop req.offset = r.text → p.win32 = true ∧ r.headers ≠ [] ∧
    UriRead r.uri ∧ r.uri.length < intLimit ∧ r.version.length < intLimit) ∧
      ((∀ r : RequestText, req.data.drop req.offset ≠ r.text) → ¬ Misuse p req)

/-- A buffer is handled as it should be exactly if it is regular for the platform. -/
theorem parseHttpRequest_asWritten_iff (p : Platform) (req : Req) (m : HttpMethod) (a b : Int32) :
    ParsedAsWritten p req (Http.fresh m a b) ↔ Regular p req := by
  refine and_congr ?_ (imp_congr_right fun _ => not_congr parseHttpRequest_fault)
  exact forall_congr' fun r => ⟨fun parses here => (parses_iff here).mp (parses here),
    fun regular here => (parses_iff here).mpr (regular here)⟩

theorem get_known : ([71, 69, 84], HttpMethod.get) ∈ tmpHttpMethod := by
  simp [tmpHttpMethod]

theorem plain_slash : Plain [47, 97] := by
  simp [Plain]

theorem plain_host : Plain [72, 111, 115, 116] := by
  simp [Plain]

theorem plain_x : Plain [120] := by
  simp [Plain]

/-- `GET /a HTTP/1.1`, with the header line `Host: x`. -/
def oneHeader : RequestText where
  name := [71, 69, 84]
  httpMethod := .get
  known := get_known
  uri := [47, 97]
  slash := by decide
  plain := plain_slash
  noSpace := by decide
  major := [49]
  minor := [49]
  majorDigits := by decide +kernel
  minorDigits := by decide +kernel
  headers := [{
    key := [72, 111, 115, 116]
    value := [120]
    noColon := by decide
    plainKey := plain_host
    plainValue := plain_x }]

/-- Outside Windows, its version keeps the carriage return, and its key is cut. -/
theorem oneHeader_notWritten :
    ¬ ParsedAsWritten ⟨false, true⟩ ⟨oneHeader.text, 0, by decide⟩ (Http.fresh .unkown 0 0) ∧
      ∃ http, parseHttpRequest ⟨false, true⟩ ⟨oneHeader.text, 0, by decide⟩
        (Http.fresh .unkown 0 0) = .ok http ∧
          http.httpversion = oneHeader.version ++ [13] ∧
            http.headerOptionMap [72, 111, 115, 116] = none ∧
              http.headerOptionMap [111, 115, 116] = some [120, 13] := by
  refine ⟨fun written => ?_, _, rfl, by decide +kernel, by decide +kernel, by decide +kernel⟩
  have parses := written.1 oneHeader rfl
  exact absurd ((parses_iff rfl).mp parses).1 (by decide)

end OneProxy.HttpParse
