import OneProxy.Httpserver.HeaderOption
import OneProxy.Httpserver.UriParam

/-! Which requests are parsed as they are written, and which searches go wrong. -/

namespace OneProxy.HttpParse

open Tool Search

/-! ## Searches that find nothing -/

/--
A first line of three items that read as a method, a URI and a version.

The last one ends with the line, where there is a space behind it, or with a space of its own.
-/
structure ThreeItems (line rest method uri version : Bytes) (ended : Bool) : Prop where
  line_eq : line = method ++ 32 :: (uri ++ 32 :: (version ++ if ended then [] else [32]))
  method : 32 ∉ method ∧ Reads method .method
  uri : 32 ∉ uri ∧ Reads uri .uri
  version : 32 ∉ version ∧ Reads version .version
  spaced : ended = true → 32 ∈ rest

/-- What a first line leaves. -/
def writeItems (method uri version : Bytes) (http : Http) : Http :=
  writeItem version (writeItem uri (writeItem method http .method) .uri) .version

theorem lineReads_iff {line rest : Bytes} {http http' : Http} {ended : Bool} :
    LineReads (32 ∈ rest) [.method, .uri, .version] line http ended http' ↔
      ∃ method uri version, ThreeItems line rest method uri version ended ∧
        http' = writeItems method uri version http := by
  -- Three steps need three items; the last one may end with the line.
  constructor
  · intro reads
    cases reads with
    | @next _ _ method _ _ _ _ fresh first reads =>
      cases reads with
      | @next _ _ uri last _ _ _ fresh' second reads =>
        cases reads with
        | last some_ fresh'' spaced third =>
          exact ⟨method, uri, last, ⟨by simp, ⟨fresh, first⟩, ⟨fresh', second⟩, ⟨fresh'', third⟩,
            fun _ => spaced⟩, rfl⟩
        | @next _ _ version _ _ _ _ fresh'' third reads =>
          cases reads
          exact ⟨method, uri, version, ⟨by simp, ⟨fresh, first⟩, ⟨fresh', second⟩, ⟨fresh'', third⟩,
            by simp⟩, rfl⟩
  · rintro ⟨method, uri, version, items, rfl⟩
    rw [items.line_eq]
    refine .next items.method.1 items.method.2 (.next items.uri.1 items.uri.2 ?_)
    cases ended with
    | true =>
      have some_ : version ≠ [] := by
        rintro rfl
        exact absurd items.version.2.2.2 List.not_mem_nil
      rw [if_pos rfl, List.append_nil]
      exact .last some_ items.version.1 (items.spaced rfl) items.version.2
    | false => exact .next items.version.1 items.version.2 .done

/-- The string that a request begins with. -/
def Req.string (req : Req) : Bytes := cStr (req.data.drop req.offset)

/-- The bytes behind the first line, as the parser takes them. -/
def Req.headers (req : Req) (line : Bytes) (ended : Bool) : Bytes :=
  req.data.drop (req.offset + line.length + if ended then 2 else 1)

/-- A request on which the result of a search that finds nothing is used. -/
inductive Misuse (p : Platform) (req : Req) : Prop
  | line {line rest : Bytes} : First p.crlf req.string line rest →
      LineFault p rest [.method, .uri, .version] line → Misuse p req
  | uri {line rest method uri version : Bytes} {ended : Bool} : First p.crlf req.string line rest →
      ThreeItems line rest method uri version ended → UriFault uri → Misuse p req
  | headers {line rest method uri version : Bytes} {ended : Bool} :
      First p.crlf req.string line rest → ThreeItems line rest method uri version ended →
      UriRead uri → ¬ p.crlf <:+: cStr (req.headers line ended) ∨
        HeadersFault p (req.headers line ended) → Misuse p req

variable {p : Platform} {req : Req} {http http' : Http} {line rest : Bytes}

/-- The first line is scanned from the offset to its end. -/
theorem firstLine_at (one : First p.crlf req.string line rest) :
    At req.data req.offset (line ++ (p.crlf ++ rest)) := by
  rw [← List.append_assoc, ← one.text_eq]
  rfl

/-- The first line is the loop over its items, and the offset. -/
theorem parseHttpFirstLine_eq (one : First p.crlf req.string line rest) :
    parseHttpFirstLine p req http =
      (firstLineLoop p req.data (req.offset + line.length) [.method, .uri, .version] req.offset
        http).bind fun result => .ok (result.1 + 1, result.2) := by
  have found := strstr_first (rfl : At req.data req.offset req.string) one
  rw [parseHttpFirstLine, found]
  rfl

/-- When the first line is taken, and what it leaves. -/
theorem parseHttpFirstLine_ok (one : First p.crlf req.string line rest) {offset : Nat} :
    parseHttpFirstLine p req http = .ok (offset, http') ↔
      ∃ method uri version ended, ThreeItems line rest method uri version ended ∧
        http' = writeItems method uri version http ∧
          offset = req.offset + line.length + if ended then 2 else 1 := by
  have here := firstLine_at one
  have loop := fun stop => @firstLineLoop_ok _ p http http' rest line
    [.method, .uri, .version] req.offset (req.offset + line.length) stop here rfl
  rw [parseHttpFirstLine_eq one]
  -- Behind the last item its space is skipped, or the end of the line.
  constructor
  · intro done
    cases taken : firstLineLoop p req.data (req.offset + line.length) [.method, .uri, .version]
        req.offset http with
    | error failure =>
      rw [taken] at done
      exact absurd done (by simp [Except.bind])
    | ok result =>
      obtain ⟨stop, mid⟩ := result
      rw [taken] at done
      simp only [Except.bind, Except.ok.injEq, Prod.mk.injEq] at done
      obtain ⟨rfl, rfl⟩ := done
      obtain ⟨ended, reads, rfl⟩ := (loop stop).mp taken
      obtain ⟨method, uri, version, items, same⟩ := lineReads_iff.mp reads
      exact ⟨method, uri, version, ended, items, same, by cases ended <;> rfl⟩
  · rintro ⟨method, uri, version, ended, items, same, rfl⟩
    have taken := (loop (req.offset + line.length + if ended then 1 else 0)).mpr
      ⟨ended, lineReads_iff.mpr ⟨method, uri, version, items, same⟩, rfl⟩
    rw [taken]
    cases ended <;> rfl

theorem parseHttpFirstLine_fault (one : First p.crlf req.string line rest) :
    parseHttpFirstLine p req http = .error .fault ↔
      LineFault p rest [.method, .uri, .version] line := by
  rw [parseHttpFirstLine_eq one, ← @firstLineLoop_fault _ p http rest line
    [.method, .uri, .version] req.offset _ (firstLine_at one) rfl]
  cases firstLineLoop p req.data (req.offset + line.length) [.method, .uri, .version] req.offset
      http with
  | error failure => simp [Except.bind]
  | ok result => simp [Except.bind]

/-- The URI of a first line has no NUL. -/
theorem noNul_uri (one : First p.crlf req.string line rest) {method uri version : Bytes}
    {ended : Bool} (items : ThreeItems line rest method uri version ended) : 0 ∉ uri := by
  intro inside
  have member : (0 : UInt8) ∈ req.string := by
    rw [one.text_eq, items.line_eq]
    simp [inside]
  have passes := List.all_eq_true.mp List.all_takeWhile 0 member
  simp at passes

/-- A request is a fault exactly if the result of a search that finds nothing is used. -/
theorem parseHttpRequest_fault :
    parseHttpRequest p req http = .error .fault ↔ Misuse p req := by
  by_cases ends : p.crlf <:+: req.string
  · obtain ⟨line, rest, one⟩ := exists_first ends
    have split : ∀ {line' rest' : Bytes}, First p.crlf req.string line' rest' →
        line' = line ∧ rest' = rest := fun other => other.unique one
    cases taken : parseHttpFirstLine p req http with
    | error failure =>
      have same : parseHttpRequest p req http = .error failure := by
        rw [parseHttpRequest, taken]
        rfl
      have never : ∀ {method uri version : Bytes} {ended : Bool},
          ¬ ThreeItems line rest method uri version ended := by
        intro method uri version ended items
        rw [(parseHttpFirstLine_ok one).mpr ⟨method, uri, version, ended, items, rfl, rfl⟩] at taken
        exact absurd taken (by simp)
      have line := @parseHttpFirstLine_fault p req http _ _ one
      rw [taken, Except.error.injEq] at line
      rw [same, Except.error.injEq, line]
      constructor
      · exact .line one
      · rintro (⟨one', faults⟩ | ⟨one', items, _⟩ | ⟨one', items, _⟩)
        · obtain ⟨rfl, rfl⟩ := split one'
          exact faults
        · obtain ⟨rfl, rfl⟩ := split one'
          exact absurd items never
        · obtain ⟨rfl, rfl⟩ := split one'
          exact absurd items never
    | ok result =>
      obtain ⟨offset, mid⟩ := result
      obtain ⟨method, uri, version, ended, items, rfl, rfl⟩ := (parseHttpFirstLine_ok one).mp taken
      -- The items of the line are these.
      have only : ∀ {method' uri' version' : Bytes} {ended' : Bool},
          ThreeItems line rest method' uri' version' ended' → uri' = uri ∧ ended' = ended := by
        intro method' uri' version' ended' items'
        have again := (@parseHttpFirstLine_ok p req http _ line rest one _).mpr
          ⟨method', uri', version', ended', items', rfl, rfl⟩
        rw [taken, Except.ok.injEq, Prod.mk.injEq] at again
        refine ⟨(congrArg Http.uri again.2).symm, ?_⟩
        have lengths := again.1
        cases ended <;> cases ended' <;> simp at lengths ⊢
      have noFault : ¬ LineFault p rest [.method, .uri, .version] line := by
        rw [← @parseHttpFirstLine_fault p req http line rest one, taken]
        simp
      obtain ⟨read, fault, readOf⟩ :=
        @parseHttpUriParam_outcome (writeItems method uri version http)
        (noNul_uri one items)
      have same : parseHttpRequest p req http =
          (parseHttpUriParam (writeItems method uri version http)).bind fun http =>
            parseHttpHeaderOption p req.data
              (req.offset + line.length + if ended then 2 else 1) http := by
        rw [parseHttpRequest, taken]
        rfl
      rw [same]
      constructor
      · intro done
        cases params : parseHttpUriParam (writeItems method uri version http) with
        | error failure =>
          rw [params] at done
          obtain rfl := Except.error.inj done
          exact .uri one items (fault.mp params)
        | ok http' =>
          rw [params] at done
          exact .headers one items (readOf ⟨http', params⟩) (parseHttpHeaderOption_fault.mp done)
      · rintro (⟨one', faults⟩ | ⟨one', items', faults⟩ | ⟨one', items', reads, faults⟩)
        · obtain ⟨rfl, rfl⟩ := split one'
          exact absurd faults noFault
        · obtain ⟨rfl, rfl⟩ := split one'
          obtain ⟨rfl, rfl⟩ := only items'
          rw [fault.mpr faults]
          rfl
        · obtain ⟨rfl, rfl⟩ := split one'
          obtain ⟨rfl, rfl⟩ := only items'
          obtain ⟨http', params, _⟩ := read reads
          rw [params]
          exact parseHttpHeaderOption_fault.mpr faults
  · have absent : strstr req.data req.offset p.crlf = none :=
      strstr_absent (rfl : At req.data req.offset req.string) ends
    have same : parseHttpRequest p req http = .error .returned := by
      rw [parseHttpRequest, parseHttpFirstLine, absent]
      rfl
    rw [same]
    refine iff_of_false (by simp) ?_
    rintro (⟨one, _⟩ | ⟨one, _⟩ | ⟨one, _⟩) <;> exact ends ⟨_, _, one.text_eq.symm⟩

end OneProxy.HttpParse
