import OneProxy.Httpserver.FirstLine

/-! What becomes of the parameters of a URI. -/

namespace OneProxy.HttpParse

open Tool Search

/-- Every parameter has an equals sign; the last one may be empty if it is not the only one. -/
def ParamsRead : List Bytes → Prop
  | [] => False
  | param :: rest => 61 ∈ param ∧ (rest = [] ∨ rest = [[]] ∨ ParamsRead rest)

/-- Behind parameters with an equals sign there is none any more. -/
def ParamFault : List Bytes → Prop
  | [] => False
  | param :: rest => (61 ∉ param ∧ ∀ later ∈ rest, 61 ∉ later) ∨
      61 ∈ param ∧ rest ≠ [] ∧ rest ≠ [[]] ∧ ParamFault rest

/-- What parsing the parameters leaves as it is. -/
structure Keeps (http http' : Http) : Prop where
  httpMethod : http'.httpMethod = http.httpMethod
  uri : http'.uri = http.uri
  httpversion : http'.httpversion = http.httpversion
  headerOptionMap : http'.headerOptionMap = http.headerOptionMap

/-- How the parameters are parsed. -/
structure ParamOutcome (params : List Bytes) (http : Http) (result : Except Failure Http) :
    Prop where
  read : ParamsRead params → ∃ http', result = .ok http' ∧ Keeps http http'
  fault : ParamFault params → result = .error .fault
  refused : ¬ ParamsRead params → ¬ ParamFault params → result = .error .returned

variable {uri q : Bytes} {pos fuel : Nat} {http : Http}

/-- Where a parameter ends. -/
theorem paramEnd (here : At uri pos q) (whole : uri.length = pos + q.length) :
    38 ∉ q ∧ (strstr uri pos [38]).getD uri.length = pos + q.length ∨
      ∃ param rest, q = param ++ 38 :: rest ∧ 38 ∉ param ∧
        (strstr uri pos [38]).getD uri.length = pos + param.length := by
  by_cases amp : 38 ∈ q
  · obtain ⟨param, rest, rfl, fresh⟩ := List.eq_append_cons_of_mem amp
    exact Or.inr ⟨param, rest, rfl, fresh, by rw [strstr_first here (first_char fresh)]; rfl⟩
  · refine Or.inl ⟨amp, ?_⟩
    rw [strstr_absent here (mt infix_char.mp amp), Option.getD_none, whole]

/-- One parameter with an equals sign, up to a separator or the end of the URI. -/
theorem uriParamLoop_param {key value tail : Bytes}
    (here : At uri pos (key ++ 61 :: value ++ tail))
    (whole : uri.length = pos + (key ++ 61 :: value ++ tail).length)
    (single : 38 ∉ key ++ 61 :: value) (before : 61 ∉ key)
    (stops : tail = [] ∨ ∃ rest, tail = 38 :: rest) :
    uriParamLoop uri (fuel + 1) pos ((strstr uri pos [38]).getD uri.length) http =
      if tail.length ≤ 1 then
        .ok { http with uriParamMap := Function.update http.uriParamMap key (some value) }
      else uriParamLoop uri fuel (pos + (key ++ 61 :: value).length + 1)
        ((strstr uri (pos + (key ++ 61 :: value).length + 1) [38]).getD uri.length)
        { http with uriParamMap := Function.update http.uriParamMap key (some value) } := by
  -- The parameter ends at the separator, or with the URI.
  have paramEnd : (strstr uri pos [38]).getD uri.length = pos + (key ++ 61 :: value).length := by
    rcases stops with rfl | ⟨rest, rfl⟩
    · rw [List.append_nil] at here whole
      rw [strstr_absent here (mt infix_char.mp single), Option.getD_none, whole]
    · rw [strstr_first here (first_char single), Option.getD_some]
  have parts : key ++ 61 :: value ++ tail = key ++ 61 :: (value ++ tail) := by simp
  have keyEnd : strstr uri pos [61] = some (pos + key.length) :=
    strstr_first (parts ▸ here) (first_char before)
  have keyText : text uri pos (pos + key.length) = key := At.text (parts ▸ here)
  have valueText : text uri (pos + key.length + 1) (pos + (key ++ 61 :: value).length) = value := by
    have parts : key ++ 61 :: value ++ tail = (key ++ [61]) ++ (value ++ tail) := by simp
    have behind := (parts ▸ here : At uri pos ((key ++ [61]) ++ (value ++ tail))).drop
    have length :
        pos + (key ++ 61 :: value).length = pos + (key ++ [61]).length + value.length := by
      simp only [List.length_append, List.length_cons, List.length_nil]
      omega
    have start : pos + key.length + 1 = pos + (key ++ [61]).length := by
      simp only [List.length_append, List.length_cons, List.length_nil]
      omega
    rw [length, start]
    exact behind.text
  have within : pos + (key ++ 61 :: value).length ≤ uri.length := by
    rw [whole, @List.length_append _ (key ++ 61 :: value)]
    omega
  have inside : ¬ pos + key.length ≥ pos + (key ++ 61 :: value).length := by simp
  have ends : pos + (key ++ 61 :: value).length + 1 ≥ uri.length ↔ tail.length ≤ 1 := by
    rw [whole, @List.length_append _ (key ++ 61 :: value)]
    omega
  rw [paramEnd, uriParamLoop, if_pos within, keyEnd]
  simp only [used, Bind.bind, Except.bind, if_neg inside, keyText, valueText, ends]

/-- Behind a parameter and its separator the next one begins. -/
theorem At.next {param rest : Bytes} (here : At uri pos (param ++ 38 :: rest))
    (whole : uri.length = pos + (param ++ 38 :: rest).length) :
    At uri (pos + param.length + 1) rest ∧ uri.length = pos + param.length + 1 + rest.length := by
  constructor
  · have parts : param ++ 38 :: rest = (param ++ [38]) ++ rest := by simp
    have behind := (parts ▸ here : At uri pos ((param ++ [38]) ++ rest)).drop
    rwa [List.length_append, ← Nat.add_assoc] at behind
  · rw [whole, List.length_append, List.length_cons]
    omega

/-- The loop over the parameters, from one of them on. -/
theorem uriParamLoop_outcome (here : At uri pos q) (whole : uri.length = pos + q.length)
    (rounds : q.length < fuel) :
    ParamOutcome (q.splitOn 38) http
      (uriParamLoop uri fuel pos ((strstr uri pos [38]).getD uri.length) http) := by
  induction fuel generalizing q pos http with
  | zero => omega
  | succ fuel ih =>
    by_cases equals : 61 ∈ q
    · rcases paramEnd here whole with ⟨single, stop⟩ | ⟨param, rest, rfl, fresh, stop⟩
      · -- The last parameter.
        obtain ⟨key, value, rfl, before⟩ := List.eq_append_cons_of_mem equals
        rw [← List.append_nil (key ++ 61 :: value)] at here whole
        rw [uriParamLoop_param here whole single before (Or.inl rfl), if_pos (by simp),
          List.splitOn_eq_singleton single]
        refine ⟨fun _ => ⟨_, rfl, ⟨rfl, rfl, rfl, rfl⟩⟩, ?_, fun no => ?_⟩
        · rintro (⟨none_, _⟩ | ⟨_, some_, _⟩)
          · exact absurd equals none_
          · exact absurd rfl some_
        · exact absurd ⟨equals, Or.inl rfl⟩ no
      · rw [List.splitOn_append_cons_self_of_not_mem fresh]
        by_cases named : 61 ∈ param
        · obtain ⟨next, length⟩ := At.next here whole
          obtain ⟨key, value, rfl, before⟩ := List.eq_append_cons_of_mem named
          rw [uriParamLoop_param here whole fresh before (Or.inr ⟨rest, rfl⟩)]
          by_cases last : rest = []
          · subst last
            rw [if_pos (by simp)]
            refine ⟨fun _ => ⟨_, rfl, ⟨rfl, rfl, rfl, rfl⟩⟩, ?_, fun no => ?_⟩
            · rintro (⟨none_, _⟩ | ⟨_, _, some_, _⟩)
              · exact absurd named none_
              · exact absurd rfl some_
            · exact absurd ⟨named, Or.inr (Or.inl rfl)⟩ no
          · have further : ¬ (38 :: rest).length ≤ 1 := by simpa using last
            have shorter : rest.length < fuel := by
              rw [List.length_append, List.length_cons] at rounds
              omega
            rw [if_neg further]
            generalize added : Function.update http.uriParamMap _ _ = map
            have later := @ih _ _ { http with uriParamMap := map } next length shorter
            have differ : rest.splitOn 38 ≠ [[]] := by
              intro same
              have joined := @List.intercalate_splitOn _ rest _ _ 38
              rw [same] at joined
              exact last joined.symm
            refine ⟨fun reads => ?_, fun fault => ?_, fun noRead noFault => ?_⟩
            · obtain ⟨http', done, keeps⟩ := later.read
                ((reads.2.resolve_left (List.splitOn_ne_nil 38 rest)).resolve_left differ)
              exact ⟨http', done, keeps.httpMethod, keeps.uri, keeps.httpversion,
                keeps.headerOptionMap⟩
            · rcases fault with ⟨none_, _⟩ | ⟨_, _, _, fault⟩
              · exact absurd named none_
              · exact later.fault fault
            · exact later.refused (fun reads => noRead ⟨named, Or.inr (Or.inr reads)⟩)
                fun fault => noFault (Or.inr ⟨named, List.splitOn_ne_nil 38 rest, differ, fault⟩)
        · -- The equals sign is behind the parameter.
          obtain ⟨before, after, one⟩ := exists_first (infix_char.mpr equals)
          have beyond : pos + before.length ≥ pos + param.length := by
            have differ := mt (one.le_iff (by decide : (38 : UInt8) ∉ ([61] : Bytes)) (by simp)).mp
              (mt infix_char.mp named)
            omega
          have within : pos + param.length ≤ uri.length := by
            rw [whole, List.length_append]
            omega
          have done : uriParamLoop uri (fuel + 1) pos ((strstr uri pos [38]).getD uri.length) http =
              .error .returned := by
            rw [stop, uriParamLoop, if_pos within, strstr_first here one]
            simp only [used, Bind.bind, Except.bind, if_pos beyond]
          rw [done]
          refine ⟨fun reads => absurd reads.1 named, ?_, fun _ _ => rfl⟩
          rintro (⟨_, none_⟩ | ⟨some_, _⟩)
          · have later : 61 ∈ rest := by simpa [named] using equals
            obtain ⟨piece, member, inside⟩ :=
              (Separator.mem_split_iff (by decide : (61 : UInt8) ≠ 38) rest).mpr later
            exact absurd inside (none_ piece member)
          · exact absurd some_ named
    · -- No equals sign from here on.
      have pieces : ∀ param ∈ q.splitOn 38, 61 ∉ param := fun param member inside =>
        equals ((Separator.mem_split_iff (by decide : (61 : UInt8) ≠ 38) q).mp
          ⟨param, member, inside⟩)
      have within : (strstr uri pos [38]).getD uri.length ≤ uri.length := by
        rcases paramEnd here whole with ⟨_, stop⟩ | ⟨param, rest, rfl, _, stop⟩
        · omega
        · rw [stop, whole, List.length_append]
          omega
      have done : uriParamLoop uri (fuel + 1) pos ((strstr uri pos [38]).getD uri.length) http =
          .error .fault := by
        rw [uriParamLoop, if_pos within, strstr_absent here (mt infix_char.mp equals)]
        rfl
      obtain ⟨param, rest, split⟩ := List.exists_cons_of_ne_nil (List.splitOn_ne_nil 38 q)
      rw [split] at pieces ⊢
      rw [done]
      have first := pieces param List.mem_cons_self
      refine ⟨fun reads => absurd reads.1 first, fun _ => rfl, fun _ noFault => ?_⟩
      exact absurd (Or.inl ⟨first, fun later member => pieces later
        (List.mem_cons_of_mem _ member)⟩) noFault

/-- Every parameter of a URI is read. -/
def UriRead (uri : Bytes) : Prop :=
  ∀ base q, uri = base ++ 63 :: q → 63 ∉ base → ParamsRead (q.splitOn 38)

/-- A URI has parameters that come to a fault. -/
def UriFault (uri : Bytes) : Prop :=
  ∃ base q, uri = base ++ 63 :: q ∧ 63 ∉ base ∧ ParamFault (q.splitOn 38)

/-- How the parameters of a URI are parsed. -/
theorem parseHttpUriParam_outcome {http : Http} (noNul : 0 ∉ http.uri) :
    (UriRead http.uri → ∃ http', parseHttpUriParam http = .ok http' ∧ Keeps http http') ∧
      (parseHttpUriParam http = .error .fault ↔ UriFault http.uri) ∧
        ((∃ http', parseHttpUriParam http = .ok http') → UriRead http.uri) := by
  have whole : At http.uri 0 http.uri := by
    rw [At, List.drop_zero]
    exact Separator.takeWhile_fresh noNul
  -- Without a question mark there are no parameters, and the URI is read as it is.
  by_cases question : 63 ∈ http.uri
  · obtain ⟨base, q, same, fresh⟩ := List.eq_append_cons_of_mem question
    have split : ∀ base' q', http.uri = base' ++ 63 :: q' → 63 ∉ base' → base' = base ∧ q' = q :=
      fun base' q' same' fresh' =>
        (Separator.append_cons_inj fresh' fresh).mp (same'.symm.trans same)
    have read : UriRead http.uri ↔ ParamsRead (q.splitOn 38) :=
      ⟨fun reads => reads base q same fresh, fun reads base' q' same' fresh' =>
        (split base' q' same' fresh').2 ▸ reads⟩
    have fault : UriFault http.uri ↔ ParamFault (q.splitOn 38) := by
      refine ⟨?_, fun fault => ⟨base, q, same, fresh, fault⟩⟩
      rintro ⟨base', q', same', fresh', fault⟩
      exact (split base' q' same' fresh').2 ▸ fault
    have found := strstr_first (same ▸ whole : At http.uri 0 (base ++ 63 :: q)) (first_char fresh)
    have next : At http.uri (base.length + 1) q := by
      have parts : http.uri = (base ++ [63]) ++ q := by simp [same]
      have behind := (parts ▸ whole : At http.uri 0 ((base ++ [63]) ++ q)).drop
      rwa [Nat.zero_add, List.length_append] at behind
    have length : http.uri.length = base.length + 1 + q.length := by
      rw [same, List.length_append, List.length_cons]
      omega
    have rounds : q.length < http.uri.length + 1 := by omega
    have outcome := @uriParamLoop_outcome http.uri q (base.length + 1) (http.uri.length + 1)
      { http with baseUri := text http.uri 0 base.length } next length rounds
    have same_ : parseHttpUriParam http = uriParamLoop http.uri (http.uri.length + 1)
        (base.length + 1) ((strstr http.uri (base.length + 1) [38]).getD http.uri.length)
          { http with baseUri := text http.uri 0 base.length } := by
      rw [parseHttpUriParam, found]
      simp only [Nat.zero_add]
    rw [same_, read, fault]
    refine ⟨fun reads => ?_, ⟨fun faults => ?_, outcome.fault⟩, ?_⟩
    · obtain ⟨http', done, keeps⟩ := outcome.read reads
      exact ⟨http', done, keeps.httpMethod, keeps.uri, keeps.httpversion, keeps.headerOptionMap⟩
    · by_contra noFault
      by_cases reads : ParamsRead (q.splitOn 38)
      · obtain ⟨http', done, _⟩ := outcome.read reads
        exact absurd (done.symm.trans faults) (by simp)
      · exact absurd ((outcome.refused reads noFault).symm.trans faults) (by simp)
    · rintro ⟨http', done⟩
      by_contra noRead
      by_cases faults : ParamFault (q.splitOn 38)
      · exact absurd (done.symm.trans (outcome.fault faults)) (by simp)
      · exact absurd (done.symm.trans (outcome.refused noRead faults)) (by simp)
  · have none_ : ∀ base q, http.uri ≠ base ++ 63 :: q := fun base q same =>
      question (same ▸ by simp)
    have found := strstr_absent whole (mt infix_char.mp question)
    have done : parseHttpUriParam http = .ok { http with baseUri := http.uri } := by
      rw [parseHttpUriParam, found]
    refine ⟨fun _ => ⟨_, done, rfl, rfl, rfl, rfl⟩, ?_, fun _ base q same => ?_⟩
    · rw [done]
      refine iff_of_false (by simp) ?_
      rintro ⟨base, q, same, _⟩
      exact none_ base q same
    · exact absurd same (none_ base q)

end OneProxy.HttpParse
