import OneProxy.Httpserver.UriParam

/-! The parameters that a URI is read into. -/

namespace OneProxy.HttpParse

open Tool Search

/-! ## The form of the parameters -/

/-- A parameter with a name. -/
structure KeyValue (key value : Bytes) : Prop where
  named : key ≠ []
  noEquals : 61 ∉ key
  keyWhole : 38 ∉ key
  valueWhole : 38 ∉ value

/-- The text `k=v(&k=v)*[&]`, and the pairs it gives. -/
inductive ParamForm : Bytes → List (Bytes × Bytes) → Prop
  | last {key value : Bytes} (pair : KeyValue key value) :
      ParamForm (key ++ 61 :: value) [(key, value)]
  | ended {key value : Bytes} (pair : KeyValue key value) :
      ParamForm (key ++ 61 :: value ++ [38]) [(key, value)]
  | next {key value q : Bytes} {pairs : List (Bytes × Bytes)} (pair : KeyValue key value)
      (behind : ParamForm q pairs) :
      ParamForm (key ++ 61 :: value ++ 38 :: q) ((key, value) :: pairs)

variable {key value q : Bytes} {pairs : List (Bytes × Bytes)}

/-- A parameter has no separator. -/
theorem KeyValue.whole (pair : KeyValue key value) : 38 ∉ key ++ 61 :: value := by
  simp [pair.keyWhole, pair.valueWhole]

/-- A parameter with a name does not begin with the equals sign. -/
theorem KeyValue.head (pair : KeyValue key value) : (key ++ 61 :: value).head? ≠ some 61 := by
  cases key with
  | nil => exact absurd rfl pair.named
  | cons c key =>
    have differ : c ≠ 61 := fun same => pair.noEquals (by simp [same])
    simpa using differ

/-- A parameter without separators that has an equals sign, not at its beginning. -/
theorem exists_keyValue {param : Bytes} (whole : 38 ∉ param) (equals : 61 ∈ param)
    (named : param.head? ≠ some 61) :
    ∃ key value, param = key ++ 61 :: value ∧ KeyValue key value := by
  obtain ⟨key, value, rfl, before⟩ := List.eq_append_cons_of_mem equals
  have some_ : key ≠ [] := by
    rintro rfl
    exact named rfl
  simp only [List.mem_append, List.mem_cons, not_or] at whole
  exact ⟨key, value, rfl, some_, before, whole.1, whole.2.2⟩

/-- The form in terms of the parts between the separators. -/
theorem ParamForm.read (form : ParamForm q pairs) :
    ParamsRead (q.splitOn 38) ∧ ∀ param ∈ q.splitOn 38, param.head? ≠ some 61 := by
  -- A part stands for each pair, and an empty one for a separator at the end.
  induction form with
  | last pair =>
    rw [List.splitOn_eq_singleton pair.whole]
    exact ⟨⟨by simp, Or.inl rfl⟩, by simpa using pair.head⟩
  | ended pair =>
    rw [List.splitOn_append_cons_self_of_not_mem pair.whole]
    refine ⟨⟨by simp, Or.inr (Or.inl rfl)⟩, ?_⟩
    intro param member
    rcases List.mem_cons.mp member with rfl | member
    · exact pair.head
    · rw [List.mem_singleton.mp member]
      simp
  | next pair _ ih =>
    rw [List.splitOn_append_cons_self_of_not_mem pair.whole]
    refine ⟨⟨by simp, Or.inr (Or.inr ih.1)⟩, ?_⟩
    intro param member
    rcases List.mem_cons.mp member with rfl | member
    · exact pair.head
    · exact ih.2 param member

/-- Parts that are all read, none of them without a name, are of the form. -/
theorem exists_form (reads : ParamsRead (q.splitOn 38))
    (named : ∀ param ∈ q.splitOn 38, param.head? ≠ some 61) : ∃ pairs, ParamForm q pairs := by
  -- The induction is on the parts.
  generalize split : q.splitOn 38 = params at reads named
  induction params generalizing q with
  | nil => exact absurd reads id
  | cons param rest ih =>
    by_cases single : 38 ∈ q
    · obtain ⟨front, back, rfl, fresh⟩ := List.eq_append_cons_of_mem single
      rw [List.splitOn_append_cons_self_of_not_mem fresh] at split
      obtain ⟨rfl, behind⟩ := List.cons.inj split
      obtain ⟨key, value, rfl, pair⟩ := exists_keyValue fresh reads.1 (named _ List.mem_cons_self)
      rcases reads.2 with none_ | empty | more
      · exact absurd (behind.trans none_) (List.splitOn_ne_nil 38 back)
      · have joined := @List.intercalate_splitOn _ back _ _ 38
        rw [behind, empty] at joined
        rw [← joined]
        exact ⟨_, ParamForm.ended pair⟩
      · obtain ⟨pairs, form⟩ := ih behind more fun param member =>
          named param (List.mem_cons_of_mem _ member)
        exact ⟨_, ParamForm.next pair form⟩
    · rw [List.splitOn_eq_singleton single] at split
      obtain ⟨rfl, _⟩ := List.cons.inj split
      obtain ⟨key, value, rfl, pair⟩ := exists_keyValue single reads.1 (named _ List.mem_cons_self)
      exact ⟨_, ParamForm.last pair⟩

/-! ## The map of the parameters -/

/-- The map after the pairs have been put into it one after the other. -/
def insertPairs (map : StdMap Bytes Bytes) (pairs : List (Bytes × Bytes)) : StdMap Bytes Bytes :=
  pairs.foldl (fun map pair => Function.update map pair.1 (some pair.2)) map

/-- The pairs, of which the last one of a key counts. -/
def lastWins (pairs : List (Bytes × Bytes)) : StdMap Bytes Bytes := fun key =>
  pairs.reverse.lookup key

/-- What the map has of a key afterwards. -/
theorem insertPairs_apply (map : StdMap Bytes Bytes) (pairs : List (Bytes × Bytes)) (key : Bytes) :
    insertPairs map pairs key = (pairs.reverse.lookup key).or (map key) := by
  induction pairs generalizing map with
  | nil => rfl
  | cons pair pairs ih =>
    have later : insertPairs map (pair :: pairs) =
        insertPairs (Function.update map pair.1 (some pair.2)) pairs := rfl
    rw [later, ih, List.reverse_cons, List.lookup_append, Option.or_assoc]
    obtain ⟨name, value⟩ := pair
    congr 1
    by_cases same : key = name
    · subst same
      simp
    · have differ : (key == name) = false := beq_false_of_ne same
      simp [List.lookup_cons, differ, same]

/-- An empty map gets exactly the pairs. -/
theorem insertPairs_empty (pairs : List (Bytes × Bytes)) :
    insertPairs (fun _ => none) pairs = lastWins pairs := by
  funext key
  rw [insertPairs_apply, Option.or_none, lastWins]

/-! ## The loop -/

variable {uri : Bytes} {pos fuel : Nat} {http : Http}

/-- The loop reads every text of the form. -/
theorem uriParamLoop_form (form : ParamForm q pairs) (here : At uri pos q)
    (whole : uri.length = pos + q.length) (rounds : q.length < fuel) :
    uriParamLoop uri fuel pos ((strstr uri pos [38]).getD uri.length) http =
      .ok { http with uriParamMap := insertPairs http.uriParamMap pairs } := by
  -- The induction is on the form; each parameter takes one round.
  induction form generalizing pos fuel http with
  | last pair =>
    cases fuel with
    | zero => omega
    | succ fuel =>
      rw [← List.append_nil (_ ++ _ :: _)] at here whole
      rw [uriParamLoop_param here whole pair.whole pair.noEquals (Or.inl rfl), if_pos (by simp)]
      rfl
  | ended pair =>
    cases fuel with
    | zero => omega
    | succ fuel =>
      rw [uriParamLoop_param here whole pair.whole pair.noEquals (Or.inr ⟨[], rfl⟩),
        if_pos (by simp)]
      rfl
  | @next key value q pairs pair form ih =>
    cases fuel with
    | zero => omega
    | succ fuel =>
      have further : ¬ (38 :: q).length ≤ 1 := by
        cases form <;> simp
      obtain ⟨next, length⟩ := At.next here whole
      have shorter : q.length < fuel := by
        rw [List.length_append, List.length_cons] at rounds
        omega
      rw [uriParamLoop_param here whole pair.whole pair.noEquals (Or.inr ⟨q, rfl⟩),
        if_neg further, ih next length shorter]
      rfl

/-! ## The whole URI -/

/-- A URI as the first line of a request gives it, up to a NUL at most. -/
structure UriText where
  chars : Bytes
  noNul : 0 ∉ chars

/-- `parse_httpUriParam` for a request that has no parameters yet. -/
def parseUri (http : Http) (uri : UriText) : Except Failure Http :=
  parseHttpUriParam { http with uri := uri.chars, uriParamMap := fun _ => none }

/-- What parsing a URI has to give. -/
structure UriParsed (uri : Bytes) (result : Except Failure Http) : Prop where
  plain : 63 ∉ uri → ∃ http, result = .ok http ∧ http.baseUri = uri ∧ http.uriParamMap = lastWins []
  read : ∀ base q pairs, uri = base ++ 63 :: q → 63 ∉ base → ParamForm q pairs →
    ∃ http, result = .ok http ∧ http.baseUri = base ∧ http.uriParamMap = lastWins pairs
  refused : ∀ base q, uri = base ++ 63 :: q → 63 ∉ base → (¬ ∃ pairs, ParamForm q pairs) →
    result = .error .returned

variable (http) (uriText : UriText)

/-- A URI without a question mark is taken as it is. -/
theorem parseUri_plain (question : 63 ∉ uriText.chars) : parseUri http uriText =
    .ok { http with
      uri := uriText.chars, baseUri := uriText.chars, uriParamMap := lastWins [] } := by
  have whole : At uriText.chars 0 uriText.chars := by
    rw [At, List.drop_zero]
    exact Separator.takeWhile_fresh uriText.noNul
  have found := strstr_absent whole (mt infix_char.mp question)
  simp only [parseUri, parseHttpUriParam, found]
  rfl

variable {http uriText} {base : Bytes}

/-- Behind the question mark the loop begins. -/
theorem parseUri_params (split : uriText.chars = base ++ 63 :: q) (first : 63 ∉ base) :
    At uriText.chars (base.length + 1) q ∧
      uriText.chars.length = base.length + 1 + q.length ∧
      parseUri http uriText = uriParamLoop uriText.chars (uriText.chars.length + 1)
        (base.length + 1) ((strstr uriText.chars (base.length + 1) [38]).getD uriText.chars.length)
        { http with uri := uriText.chars, baseUri := base, uriParamMap := fun _ => none } := by
  have whole : At uriText.chars 0 (base ++ 63 :: q) := by
    rw [At, List.drop_zero, ← split]
    exact Separator.takeWhile_fresh uriText.noNul
  have found := strstr_first whole (first_char first)
  have baseText := At.text whole
  rw [Nat.zero_add] at found baseText
  -- The parameters begin one position behind the base.
  refine ⟨?_, ?_, ?_⟩
  · have parts : base ++ 63 :: q = (base ++ [63]) ++ q := by simp
    have behind := (parts ▸ whole : At uriText.chars 0 ((base ++ [63]) ++ q)).drop
    rwa [Nat.zero_add, List.length_append] at behind
  · rw [split, List.length_append, List.length_cons]
    omega
  · simp only [parseUri, parseHttpUriParam, found, baseText]

/-- A text of the form gives its pairs. -/
theorem parseUri_form (split : uriText.chars = base ++ 63 :: q) (first : 63 ∉ base)
    (form : ParamForm q pairs) : parseUri http uriText =
      .ok { http with uri := uriText.chars, baseUri := base, uriParamMap := lastWins pairs } := by
  obtain ⟨here, length, same⟩ := @parseUri_params _ http uriText _ split first
  have rounds : q.length < uriText.chars.length + 1 := by omega
  rw [same, uriParamLoop_form form here length rounds]
  simp only [insertPairs_empty]

/-- What the loop does with the parts between the separators. -/
theorem parseUri_outcome (split : uriText.chars = base ++ 63 :: q) (first : 63 ∉ base) :
    ∃ http', ParamOutcome (q.splitOn 38) http' (parseUri http uriText) := by
  obtain ⟨here, length, same⟩ := @parseUri_params _ http uriText _ split first
  have rounds : q.length < uriText.chars.length + 1 := by omega
  rw [same]
  exact ⟨_, uriParamLoop_outcome here length rounds⟩

variable (http uriText)

/--
A URI is parsed as it should be if either it has no question mark, or behind the first one no part
without an equals sign is followed by no equals sign at all, and no part begins with one where all
the parts are read.
-/
theorem parseHttpUriParam_iff :
    UriParsed uriText.chars (parseUri http uriText) ↔
      ∀ base q, uriText.chars = base ++ 63 :: q → 63 ∉ base →
        ¬ ParamFault (q.splitOn 38) ∧
        (ParamsRead (q.splitOn 38) → ∀ param ∈ q.splitOn 38, param.head? ≠ some 61) := by
  constructor
  · intro parsed base q split first
    obtain ⟨http', outcome⟩ := @parseUri_outcome _ http uriText _ split first
    constructor
    · -- A fault is neither a success nor a refusal.
      intro fault
      have done := outcome.fault fault
      by_cases form : ∃ pairs, ParamForm q pairs
      · obtain ⟨pairs, form⟩ := form
        obtain ⟨_, success, _⟩ := parsed.read base q pairs split first form
        simp [done] at success
      · have refused := parsed.refused base q split first form
        simp [done] at refused
    · -- What is read is a success, so that it has to be of the form.
      intro reads
      obtain ⟨_, success, _⟩ := outcome.read reads
      by_contra unnamed
      have noForm : ¬ ∃ pairs, ParamForm q pairs := by
        rintro ⟨pairs, form⟩
        exact unnamed form.read.2
      have refused := parsed.refused base q split first noForm
      simp [success] at refused
  · intro sound
    constructor
    · intro question
      exact ⟨_, parseUri_plain http uriText question, rfl, rfl⟩
    · intro base q pairs split first form
      exact ⟨_, parseUri_form split first form, rfl, rfl⟩
    · -- Without the form the parts are not read, and there is no fault either.
      intro base q split first noForm
      obtain ⟨http', outcome⟩ := @parseUri_outcome _ http uriText _ split first
      obtain ⟨noFault, named⟩ := sound base q split first
      have notRead : ¬ ParamsRead (q.splitOn 38) := fun reads =>
        noForm (exists_form reads (named reads))
      exact outcome.refused notRead noFault

/-- `/?a`. -/
def bareKey : UriText := ⟨[47, 63, 97], by decide⟩

/-- A parameter without an equals sign makes a string from a null pointer. -/
theorem bareKey_faults :
    ¬ UriParsed bareKey.chars (parseUri (Http.fresh .get 0 0) bareKey) := by
  intro parsed
  have noForm : ¬ ∃ pairs, ParamForm [97] pairs := by
    rintro ⟨pairs, form⟩
    exact absurd form.read.1.1 (by decide)
  have refused := parsed.refused [47] [97] rfl (by decide) noForm
  have faults : parseUri (Http.fresh .get 0 0) bareKey = .error .fault := rfl
  simp [faults] at refused

end OneProxy.HttpParse
