import OneProxy.Httpserver.HttpParse
import OneProxy.Lib.Separator

/-! What becomes of the first line of a request. -/

namespace OneProxy.HttpParse

open Tool Search

/-! ## Strings from a position on -/

/-- The string that begins at a position. -/
def At (data : Bytes) (pos : Nat) (s : Bytes) : Prop := cStr (data.drop pos) = s

variable {data : Bytes} {pos : Nat} {needle s before after item more : Bytes}

/-- Behind a part of the string its rest begins. -/
theorem At.drop {part rest : Bytes} (here : At data pos (part ++ rest)) :
    At data (pos + part.length) rest := by
  -- The induction is on the part, none of whose characters is the end of the string.
  have general : ∀ (tail part : Bytes), cStr tail = part ++ rest →
      cStr (tail.drop part.length) = rest := by
    intro tail part
    induction part generalizing tail with
    | nil => exact fun same => same
    | cons x part ih =>
      intro same
      cases tail with
      | nil => exact absurd same (by simp [cStr])
      | cons y tail =>
        simp only [cStr, List.takeWhile_cons] at same ih ⊢
        split at same
        · obtain ⟨_, same⟩ := List.cons.inj same
          exact ih tail same
        · exact absurd same (by simp)
  rw [At, ← List.drop_drop]
  exact general _ part here

/-- The characters of a part. -/
theorem At.text (here : At data pos (item ++ more)) :
    text data pos (pos + item.length) = item := by
  have begins : item ++ more <+: data.drop pos := here ▸ List.takeWhile_prefix _
  obtain ⟨rest, same⟩ := begins
  rw [HttpParse.text, ← same]
  simp

theorem strstr_first (here : At data pos s) (one : First needle s before after) :
    strstr data pos needle = some (pos + before.length) := by
  rw [strstr, here, one.find]
  rfl

theorem strstr_absent (here : At data pos s) (absent : ¬ needle <:+: s) :
    strstr data pos needle = none := by
  rw [strstr, here, find_eq_none absent]
  rfl

/-- The first occurrence of a character. -/
theorem first_char {c : UInt8} (fresh : c ∉ before) :
    First [c] (before ++ c :: after) before after := by
  have one := @first_of_notMem _ before after c [] fresh
  rwa [List.append_assoc] at one

theorem infix_char {c : UInt8} {s : Bytes} : [c] <:+: s ↔ c ∈ s := by
  constructor
  · rintro ⟨front, back, rfl⟩
    simp
  · intro member
    obtain ⟨front, back, rfl⟩ := List.append_of_mem member
    exact ⟨front, back, by simp⟩

/-! ## One item -/

/-- What an item of the first line has to be. -/
def Reads (item : Bytes) : StatusStep → Prop
  | .method => (tmpHttpMethod.lookup item).isSome
  | .uri => 47 ∈ item ∧ item.length < intLimit
  | .version => httpSlash <:+: item ∧ item.length < intLimit ∧ 46 ∈ item

/-- What is taken from an item. -/
def writeItem (item : Bytes) (http : Http) : StatusStep → Http
  | .method => { http with httpMethod := (tmpHttpMethod.lookup item).getD http.httpMethod }
  | .uri => { http with uri := item }
  | .version => { http with
      httpversion := item
      httpversionMajor := atoi (item.drop ((find ([47] : Bytes) item).getD 0 + 1))
      httpversionMinor := atoi (item.drop ((find ([46] : Bytes) item).getD 0 + 1)) }

/--
Where an item uses a search that finds nothing, from it on, or makes a string of a negative length.
-/
def ItemFault (p : Platform) (item tail : Bytes) : StatusStep → Prop
  | .method => False
  | .uri => 47 ∉ item ++ tail ∨ 47 ∈ item ∧ intLimit ≤ item.length
  | .version => ¬ httpSlash <:+: item ++ tail ∨
      httpSlash <:+: item ∧ (intLimit ≤ item.length ∨ p.wide = true ∧ 46 ∉ item)

/-- An item that ends at a space or at the end of the line. -/
structure Ends (c : UInt8) : Prop where
  slash : c ∉ ([47] : Bytes)
  http : c ∉ httpSlash

theorem parseHttpVersion_ok {p : Platform} {http http' : Http} (slash : 47 ∈ http.httpversion) :
    parseHttpVersion p http = .ok http' ↔
      46 ∈ http.httpversion ∧ http' = writeItem http.httpversion http .version := by
  obtain ⟨before, after, one⟩ := exists_first (infix_char.mpr slash)
  simp only [parseHttpVersion, one.find]
  by_cases dot : 46 ∈ http.httpversion
  · obtain ⟨front, back, other⟩ := exists_first (infix_char.mpr dot)
    rw [and_iff_right dot, other.find, Except.ok.injEq, eq_comm]
    simp [writeItem, one.find, other.find]
  · rw [find_eq_none (mt infix_char.mp dot)]
    simp [dot]

theorem parseHttpVersion_fault {p : Platform} {http : Http} (slash : 47 ∈ http.httpversion) :
    parseHttpVersion p http = .error .fault ↔ p.wide = true ∧ 46 ∉ http.httpversion := by
  obtain ⟨before, after, one⟩ := exists_first (infix_char.mpr slash)
  simp only [parseHttpVersion, one.find]
  by_cases dot : 46 ∈ http.httpversion
  · obtain ⟨front, back, other⟩ := exists_first (infix_char.mpr dot)
    simp [other.find, dot]
  · rw [find_eq_none (mt infix_char.mp dot)]
    simp [dot]

variable {p : Platform} {c : UInt8} {http http' : Http} {step : StatusStep}

/-- A search that has to find its text within the item, in the three ways it can go. -/
theorem search_cases (here : At data pos (item ++ c :: more)) (lacks : c ∉ needle)
    (some_ : needle ≠ []) :
    ¬ needle <:+: item ++ c :: more ∧ strstr data pos needle = none ∨
      ∃ found, strstr data pos needle = some found ∧ needle <:+: item ++ c :: more ∧
        (found > pos + item.length ↔ ¬ needle <:+: item) := by
  by_cases inside : needle <:+: item ++ c :: more
  · obtain ⟨before, after, one⟩ := exists_first inside
    refine Or.inr ⟨pos + before.length, strstr_first here one, inside, ?_⟩
    rw [← one.le_iff lacks some_]
    omega
  · exact Or.inl ⟨inside, strstr_absent here inside⟩

theorem slash_of_httpSlash (inside : httpSlash <:+: item) : 47 ∈ item :=
  inside.subset (by decide)

/-- When an item is taken, and what is taken from it. -/
theorem parseItem_ok (here : At data pos (item ++ c :: more)) (ends : Ends c) :
    parseItem p data pos (pos + item.length) http step = .ok http' ↔
      Reads item step ∧ http' = writeItem item http step := by
  have read := here.text
  have length : pos + item.length - pos = item.length := by omega
  cases step with
  | method =>
    simp only [parseItem, read, Reads, writeItem]
    cases tmpHttpMethod.lookup item <;> simp [eq_comm]
  | uri =>
    simp only [parseItem, read, Reads, writeItem, length]
    rcases search_cases here ends.slash (by simp) with ⟨absent, found⟩ | ⟨at_, found, _, beyond⟩
    · have none_ : 47 ∉ item := fun member =>
        absent (infix_char.mpr (List.mem_append_left _ member))
      simp [found, used, none_, Bind.bind, Except.bind]
    · rw [infix_char] at beyond
      simp only [found, used, Bind.bind, Except.bind, beyond]
      by_cases slash : 47 ∈ item
      · by_cases big : intLimit ≤ item.length
        · simp [slash, big, Nat.not_lt.mpr big]
        · simp [slash, big, Nat.not_le.mp big, eq_comm]
      · simp [slash]
  -- The version needs `HTTP/` within the item, and then a slash and a point.
  | version =>
    simp only [parseItem, read, Reads, length]
    rcases search_cases here ends.http (by simp [httpSlash]) with
      ⟨absent, found⟩ | ⟨at_, found, _, beyond⟩
    · have none_ : ¬ httpSlash <:+: item := fun inside =>
        absent (inside.trans (List.prefix_append _ _).isInfix)
      simp [found, used, none_, Bind.bind, Except.bind]
    · simp only [found, used, Bind.bind, Except.bind, beyond]
      by_cases inside : httpSlash <:+: item
      · by_cases big : intLimit ≤ item.length
        · simp [inside, big, Nat.not_lt.mpr big]
        · have version := @parseHttpVersion_ok p { http with httpversion := item } http'
            (slash_of_httpSlash inside)
          simp only [inside, not_true, if_false, ge_iff_le, big, version, true_and,
            Nat.not_le.mp big]
          rfl
      · simp [inside]

/-- When an item is a fault. -/
theorem parseItem_fault (here : At data pos (item ++ c :: more)) (ends : Ends c) :
    parseItem p data pos (pos + item.length) http step = .error .fault ↔
      ItemFault p item (c :: more) step := by
  have length : pos + item.length - pos = item.length := by omega
  cases step with
  | method =>
    simp only [parseItem, ItemFault, iff_false]
    split <;> simp
  -- A search may find its text behind the item, which is no fault.
  | uri =>
    simp only [parseItem, ItemFault, length]
    rcases search_cases here ends.slash (by simp) with
      ⟨absent, found⟩ | ⟨at_, found, inside, beyond⟩
    · rw [infix_char] at absent
      simp [found, used, absent, Bind.bind, Except.bind]
    · rw [infix_char] at inside beyond
      simp only [found, used, Bind.bind, Except.bind, beyond]
      by_cases slash : 47 ∈ item
      · by_cases big : intLimit ≤ item.length
        · simp [slash, big]
        · simp [slash, big]
      · simp [slash, inside]
  | version =>
    simp only [parseItem, here.text, ItemFault, length]
    rcases search_cases here ends.http (by simp [httpSlash]) with
      ⟨absent, found⟩ | ⟨at_, found, inside, beyond⟩
    · simp [found, used, absent, Bind.bind, Except.bind]
    · simp only [found, used, Bind.bind, Except.bind, beyond]
      by_cases within : httpSlash <:+: item
      · by_cases big : intLimit ≤ item.length
        · simp [within, big]
        · have version := @parseHttpVersion_fault p { http with httpversion := item }
            (slash_of_httpSlash within)
          simp only [within, not_true, if_false, ge_iff_le, big, version, true_and,
            false_or, inside]
      · simp [within, inside]

/-! ## The items of a line -/

theorem crlf_cons (p : Platform) : ∃ c more, p.crlf = c :: more ∧ Ends c ∧ 32 ∉ p.crlf := by
  cases win : p.win32 with
  | true =>
    have same : p.crlf = [13, 10] := by simp [Platform.crlf, win]
    exact ⟨13, [10], same, ⟨by decide, by decide⟩, by rw [same]; decide⟩
  | false =>
    have same : p.crlf = [10] := by simp [Platform.crlf, win]
    exact ⟨10, [], same, ⟨by decide, by decide⟩, by rw [same]; decide⟩

theorem ends_space : Ends 32 := ⟨by decide, by decide⟩

/-- The line of which every item reads as what its step wants. -/
inductive LineReads (spaced : Prop) : List StatusStep → Bytes → Http → Bool → Http → Prop
  | done {http : Http} : LineReads spaced [] [] http false http
  /-- The last item ends with the line; the space that ends it for the scan is behind the line. -/
  | last {step : StatusStep} {item : Bytes} {http : Http} : item ≠ [] → 32 ∉ item → spaced →
      Reads item step → LineReads spaced [step] item http true (writeItem item http step)
  | next {step : StatusStep} {steps : List StatusStep} {item r : Bytes} {http http' : Http}
      {ended : Bool} : 32 ∉ item → Reads item step →
      LineReads spaced steps r (writeItem item http step) ended http' →
      LineReads spaced (step :: steps) (item ++ 32 :: r) http ended http'

/-- Where the items of a line come to a fault. -/
inductive LineFault (p : Platform) (rest : Bytes) : List StatusStep → Bytes → Prop
  /-- There is no space from an item on. -/
  | space {steps : List StatusStep} {r : Bytes} : r ≠ [] → 32 ∉ r → 32 ∉ rest →
      LineFault p rest steps r
  /-- The last item of the line is a fault. -/
  | last {step : StatusStep} {steps : List StatusStep} {item : Bytes} : item ≠ [] → 32 ∉ item →
      32 ∈ rest → ItemFault p item (p.crlf ++ rest) step → LineFault p rest (step :: steps) item
  /-- An item before a space is a fault. -/
  | item {step : StatusStep} {steps : List StatusStep} {item r : Bytes} : 32 ∉ item →
      ItemFault p item (32 :: (r ++ p.crlf ++ rest)) step →
      LineFault p rest (step :: steps) (item ++ 32 :: r)
  | next {step : StatusStep} {steps : List StatusStep} {item r : Bytes} : 32 ∉ item →
      Reads item step → LineFault p rest steps r →
      LineFault p rest (step :: steps) (item ++ 32 :: r)

variable {rest r : Bytes} {steps : List StatusStep} {curr endPos : Nat} {spaced : Prop}
  {ended : Bool}

theorem lineReads_nil : LineReads spaced [] r http ended http' ↔
    r = [] ∧ ended = false ∧ http' = http := by
  constructor
  · rintro ⟨⟩
    exact ⟨rfl, rfl, rfl⟩
  · rintro ⟨rfl, rfl, rfl⟩
    exact .done

theorem lineReads_empty : ¬ LineReads spaced (step :: steps) [] http ended http' := by
  intro reads
  generalize empty : ([] : Bytes) = line at reads
  cases reads with
  | last some_ => exact some_ empty.symm
  | next => simp at empty

/-- The item before the first space of the line is the one that its step reads. -/
theorem lineReads_item (fresh : 32 ∉ item) :
    LineReads spaced (step :: steps) (item ++ 32 :: r) http ended http' ↔
      Reads item step ∧ LineReads spaced steps r (writeItem item http step) ended http' := by
  constructor
  · intro reads
    generalize whole : item ++ 32 :: r = line at reads
    cases reads with
    | last some_ fresh' => exact absurd (whole ▸ by simp) fresh'
    | next fresh' readsItem reads =>
      obtain ⟨rfl, rfl⟩ := (Separator.append_cons_inj fresh fresh').mp whole
      exact ⟨readsItem, reads⟩
  · rintro ⟨readsItem, reads⟩
    exact .next fresh readsItem reads

theorem lineReads_last (some_ : r ≠ []) (fresh : 32 ∉ r) :
    LineReads spaced (step :: steps) r http ended http' ↔
      steps = [] ∧ spaced ∧ Reads r step ∧ ended = true ∧ http' = writeItem r http step := by
  constructor
  · intro reads
    cases reads with
    | last _ _ behind readsItem => exact ⟨rfl, behind, readsItem, rfl, rfl⟩
    | next => exact absurd (by simp) fresh
  · rintro ⟨rfl, behind, readsItem, rfl, rfl⟩
    exact .last some_ fresh behind readsItem

theorem lineFault_empty : ¬ LineFault p rest steps [] := by
  intro fault
  generalize empty : ([] : Bytes) = line at fault
  cases fault with
  | space some_ => exact some_ empty.symm
  | last some_ => exact some_ empty.symm
  | item => simp at empty
  | next => simp at empty

theorem lineFault_extra (some_ : r ≠ []) : LineFault p rest [] r ↔ ¬ (32 ∈ r ∨ 32 ∈ rest) := by
  constructor
  · rintro (⟨_, fresh, spaceless⟩)
    exact not_or.mpr ⟨fresh, spaceless⟩
  · intro none_
    exact .space some_ (not_or.mp none_).1 (not_or.mp none_).2

/-- Either the item before the first space is a fault, or it reads and the rest is one. -/
theorem lineFault_item (fresh : 32 ∉ item) :
    LineFault p rest (step :: steps) (item ++ 32 :: r) ↔
      ItemFault p item (32 :: (r ++ p.crlf ++ rest)) step ∨
        Reads item step ∧ LineFault p rest steps r := by
  -- The line has only one first space.
  constructor
  · intro fault
    generalize whole : item ++ 32 :: r = line at fault
    cases fault with
    | space _ fresh' => exact absurd (whole ▸ by simp) fresh'
    | last _ fresh' => exact absurd (whole ▸ by simp) fresh'
    | item fresh' itemFault =>
      obtain ⟨rfl, rfl⟩ := (Separator.append_cons_inj fresh fresh').mp whole
      exact .inl itemFault
    | next fresh' readsItem later =>
      obtain ⟨rfl, rfl⟩ := (Separator.append_cons_inj fresh fresh').mp whole
      exact .inr ⟨readsItem, later⟩
  · rintro (itemFault | ⟨readsItem, later⟩)
    · exact .item fresh itemFault
    · exact .next fresh readsItem later

theorem lineFault_last (some_ : r ≠ []) (fresh : 32 ∉ r) :
    LineFault p rest (step :: steps) r ↔
      32 ∉ rest ∨ 32 ∈ rest ∧ ItemFault p r (p.crlf ++ rest) step := by
  constructor
  · intro fault
    cases fault with
    | space _ _ spaceless => exact .inl spaceless
    | last _ _ spaced itemFault => exact .inr ⟨spaced, itemFault⟩
    | item => exact absurd (by simp) fresh
    | next => exact absurd (by simp) fresh
  · rintro (spaceless | ⟨spaced, itemFault⟩)
    · exact .space some_ fresh spaceless
    · exact .last some_ fresh spaced itemFault

theorem bind_eq_ok {ε α β : Type} {x : Except ε α} {f : α → Except ε β} {b : β} :
    x.bind f = .ok b ↔ ∃ a, x = .ok a ∧ f a = .ok b := by
  cases x with
  | error failure => exact iff_of_false (by simp [Except.bind]) (by simp)
  | ok a => simp [Except.bind]

theorem bind_eq_error {ε α β : Type} {x : Except ε α} {f : α → Except ε β} {e : ε} :
    x.bind f = .error e ↔ x = .error e ∨ ∃ a, x = .ok a ∧ f a = .error e := by
  cases x with
  | error failure => simp [Except.bind]
  | ok a => simp [Except.bind]

/-- An item before a space is taken, and the rest of the line follows. -/
theorem firstLineLoop_item (here : At data curr (item ++ 32 :: (r ++ p.crlf ++ rest)))
    (fresh : 32 ∉ item) (line : endPos = curr + item.length + 1 + r.length) :
    firstLineLoop p data endPos (step :: steps) curr http =
      (parseItem p data curr (curr + item.length) http step).bind fun http =>
        firstLineLoop p data endPos steps (curr + item.length + 1) http := by
  have found := strstr_first here (first_char fresh)
  have inside : curr < endPos := by omega
  have within : ¬ curr + item.length > endPos := by omega
  rw [firstLineLoop, if_pos inside, found]
  simp only [used, Bind.bind, Except.bind, if_neg within]

/-- Behind the line the loop has ended. -/
theorem firstLineLoop_outside (outside : ¬ curr < endPos) :
    firstLineLoop p data endPos steps curr http =
    if steps = [] then .ok (curr, http) else .error .returned := by
  cases steps <;> rw [firstLineLoop, if_neg outside] <;> rfl

/-- The last item of the line ends with it, if there is a space behind the line. -/
theorem firstLineLoop_last (here : At data curr (r ++ (p.crlf ++ rest))) (some_ : r ≠ [])
    (fresh : 32 ∉ r) (spaced : 32 ∈ rest) (line : endPos = curr + r.length) :
    firstLineLoop p data endPos (step :: steps) curr http =
      (parseItem p data curr (curr + r.length) http step).bind fun http =>
        if steps = [] then .ok (endPos + 1, http) else .error .returned := by
  subst line
  obtain ⟨before, after, rfl, fresh'⟩ := List.eq_append_cons_of_mem spaced
  obtain ⟨c, more, crlf, _, none_⟩ := crlf_cons p
  have parts : r ++ (p.crlf ++ (before ++ 32 :: after)) =
      (r ++ p.crlf ++ before) ++ 32 :: after := by
    simp
  have found := strstr_first (parts ▸ here) (first_char (by simp [fresh, fresh', none_]))
  have positive := List.length_pos_of_ne_nil some_
  have inside : curr < curr + r.length := by omega
  -- The space that is found is behind the end of the line.
  have beyond : curr + (r ++ p.crlf ++ before).length > curr + r.length := by
    have long : 0 < p.crlf.length := by rw [crlf]; simp
    rw [List.length_append, List.length_append]
    omega
  rw [firstLineLoop, if_pos inside, found]
  simp only [used, Bind.bind, Except.bind, if_pos beyond]
  cases parseItem p data curr (curr + r.length) http step with
  | error failure => rfl
  | ok http => exact firstLineLoop_outside (by omega)

/-- Without a space from an item on, the end of the item is not found. -/
theorem firstLineLoop_space (here : At data curr (r ++ (p.crlf ++ rest))) (some_ : r ≠ [])
    (fresh : 32 ∉ r) (spaceless : 32 ∉ rest) (line : endPos = curr + r.length) :
    firstLineLoop p data endPos steps curr http = .error .fault := by
  obtain ⟨_, _, _, _, none_⟩ := crlf_cons p
  have found : strstr data curr [32] = none :=
    strstr_absent here (mt infix_char.mp (by simp [fresh, none_, spaceless]))
  have positive := List.length_pos_of_ne_nil some_
  have inside : curr < endPos := by omega
  cases steps <;> rw [firstLineLoop, if_pos inside, found] <;> rfl

/-- Behind the last step an item is refused. -/
theorem firstLineLoop_extra (here : At data curr (r ++ (p.crlf ++ rest))) (some_ : r ≠ [])
    (line : endPos = curr + r.length) : firstLineLoop p data endPos [] curr http =
      .error (if 32 ∈ r ∨ 32 ∈ rest then .returned else .fault) := by
  have positive := List.length_pos_of_ne_nil some_
  have inside : curr < endPos := by omega
  obtain ⟨_, _, _, _, none_⟩ := crlf_cons p
  have spaces : [32] <:+: r ++ (p.crlf ++ rest) ↔ 32 ∈ r ∨ 32 ∈ rest := by
    rw [infix_char]
    simp [none_]
  rw [firstLineLoop, if_pos inside]
  by_cases spaced : [32] <:+: r ++ (p.crlf ++ rest)
  · obtain ⟨before, after, one⟩ := exists_first spaced
    rw [strstr_first here one, if_pos (spaces.mp spaced)]
    rfl
  · rw [strstr_absent here spaced, if_neg (mt spaces.mpr spaced)]
    rfl

/-- The part of the string from the rest of the line on. -/
theorem At.behind (here : At data curr (item ++ 32 :: (r ++ (p.crlf ++ rest)))) :
    At data (curr + item.length + 1) (r ++ (p.crlf ++ rest)) := by
  have parts : item ++ 32 :: (r ++ (p.crlf ++ rest)) =
      (item ++ [32]) ++ (r ++ (p.crlf ++ rest)) := by simp
  rw [parts] at here
  have next := here.drop
  rwa [List.length_append, ← Nat.add_assoc] at next

/-- A line with a space in it, cut behind its first item. -/
theorem At.cut (here : At data curr (r ++ (p.crlf ++ rest))) (space : 32 ∈ r)
    (line : endPos = curr + r.length) : ∃ item r', r = item ++ 32 :: r' ∧ 32 ∉ item ∧
      At data curr (item ++ 32 :: (r' ++ p.crlf ++ rest)) ∧
      At data (curr + item.length + 1) (r' ++ (p.crlf ++ rest)) ∧
      endPos = curr + item.length + 1 + r'.length := by
  obtain ⟨item, r', rfl, fresh⟩ := List.eq_append_cons_of_mem space
  rw [List.append_assoc, List.cons_append] at here
  refine ⟨item, r', rfl, fresh, ?_, here.behind, ?_⟩
  · rwa [List.append_assoc]
  · rw [line, List.length_append, List.length_cons]
    omega

/-- The first line is taken exactly if its items read as what the steps want. -/
theorem firstLineLoop_ok {stop : Nat} (here : At data curr (r ++ (p.crlf ++ rest)))
    (line : endPos = curr + r.length) :
    firstLineLoop p data endPos steps curr http = .ok (stop, http') ↔
      ∃ ended, LineReads (32 ∈ rest) steps r http ended http' ∧
        stop = endPos + if ended then 1 else 0 := by
  -- The loop takes one item with each step, so what is left of the line changes along.
  induction steps generalizing r curr http with
  | nil =>
    simp only [lineReads_nil]
    by_cases none_ : r = []
    · subst none_
      obtain rfl : endPos = curr := line
      rw [firstLineLoop_outside (Nat.lt_irrefl _), if_pos rfl, Except.ok.injEq, Prod.mk.injEq]
      constructor
      · rintro ⟨rfl, rfl⟩
        exact ⟨false, ⟨rfl, rfl, rfl⟩, rfl⟩
      · rintro ⟨ended, ⟨_, rfl, rfl⟩, rfl⟩
        exact ⟨rfl, rfl⟩
    · rw [firstLineLoop_extra here none_ line]
      refine iff_of_false (by simp) ?_
      rintro ⟨ended, ⟨empty, _⟩, _⟩
      exact none_ empty
  | cons step steps ih =>
    by_cases none_ : r = []
    · subst none_
      obtain rfl : endPos = curr := line
      rw [firstLineLoop_outside (Nat.lt_irrefl _), if_neg (List.cons_ne_nil step steps)]
      refine iff_of_false (by simp) ?_
      rintro ⟨ended, reads, _⟩
      exact lineReads_empty reads
    by_cases space : 32 ∈ r
    · obtain ⟨item, r, rfl, fresh, here, next, whole⟩ := here.cut space line
      rw [firstLineLoop_item here fresh whole, bind_eq_ok]
      simp only [parseItem_ok here ends_space, lineReads_item fresh]
      constructor
      · rintro ⟨_, ⟨readsItem, rfl⟩, done⟩
        obtain ⟨ended, reads, stops⟩ := (ih next whole).mp done
        exact ⟨ended, ⟨readsItem, reads⟩, stops⟩
      · rintro ⟨ended, ⟨readsItem, reads⟩, stops⟩
        exact ⟨_, ⟨readsItem, rfl⟩, (ih next whole).mpr ⟨ended, reads, stops⟩⟩
    simp only [lineReads_last none_ space]
    by_cases spaced : 32 ∈ rest
    · -- The space that ends the last item for the scan lies behind the line.
      obtain ⟨c, more, crlf, ends, _⟩ := crlf_cons p
      have there : At data curr (r ++ c :: (more ++ rest)) := by
        rw [← List.cons_append, ← crlf]
        exact here
      rw [firstLineLoop_last here none_ space spaced line, bind_eq_ok]
      simp only [parseItem_ok there ends]
      constructor
      · rintro ⟨_, ⟨readsItem, rfl⟩, done⟩
        split at done
        · next last =>
          obtain ⟨rfl, rfl⟩ := Prod.mk.inj (Except.ok.inj done)
          exact ⟨true, ⟨last, spaced, readsItem, rfl, rfl⟩, rfl⟩
        · exact absurd done (by simp)
      · rintro ⟨_, ⟨last, _, readsItem, rfl, rfl⟩, rfl⟩
        exact ⟨_, ⟨readsItem, rfl⟩, if_pos last⟩
    · rw [firstLineLoop_space here none_ space spaced line]
      refine iff_of_false (by simp) ?_
      rintro ⟨_, ⟨_, behind, _⟩, _⟩
      exact spaced behind

/-- When the first line is a fault. -/
theorem firstLineLoop_fault (here : At data curr (r ++ (p.crlf ++ rest)))
    (line : endPos = curr + r.length) :
    firstLineLoop p data endPos steps curr http = .error .fault ↔ LineFault p rest steps r := by
  -- The cases of the loop's success again, each with what is a fault in it.
  induction steps generalizing r curr http with
  | nil =>
    by_cases none_ : r = []
    · subst none_
      obtain rfl : endPos = curr := line
      rw [firstLineLoop_outside (Nat.lt_irrefl _), if_pos rfl]
      exact iff_of_false (by simp) lineFault_empty
    · rw [firstLineLoop_extra here none_ line, lineFault_extra none_]
      by_cases space : 32 ∈ r ∨ 32 ∈ rest
      · rw [if_pos space]
        exact iff_of_false (by simp) (not_not_intro space)
      · rw [if_neg space]
        exact iff_of_true rfl space
  | cons step steps ih =>
    by_cases none_ : r = []
    · subst none_
      obtain rfl : endPos = curr := line
      rw [firstLineLoop_outside (Nat.lt_irrefl _), if_neg (List.cons_ne_nil step steps)]
      exact iff_of_false (by simp) lineFault_empty
    by_cases space : 32 ∈ r
    · obtain ⟨item, r, rfl, fresh, here, next, whole⟩ := here.cut space line
      rw [firstLineLoop_item here fresh whole, bind_eq_error, lineFault_item fresh]
      simp only [parseItem_fault here ends_space, parseItem_ok here ends_space, ih next whole]
      refine or_congr Iff.rfl ?_
      constructor
      · rintro ⟨_, ⟨readsItem, _⟩, later⟩
        exact ⟨readsItem, later⟩
      · rintro ⟨readsItem, later⟩
        exact ⟨_, ⟨readsItem, rfl⟩, later⟩
    rw [lineFault_last none_ space]
    by_cases spaced : 32 ∈ rest
    · obtain ⟨c, more, crlf, ends, _⟩ := crlf_cons p
      have there : At data curr (r ++ c :: (more ++ rest)) := by
        rw [← List.cons_append, ← crlf]
        exact here
      have fault := @parseItem_fault _ _ _ _ p c http step there ends
      rw [← List.cons_append, ← crlf] at fault
      rw [firstLineLoop_last here none_ space spaced line, bind_eq_error, fault]
      constructor
      · -- Behind the last item the loop may stop early, but it cannot fault.
        rintro (itemFault | ⟨_, _, done⟩)
        · exact .inr ⟨spaced, itemFault⟩
        · split at done <;> exact absurd done (by simp)
      · rintro (spaceless | ⟨_, itemFault⟩)
        · exact absurd spaced spaceless
        · exact .inl itemFault
    · rw [firstLineLoop_space here none_ space spaced line]
      exact iff_of_true rfl (.inl spaced)

end OneProxy.HttpParse
