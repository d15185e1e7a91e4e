import OneProxy.Sql.Keywords

/-! The table of the first characters of the keywords, which a name is looked up in first. -/

namespace OneProxy.Sql

/-- `HitCache`: for each of the first positions, the characters that stand there. -/
structure HitCache where
  cache : Nat → Int → Bool
  cacheLevel : Nat
  isIgnoreCase : Bool

/-- The number that a `char` is. -/
def charValue (c : UInt8) : Int := if c < 128 then c.toNat else c.toNat - 256

namespace HitCache

/-- The constructor. -/
def new (cacheLevel : Nat) (ignoreCase : Bool) : HitCache where
  cache := fun _ _ => false
  cacheLevel := min cacheLevel 5
  isIgnoreCase := ignoreCase

/-- Sets a cell of the five rows of 130, undefined outside them. -/
def mark (hc : HitCache) (row : Nat) (column : Int) : Option HitCache :=
  if row < 5 ∧ 0 ≤ column ∧ column < 130 then
    some { hc with cache := fun i ch => (i = row ∧ ch = column) || hc.cache i ch }
  else none

/-- Sets the cells of a character, in both cases if the case is ignored. -/
def setChar (hc : HitCache) (row : Nat) (ch : Int) : Option HitCache :=
  if ch ≥ 130 then some hc
  else if hc.isIgnoreCase then
    if 65 ≤ ch ∧ ch ≤ 90 then do
      let hc ← hc.mark row ch
      hc.mark row (ch + 32)
    else if 97 ≤ ch ∧ ch ≤ 122 then do
      let hc ← hc.mark row ch
      hc.mark row (ch - 32)
    else hc.mark row ch
  else hc.mark row ch

/-- The loop over the first characters of a name, from a row on. -/
def setLoop (hc : HitCache) (row : Nat) : Bytes → Option HitCache
  | [] => some hc
  | c :: rest => do
    let hc ← hc.setChar row (charValue c)
    setLoop hc (row + 1) rest

/-- `set_hitCache`. -/
def setHitCache (hc : HitCache) (name : Bytes) : Option HitCache :=
  hc.setLoop 0 (name.take hc.cacheLevel)

/-- The loop of `is_hit`, from a row on, undefined where a cell is read outside the table. -/
def hitLoop (hc : HitCache) (row : Nat) : Bytes → Option Bool
  | [] => some true
  | c :: rest =>
    let ch := charValue c
    if ch ≥ 130 then some false
    else if row < 5 ∧ 0 ≤ ch then
      if hc.cache row ch then hitLoop hc (row + 1) rest else some false
    else none

/-- `is_hit`. -/
def isHit (hc : HitCache) (data : Bytes) : Option Bool :=
  hc.hitLoop 0 (data.take hc.cacheLevel)

end HitCache

/-- An entry of the token table: an id and its name, with a prefix of seven characters. -/
structure TokenInfo (τ : Type) where
  id : τ
  text : Bytes
  /-- Names are made of ASCII characters. -/
  plain : ∀ c ∈ text, 0 < c ∧ c < 128

/-- `TokenMap`: the names without their prefixes, no two of which are equal for `strcasecmp`. -/
structure TokenMap (τ : Type) where
  tokenMap : List (Bytes × τ)
  hitCache : HitCache

namespace TokenMap

variable {τ : Type}

/-- `token_map.insert`, which leaves an entry that is there. -/
def insert (tokenMap : List (Bytes × τ)) (s : Bytes) (id : τ) : List (Bytes × τ) :=
  if tokenMap.any fun entry => sameName entry.1 s then tokenMap else tokenMap ++ [(s, id)]

/-- One round of the constructor's loop. -/
def add (t : TokenMap τ) (info : TokenInfo τ) : Option (TokenMap τ) :=
  if info.text.length > 7 then do
    let s := info.text.drop 7
    let hitCache ← t.hitCache.setHitCache s
    some ⟨insert t.tokenMap s info.id, hitCache⟩
  else some t

/-- The constructor, of the entries from `TK_SQL_ACCESSIBLE` up to before `TK_SQL_ZEROFILL`. -/
def load (infos : List (TokenInfo τ)) : Option (TokenMap τ) :=
  infos.foldlM add ⟨[], HitCache.new 2 true⟩

/-- `tokenIdByName`; `literal` is `TK_LITERAL`. -/
def tokenIdByName (literal : τ) (t : TokenMap τ) (name : Bytes) : Option τ := do
  if ← t.hitCache.isHit name then
    match t.tokenMap.find? fun entry => sameName entry.1 name with
    | some entry => some entry.2
    | none => some literal
  else some literal

/-- The id of the first name of the table that is the name asked for, in any case. -/
def plainLookup (literal : τ) (infos : List (TokenInfo τ)) (name : Bytes) : τ :=
  match infos.find? fun info => info.text.length > 7 ∧ sameName (info.text.drop 7) name with
  | some info => info.id
  | none => literal

end TokenMap

/-- A name that is looked up: some ASCII characters. -/
structure Identifier where
  text : Bytes
  nonempty : text ≠ []
  plain : ∀ c ∈ text, 0 < c ∧ c < 128

/-! ## The table of characters -/

namespace HitCache

/-- One table has all cells of another. -/
structure Within (hc hc' : HitCache) : Prop where
  cacheLevel : hc'.cacheLevel = hc.cacheLevel
  isIgnoreCase : hc'.isIgnoreCase = hc.isIgnoreCase
  cache : ∀ row ch, hc.cache row ch = true → hc'.cache row ch = true

theorem Within.refl (hc : HitCache) : Within hc hc := ⟨rfl, rfl, fun _ _ set => set⟩

theorem Within.trans {hc hc' hc'' : HitCache} (first : Within hc hc') (second : Within hc' hc'') :
    Within hc hc'' where
  cacheLevel := second.cacheLevel.trans first.cacheLevel
  isIgnoreCase := second.isIgnoreCase.trans first.isIgnoreCase
  cache row ch set := second.cache row ch (first.cache row ch set)

variable {hc hc' : HitCache} {row : Nat} {column : Int} {c d : UInt8} {name : Bytes}

/-- A cell that is set is set, and the others are as they were. -/
theorem mark_spec (inside : row < 5) (low : 0 ≤ column) (high : column < 130) :
    ∃ hc', hc.mark row column = some hc' ∧ Within hc hc' ∧ hc'.cache row column = true := by
  refine ⟨{ hc with cache := fun i ch => (i = row ∧ ch = column) || hc.cache i ch }, ?_,
    ⟨rfl, rfl, fun _ _ set => ?_⟩, ?_⟩
  · rw [mark, if_pos ⟨inside, low, high⟩]
  · simp [set]
  · simp

/-- Two cells of a row that are set one after the other. -/
theorem mark_both {other : Int} (inside : row < 5) (low : 0 ≤ column) (high : column < 130)
    (low' : 0 ≤ other) (high' : other < 130) :
    ∃ hc', (hc.mark row column).bind (·.mark row other) = some hc' ∧ Within hc hc' ∧
      hc'.cache row column = true ∧ hc'.cache row other = true := by
  obtain ⟨first, one, within, set⟩ := @mark_spec hc row column inside low high
  obtain ⟨second, two, within', set'⟩ := @mark_spec first row other inside low' high'
  refine ⟨second, ?_, within.trans within', within'.cache _ _ set, set'⟩
  rw [one]
  exact two

/-- A lower-case character as a number. -/
theorem toNat_toLower (c : UInt8) :
    (toLower c).toNat = if 65 ≤ c.toNat ∧ c.toNat ≤ 90 then c.toNat + 32 else c.toNat := by
  have small := c.toNat_lt
  rw [toLower]
  simp only [UInt8.le_iff_toNat_le, show UInt8.toNat 65 = 65 from rfl,
    show UInt8.toNat 90 = 90 from rfl]
  by_cases upper : 65 ≤ c.toNat ∧ c.toNat ≤ 90
  · rw [if_pos upper, if_pos upper, UInt8.toNat_add]
    simp
    omega
  · rw [if_neg upper, if_neg upper]

/-- The value of an ASCII character. -/
theorem charValue_plain (plain : c.toNat < 128) : charValue c = c.toNat := by
  rw [charValue, if_pos]
  exact UInt8.lt_iff_toNat_lt.mpr plain

/-- A character and another spelling of it. -/
theorem spelling_cases (plain : c.toNat < 128) (same : toLower d = toLower c) :
    d.toNat < 128 ∧ (charValue d = charValue c ∨
      (65 ≤ charValue c ∧ charValue c ≤ 90 ∧ charValue d = charValue c + 32) ∨
      (97 ≤ charValue c ∧ charValue c ≤ 122 ∧ charValue d = charValue c - 32)) := by
  have numbers := congrArg UInt8.toNat same
  rw [toNat_toLower, toNat_toLower] at numbers
  have bound : d.toNat < 128 := by
    split at numbers <;> split at numbers <;> omega
  refine ⟨bound, ?_⟩
  rw [charValue_plain plain, charValue_plain bound]
  split at numbers <;> split at numbers <;> omega

/-- A character that is filled in is filled in in every spelling. -/
theorem setChar_spec (inside : row < 5) (plain : c.toNat < 128) (folds : hc.isIgnoreCase = true) :
    ∃ hc', hc.setChar row (charValue c) = some hc' ∧ Within hc hc' ∧
      ∀ d, toLower d = toLower c → hc'.cache row (charValue d) = true := by
  have value := charValue_plain plain
  have small : ¬ charValue c ≥ 130 := by omega
  rw [setChar, if_neg small, if_pos folds]
  by_cases upper : 65 ≤ charValue c ∧ charValue c ≤ 90
  · -- An upper-case letter, and the lower-case one.
    obtain ⟨second, done, within, set, set'⟩ :=
      @mark_both hc row (charValue c) (charValue c + 32) inside (by omega) (by omega) (by omega)
        (by omega)
    refine ⟨second, by rw [if_pos upper]; exact done, within, fun d same => ?_⟩
    obtain ⟨_, equal | ⟨_, _, lower⟩ | other⟩ := spelling_cases plain same
    · rwa [equal]
    · rwa [lower]
    · omega
  · rw [if_neg upper]
    by_cases lower : 97 ≤ charValue c ∧ charValue c ≤ 122
    · -- A lower-case letter, and the upper-case one.
      obtain ⟨second, done, within, set, set'⟩ :=
        @mark_both hc row (charValue c) (charValue c - 32) inside (by omega) (by omega) (by omega)
          (by omega)
      refine ⟨second, by rw [if_pos lower]; exact done, within, fun d same => ?_⟩
      obtain ⟨_, equal | other | ⟨_, _, upper⟩⟩ := spelling_cases plain same
      · rwa [equal]
      · omega
      · rwa [upper]
    · -- A character that is no letter has one spelling.
      obtain ⟨first, one, within, set⟩ :=
        @mark_spec hc row (charValue c) inside (by omega) (by omega)
      refine ⟨first, by rw [if_neg lower, one], within, fun d same => ?_⟩
      obtain ⟨_, equal | other | other⟩ := spelling_cases plain same
      · rw [equal]
        exact set
      · omega
      · omega

/-- A name that is filled in is a hit in every spelling, and stays one. -/
theorem setLoop_spec (plain : ∀ c ∈ name, c.toNat < 128) (folds : hc.isIgnoreCase = true)
    (rows : row + name.length ≤ 5) :
    ∃ hc', hc.setLoop row name = some hc' ∧ Within hc hc' ∧
      ∀ later, Within hc' later → ∀ spelling : Bytes, spelling.map toLower = name.map toLower →
        later.hitLoop row spelling = some true := by
  induction name generalizing hc row with
  | nil =>
    refine ⟨hc, rfl, Within.refl hc, fun later _ spelling same => ?_⟩
    rw [List.map_nil, List.map_eq_nil_iff] at same
    rw [same, hitLoop]
  | cons c rest ih =>
    rw [List.length_cons] at rows
    obtain ⟨first, one, within, set⟩ :=
      @setChar_spec hc row c (by omega) (plain c List.mem_cons_self) folds
    obtain ⟨second, two, within', hits⟩ := @ih first (row + 1)
      (fun d member => plain d (List.mem_cons_of_mem _ member))
      (within.isIgnoreCase.trans folds) (by omega)
    refine ⟨second, by rw [setLoop, one]; exact two, within.trans within', ?_⟩
    intro later grown spelling same
    -- The spelling begins with one of the character, which has its cell.
    cases spelling with
    | nil => simp at same
    | cons d ds =>
      rw [List.map_cons, List.map_cons] at same
      obtain ⟨head, tail⟩ := List.cons.inj same
      obtain ⟨bound, _⟩ := spelling_cases (plain c List.mem_cons_self) head
      have value := charValue_plain bound
      have there := (within'.trans grown).cache _ _ (set d head)
      rw [hitLoop, if_neg (by omega), if_pos ⟨by omega, by omega⟩, if_pos there]
      exact hits later grown ds tail

/-- A name that is filled in is a hit for every name that is equal to it but for the case. -/
theorem setHitCache_spec (plain : ∀ c ∈ name, c.toNat < 128) (folds : hc.isIgnoreCase = true)
    (rows : hc.cacheLevel ≤ 5) :
    ∃ hc', hc.setHitCache name = some hc' ∧ Within hc hc' ∧
      ∀ later, Within hc' later → ∀ spelling : Bytes, sameName name spelling →
        later.isHit spelling = some true := by
  obtain ⟨hc', done, within, hits⟩ := @setLoop_spec hc 0 (name.take hc.cacheLevel)
    (fun c member => plain c (List.mem_of_mem_take member)) folds
    (by rw [List.length_take]; omega)
  refine ⟨hc', done, within, fun later grown spelling same => ?_⟩
  rw [isHit, grown.cacheLevel, within.cacheLevel]
  refine hits later grown _ ?_
  rw [List.map_take, List.map_take, of_decide_eq_true same]

/-- Of an ASCII name it is always said whether it is a hit. -/
theorem hitLoop_defined (plain : ∀ c ∈ name, c.toNat < 128) (rows : row + name.length ≤ 5) :
    ∃ hit, hc.hitLoop row name = some hit := by
  induction name generalizing row with
  | nil => exact ⟨true, rfl⟩
  | cons c rest ih =>
    rw [List.length_cons] at rows
    have value := charValue_plain (plain c List.mem_cons_self)
    have bound := plain c List.mem_cons_self
    rw [hitLoop, if_neg (by omega), if_pos ⟨by omega, by omega⟩]
    -- A cell that is not set ends the search with an answer, too.
    by_cases set : hc.cache row (charValue c) = true
    · rw [if_pos set]
      exact ih (fun d member => plain d (List.mem_cons_of_mem _ member)) (by omega)
    · exact ⟨false, if_neg set⟩

end HitCache

/-! ## The map behind the table -/

namespace TokenMap

open HitCache

variable {τ : Type}

/-- The id under a name of the map. -/
def lookup (tokenMap : List (Bytes × τ)) (name : Bytes) : Option τ :=
  (tokenMap.find? fun entry => sameName entry.1 name).map (·.2)

/-- The id of the first name of the table that is the name asked for. -/
def found (infos : List (TokenInfo τ)) (name : Bytes) : Option τ :=
  (infos.find? fun info => info.text.length > 7 ∧ sameName (info.text.drop 7) name).map (·.id)

theorem sameName_iff {a b : Bytes} : sameName a b = true ↔ a.map toLower = b.map toLower := by
  rw [sameName, decide_eq_true_iff]

/-- A new name is behind those that are there. -/
theorem lookup_insert (tokenMap : List (Bytes × τ)) (s : Bytes) (id : τ) (name : Bytes) :
    lookup (insert tokenMap s id) name =
      (lookup tokenMap name).or (if sameName s name then some id else none) := by
  rw [insert]
  by_cases there : tokenMap.any fun entry => sameName entry.1 s
  · rw [if_pos there]
    by_cases same : sameName s name
    · -- The entry that is there is found under the new name as well.
      obtain ⟨entry, member, equal⟩ := List.any_eq_true.mp there
      have equal' : sameName entry.1 name = true :=
        sameName_iff.mpr ((sameName_iff.mp equal).trans (sameName_iff.mp same))
      have some_ : (tokenMap.find? fun entry => sameName entry.1 name).isSome :=
        List.find?_isSome.mpr ⟨entry, member, equal'⟩
      obtain ⟨first, first_⟩ := Option.isSome_iff_exists.mp some_
      rw [lookup, first_]
      rfl
    · rw [if_neg same, Option.or_none]
  · rw [if_neg there, lookup, lookup, List.find?_append]
    cases (tokenMap.find? fun entry => sameName entry.1 name) with
    | some entry => rfl
    | none =>
      simp only [Option.none_or, Option.map_none, List.find?_singleton]
      split <;> rfl

/-- One round of the constructor's loop. -/
theorem add_spec (t : TokenMap τ) (info : TokenInfo τ) (folds : t.hitCache.isIgnoreCase = true)
    (rows : t.hitCache.cacheLevel ≤ 5) :
    ∃ t', t.add info = some t' ∧ Within t.hitCache t'.hitCache ∧
      (∀ name, lookup t'.tokenMap name = (lookup t.tokenMap name).or (found [info] name)) ∧
      (info.text.length > 7 → ∀ later, Within t'.hitCache later → ∀ spelling,
        sameName (info.text.drop 7) spelling → later.isHit spelling = some true) := by
  have one : ∀ name, found [info] name =
      if info.text.length > 7 ∧ sameName (info.text.drop 7) name then some info.id else none := by
    intro name
    rw [found, List.find?_singleton]
    by_cases both : info.text.length > 7 ∧ sameName (info.text.drop 7) name
    · rw [if_pos both, if_pos (decide_eq_true both)]
      rfl
    · rw [if_neg both, if_neg (by simpa using both)]
      rfl
  rw [add]
  by_cases long : info.text.length > 7
  · -- What is behind the prefix goes into the table and into the map.
    obtain ⟨hc', done, within, hits⟩ := @setHitCache_spec t.hitCache (info.text.drop 7)
      (fun c member => UInt8.lt_iff_toNat_lt.mp (info.plain c (List.mem_of_mem_drop member)).2)
      folds rows
    refine ⟨⟨insert t.tokenMap (info.text.drop 7) info.id, hc'⟩, ?_, within, fun name => ?_,
      fun _ => hits⟩
    · rw [if_pos long]
      dsimp only
      rw [done]
      rfl
    · rw [lookup_insert, one]
      simp only [long, true_and]
  · refine ⟨t, if_neg long, Within.refl _, fun name => ?_, fun long' => absurd long' long⟩
    rw [one, if_neg fun both => long both.1, Option.or_none]

/-- The whole loop: every name is found under its first id, and is a hit in every spelling. -/
theorem load_spec (infos : List (TokenInfo τ)) (t : TokenMap τ)
    (folds : t.hitCache.isIgnoreCase = true) (rows : t.hitCache.cacheLevel ≤ 5) :
    ∃ t', infos.foldlM add t = some t' ∧ Within t.hitCache t'.hitCache ∧
      (∀ name, lookup t'.tokenMap name = (lookup t.tokenMap name).or (found infos name)) ∧
      ∀ name id, found infos name = some id → t'.hitCache.isHit name = some true := by
  -- The induction is on the entries; what an entry sets stays set in the rounds behind it.
  induction infos generalizing t with
  | nil =>
    exact ⟨t, rfl, Within.refl _, fun _ => by simp [found],
      fun _ _ none_ => by simp [found] at none_⟩
  | cons info infos ih =>
    obtain ⟨first, one, within, lookups, hits⟩ := add_spec t info folds rows
    obtain ⟨last, done, within', lookups', hits'⟩ := ih first (within.isIgnoreCase.trans folds)
      (by rw [within.cacheLevel]; exact rows)
    have split_ : ∀ name, found (info :: infos) name =
        (found [info] name).or (found infos name) := by
      intro name
      rw [found, found, found, ← List.singleton_append, List.find?_append]
      cases ([info].find? fun info =>
        info.text.length > 7 ∧ sameName (info.text.drop 7) name) <;> rfl
    refine ⟨last, ?_, within.trans within', fun name => ?_, fun name id known => ?_⟩
    · rw [List.foldlM_cons, one]
      exact done
    · rw [lookups', lookups, split_, Option.or_assoc]
    · rw [split_] at known
      rcases Option.or_eq_some_iff.mp known with here | ⟨_, later⟩
      · obtain ⟨info', found_, _⟩ := Option.map_eq_some_iff.mp here
        have member := List.mem_of_find?_eq_some found_
        have both := List.find?_some found_
        rw [decide_eq_true_iff] at both
        rw [List.mem_singleton] at member
        subst member
        exact hits both.1 last.hitCache within' name both.2
      · exact hits' name id later

/-- The plain lookup in terms of the id that is found. -/
theorem plainLookup_eq (literal : τ) (infos : List (TokenInfo τ)) (name : Bytes) :
    plainLookup literal infos name = (found infos name).getD literal := by
  rw [plainLookup, found]
  cases infos.find? fun info => info.text.length > 7 ∧ sameName (info.text.drop 7) name <;> rfl

/-- What is looked up behind the table of first characters. -/
theorem load_tokenIdByName (literal : τ) (infos : List (TokenInfo τ)) (name : Identifier) :
    ((load infos).bind fun t => t.tokenIdByName literal name.text) =
      some ((found infos name.text).getD literal) := by
  obtain ⟨t, done, within, lookups, hits⟩ :=
    load_spec infos ⟨[], HitCache.new 2 true⟩ rfl (Nat.min_le_right 2 5)
  have none_ : lookup ([] : List (Bytes × τ)) name.text = none := rfl
  have same := lookups name.text
  rw [none_, Option.none_or] at same
  rw [load, done, Option.bind_some]
  have behind : ∀ hit, t.hitCache.isHit name.text = some hit →
      t.tokenIdByName literal name.text =
        some (if hit then (found infos name.text).getD literal else literal) := by
    intro hit answer
    rw [tokenIdByName, answer, ← same, lookup]
    cases hit with
    | false => rfl
    | true =>
      cases t.tokenMap.find? fun entry => sameName entry.1 name.text <;> rfl
  obtain ⟨hit, answer⟩ := @hitLoop_defined t.hitCache 0 (name.text.take t.hitCache.cacheLevel)
    (fun c member => UInt8.lt_iff_toNat_lt.mp (name.plain c (List.mem_of_mem_take member)).2)
    (by
      have level := within.cacheLevel
      rw [List.length_take]
      have most : t.hitCache.cacheLevel ≤ 5 := level ▸ Nat.min_le_right 2 5
      omega)
  rw [behind hit answer]
  cases hit with
  | true => rfl
  | false =>
    -- A name that is no hit is none of the names.
    cases known : found infos name.text with
    | none => rfl
    | some id =>
      have missed : some false = some true := answer.symm.trans (hits name.text id known)
      simp at missed

/--
A name is looked up behind the table of first characters with the same answer as without it,
whatever names are loaded and in whatever case it is written.
-/
theorem tokenIdByName_eq_plainLookup (literal : τ) (infos : List (TokenInfo τ))
    (name : Identifier) :
    ((load infos).bind fun t => t.tokenIdByName literal name.text) =
      some (plainLookup literal infos name.text) := by
  rw [load_tokenIdByName, plainLookup_eq]

/-! ## The keywords of the scanner -/

/-- `TK_SQL_`. -/
def sqlPrefix : Bytes := [84, 75, 95, 83, 81, 76, 95]

/-- The characters of the prefix are ASCII characters. -/
theorem plain_append {s : Bytes} (plain : ∀ c ∈ s, 0 < c ∧ c < 128) :
    ∀ c ∈ sqlPrefix ++ s, 0 < c ∧ c < 128 := by
  intro c member
  rcases List.mem_append.mp member with inside | inside
  · have prefix_ : ∀ c ∈ sqlPrefix, 0 < c ∧ c < 128 := by decide +kernel
    exact prefix_ c inside
  · exact plain c inside

/-- The entries of a table of names, with the prefix before each. -/
def withPrefix : (infos : List (Bytes × τ)) → (∀ info ∈ infos, ∀ c ∈ info.1, 0 < c ∧ c < 128) →
    List (TokenInfo τ)
  | [], _ => []
  | info :: rest, plain =>
    ⟨info.2, sqlPrefix ++ info.1, plain_append (plain info List.mem_cons_self)⟩ ::
      withPrefix rest fun other member => plain other (List.mem_cons_of_mem _ member)

/-- A name is found with the prefix where it is found without. -/
theorem found_withPrefix {infos : List (Bytes × τ)}
    (plain : ∀ info ∈ infos, ∀ c ∈ info.1, 0 < c ∧ c < 128) {name : Bytes} (some_ : name ≠ []) :
    found (withPrefix infos plain) name =
      (infos.find? fun info => sameName info.1 name).map (·.2) := by
  induction infos with
  | nil => rfl
  | cons info rest ih =>
    have rest_ := ih fun other member => plain other (List.mem_cons_of_mem _ member)
    have bare : (sqlPrefix ++ info.1).drop 7 = info.1 := rfl
    by_cases same : sameName info.1 name
    · -- Only the empty name is as short as the prefix.
      have long : (sqlPrefix ++ info.1).length > 7 := by
        have differ : info.1 ≠ [] := by
          intro empty
          rw [sameName_iff, empty, List.map_nil] at same
          exact some_ (List.map_eq_nil_iff.mp same.symm)
        have positive := List.length_pos_of_ne_nil differ
        rw [List.length_append]
        show 7 + info.1.length > 7
        omega
      rw [withPrefix, found]
      simp only [List.find?_cons, bare, same, long, and_self, decide_true, Option.map_some]
    · have elsewhere : (sameName info.1 name) = false := Bool.eq_false_iff.mpr same
      rw [found] at rest_
      rw [withPrefix, found]
      simp only [List.find?_cons, bare, elsewhere, Bool.false_eq_true, and_false, decide_false]
      exact rest_

/-- The names of the keywords are made of ASCII characters. -/
theorem tokenInfos_plain : ∀ info ∈ tokenInfos, ∀ c ∈ info.1, 0 < c ∧ c < 128 := by
  decide +kernel

/-- The scanner's keywords, loaded as the constructor loads them, are looked up as keywords. -/
theorem tokenIdByName_keywords (name : Identifier) :
    ((load (withPrefix tokenInfos tokenInfos_plain)).bind fun t =>
        t.tokenIdByName .literal name.text) =
      some (Sql.tokenIdByName name.text) := by
  rw [load_tokenIdByName, found_withPrefix tokenInfos_plain name.nonempty, tokenIdByName_eq]

end TokenMap

end OneProxy.Sql
