import OneProxy.Util.Tool

/-! How far the hash of a string leaves the case of its letters out. -/

namespace OneProxy.Tool

/-- A character in lower case. -/
def lowerCase (c : UInt8) : UInt8 := if 65 ≤ c ∧ c ≤ 90 then c + 32 else c

/-- Strings of one length that differ in nothing but the case of letters. -/
def SameButCase (x y : Bytes) : Prop := x.map lowerCase = y.map lowerCase

instance (x y : Bytes) : Decidable (SameButCase x y) := inferInstanceAs (Decidable (_ = _))

/-- `y` and `z` in either case: two more than the upper-case one is no letter. -/
def Slips (c : UInt8) : Prop := lowerCase c = 121 ∨ lowerCase c = 122

instance (c : UInt8) : Decidable (Slips c) := inferInstanceAs (Decidable (_ ∨ _))

/-- What holds of the numbers below 256 holds of every character. -/
theorem forall_char {p : UInt8 → Prop} (all : ∀ n : Fin 256, p (UInt8.ofFin n)) (c : UInt8) : p c :=
  all c.toFin

/-- The macro folds the case of a character. -/
theorem tolower_ofChar (c : UInt8) : tolower (ofChar c) = ofChar (lowerCase c) :=
  forall_char (p := fun c => tolower (ofChar c) = ofChar (lowerCase c)) (by decide +kernel) c

/-- Two more than a character is folded with its case, unless it is `Y` or `Z`. -/
theorem tolower_add_two {c : UInt8} : ¬ Slips c →
    tolower (ofChar c + 2) = tolower (ofChar (lowerCase c) + 2) :=
  forall_char (p := fun c => ¬ Slips c →
    tolower (ofChar c + 2) = tolower (ofChar (lowerCase c) + 2)) (by decide +kernel) c

theorem upper_slips {c : UInt8} : Slips c → c = lowerCase c ∨ c = lowerCase c - 32 ∧
    tolower (ofChar (lowerCase c) + 2) = tolower (ofChar c + 2) + 32 :=
  forall_char (p := fun c => Slips c → c = lowerCase c ∨ c = lowerCase c - 32 ∧
    tolower (ofChar (lowerCase c) + 2) = tolower (ofChar c + 2) + 32) (by decide +kernel) c

/-- Two more than `Y` and two more than `Z` stay 32 less than for the letter in lower case. -/
theorem tolower_apart {c c' : UInt8} (same : lowerCase c = lowerCase c') (slips : Slips c)
    (differ : c ≠ c') : tolower (ofChar c + 2) = tolower (ofChar c' + 2) + 32 ∨
      tolower (ofChar c' + 2) = tolower (ofChar c + 2) + 32 := by
  have slips' : Slips c' := by rwa [Slips, ← same]
  -- One of both is the letter in lower case, and the other is not.
  rcases upper_slips slips with lower | ⟨upper, less⟩
  · rcases upper_slips slips' with lower' | ⟨_, less'⟩
    · exact absurd (by rw [lower, same, ← lower']) differ
    · rw [← same, ← lower] at less'
      exact Or.inl less'
  · rcases upper_slips slips' with lower' | ⟨upper', _⟩
    · rw [same, ← lower'] at less
      exact Or.inr less
    · exact absurd (by rw [upper, same, ← upper']) differ

/-! ## A group of four -/

/-- What the main loop makes of a group of four, whose third character it does not read. -/
def hashGroup (hash : UInt32) (a b d : UInt8) : UInt32 :=
  let hash := hash + get16bits (ofChar a) (ofChar b)
  let tmp := (get16bits (ofChar a + 2) (ofChar d) <<< 11) ^^^ hash
  let hash := (hash <<< 16) ^^^ tmp
  hash + (hash >>> 11)

theorem hashLoop_group (hash : UInt32) (a b c d : UInt8) (rest : Bytes) :
    hashLoop hash (a :: b :: c :: d :: rest) = hashLoop (hashGroup hash a b d) rest := rfl

theorem get16bits_congr {a a' b b' : UInt8} (first : lowerCase a = lowerCase a')
    (second : lowerCase b = lowerCase b') :
    get16bits (ofChar a) (ofChar b) = get16bits (ofChar a') (ofChar b') := by
  rw [get16bits, get16bits, tolower_ofChar, tolower_ofChar, tolower_ofChar, tolower_ofChar, first,
    second]

/-- Words that agree in their lower 24 bits are told apart by what the shift by 11 adds to them. -/
theorem add_shiftRight_inj {x y : UInt32} (low : x.toNat % 16777216 = y.toNat % 16777216)
    (same : x + (x >>> 11) = y + (y >>> 11)) : x = y := by
  have values := congrArg UInt32.toNat same
  simp only [UInt32.toNat_add, UInt32.toNat_shiftRight, UInt32.reduceToNat, Nat.reduceMod,
    Nat.shiftRight_eq_div_pow] at values
  have first := x.toNat_lt
  have second := y.toNat_lt
  apply UInt32.toNat_inj.mp
  omega

/-- Words that differ by the bit 24 stay different when a group mixes them. -/
theorem mixed_apart (g h v : UInt32) :
    let word := fun v => g ^^^ (v ^^^ h)
    word v + (word v >>> 11) ≠ word (v + 16777216) + (word (v + 16777216) >>> 11) := by
  intro word same
  have value : (v + 16777216).toNat = (v.toNat + 16777216) % 2 ^ 32 := by
    simp only [UInt32.toNat_add, UInt32.reduceToNat]
  have kept : v.toNat % 2 ^ 24 = (v + 16777216).toNat % 2 ^ 24 := by omega
  have low : (word v).toNat % 2 ^ 24 = (word (v + 16777216)).toNat % 2 ^ 24 := by
    rw [UInt32.toNat_xor, UInt32.toNat_xor, UInt32.toNat_xor, UInt32.toNat_xor,
      Nat.xor_mod_two_pow, Nat.xor_mod_two_pow, Nat.xor_mod_two_pow, Nat.xor_mod_two_pow, kept]
  have equal := (UInt32.xor_left_inj h).mp
    ((UInt32.xor_right_inj g).mp (add_shiftRight_inj low same))
  have bound := v.toNat_lt
  rw [← equal] at value
  omega

/-- Numbers that differ by 32 differ by the bit 24 when they are shifted with the fourth letter. -/
theorem shifted_apart (u t : UInt32) :
    (256 * (u + 32) + t) <<< 11 = ((256 * u + t) <<< 11) + 16777216 := by
  apply UInt32.toNat_inj.mp
  simp only [UInt32.toNat_shiftLeft, UInt32.toNat_add, UInt32.toNat_mul, UInt32.reduceToNat,
    Nat.reduceMod, Nat.shiftLeft_eq]
  omega

/-- From one value, the groups of two strings give one value if the first letters do not slip. -/
theorem hashGroup_eq_iff (hash : UInt32) {a a' b b' d d' : UInt8}
    (first : lowerCase a = lowerCase a')
    (second : lowerCase b = lowerCase b') (fourth : lowerCase d = lowerCase d') :
    hashGroup hash a b d = hashGroup hash a' b' d' ↔ (a ≠ a' → ¬ Slips a) := by
  have kept : Slips a ↔ Slips a' := by rw [Slips, Slips, first]
  rw [hashGroup, hashGroup, get16bits_congr first second]
  simp only [get16bits, tolower_ofChar, fourth]
  by_cases slips : Slips a
  · constructor
    · intro same differ
      exfalso
      rcases tolower_apart first slips differ with more | less
      · rw [more, shifted_apart] at same
        exact mixed_apart _ _ _ same.symm
      · rw [less, shifted_apart] at same
        exact mixed_apart _ _ _ same
    · intro harmless
      have equal : a = a' := by
        by_contra differ
        exact harmless differ slips
      rw [equal]
  · have folded : tolower (ofChar a + 2) = tolower (ofChar a' + 2) := by
      rw [tolower_add_two slips, tolower_add_two (fun slips' => slips (kept.mpr slips')), first]
    rw [folded]
    exact ⟨fun _ _ => slips, fun _ => rfl⟩

/-! ## Whole strings -/

/-- The characters that `quick_hash_code` reads: none if the length is no positive `int`. -/
def hashed (data : Bytes) : Bytes :=
  let tlen := data.length % 0x100000000
  if tlen = 0 ∨ 0x80000000 ≤ tlen then [] else data.take tlen

/-- The values of the hash behind each whole group of four. -/
def groupHashes (hash : UInt32) : Bytes → List UInt32
  | a :: b :: _ :: d :: rest => hashGroup hash a b d :: groupHashes (hashGroup hash a b d) rest
  | _ => []

/-- The values that the main loop of `quick_hash_code` goes through. -/
def loopHashes (data : Bytes) : List UInt32 :=
  groupHashes (UInt32.ofNat (data.length % 0x100000000)) (hashed data)

/--
No whole group of four begins with a `y` or a `z` that is in another case in the other string.
-/
def StartsAgree (x y : Bytes) : Prop :=
  ∀ i, 4 * i + 4 ≤ x.length → x[4 * i]? ≠ y[4 * i]? → ∀ c ∈ x[4 * i]?, ¬ Slips c

theorem sameButCase_nil {y : Bytes} (same : SameButCase [] y) : y = [] :=
  List.map_eq_nil_iff.mp same.symm

theorem sameButCase_cons {c : UInt8} {x y : Bytes} (same : SameButCase (c :: x) y) :
    ∃ c' y', y = c' :: y' ∧ lowerCase c = lowerCase c' ∧ SameButCase x y' := by
  obtain ⟨c', y', rfl, letter, rest⟩ := List.map_eq_cons_iff.mp (Eq.symm same)
  exact ⟨c', y', rfl, letter.symm, rest.symm⟩

/-- The groups agree where the first one does and all others do. -/
theorem startsAgree_group {a b c d a' b' c' d' : UInt8} {x y : Bytes} :
    StartsAgree (a :: b :: c :: d :: x) (a' :: b' :: c' :: d' :: y) ↔
      (a ≠ a' → ¬ Slips a) ∧ StartsAgree x y := by
  constructor
  · intro agree
    constructor
    · intro differ
      exact agree 0 (by simp) (by simpa using differ) a rfl
    · intro i whole
      exact agree (i + 1) (by simp only [List.length_cons]; omega)
  · rintro ⟨first, rest⟩ i whole differ e there
    cases i with
    | zero =>
      cases there
      exact first (by simpa using differ)
    | succ i => exact rest i (by simp only [List.length_cons] at whole; omega) differ e there

/-- A string that has no whole group agrees with every other. -/
theorem startsAgree_short {x : Bytes} (short : x.length < 4) (y : Bytes) : StartsAgree x y :=
  fun i whole => absurd whole (by omega)

theorem sameButCase_length {x y : Bytes} (same : SameButCase x y) : x.length = y.length := by
  simpa using congrArg List.length same

theorem groupHashes_short {x : Bytes} (hash : UInt32) (short : x.length < 4) :
    groupHashes hash x = [] := by
  rcases x with _ | ⟨a, _ | ⟨b, _ | ⟨c, _ | ⟨d, rest⟩⟩⟩⟩
  · rfl
  · rfl
  · rfl
  · rfl
  · simp only [List.length_cons] at short
    omega

/-- The loop goes through the same values exactly if the groups agree. -/
theorem groupHashes_eq_iff (hash : UInt32) (x : Bytes) : ∀ y, SameButCase x y →
    (groupHashes hash x = groupHashes hash y ↔ StartsAgree x y) := by
  induction hash, x using groupHashes.induct with
  | case1 hash a b c d rest ih =>
    intro y same
    obtain ⟨a', y, rfl, first, same⟩ := sameButCase_cons same
    obtain ⟨b', y, rfl, second, same⟩ := sameButCase_cons same
    obtain ⟨c', y, rfl, third, same⟩ := sameButCase_cons same
    obtain ⟨d', y, rfl, fourth, same⟩ := sameButCase_cons same
    rw [startsAgree_group, ← ih y same, ← hashGroup_eq_iff hash first second fourth, groupHashes,
      groupHashes, List.cons.injEq]
    exact and_congr_right fun group => by rw [group]
  | case2 x hash notGroup =>
    intro y same
    have short : x.length < 4 := by
      rcases x with _ | ⟨a, _ | ⟨b, _ | ⟨c, _ | ⟨d, rest⟩⟩⟩⟩
      · exact Nat.zero_lt_succ 3
      · exact Nat.lt_of_sub_eq_succ rfl
      · exact Nat.lt_of_sub_eq_succ rfl
      · exact Nat.lt_of_sub_eq_succ rfl
      · exact absurd rfl (notGroup a b c d rest)
    rw [groupHashes_short hash short, groupHashes_short hash (by rwa [← sameButCase_length same])]
    exact iff_of_true rfl (startsAgree_short short y)

/-- The loop and the end cases give the same if the groups agree. -/
theorem hashLoop_eq (hash : UInt32) (x : Bytes) : ∀ y, SameButCase x y → StartsAgree x y →
    hashLoop hash x = hashLoop hash y := by
  induction hash, x using hashLoop.induct with
  | case1 hash a b c d rest _ _ _ ih =>
    intro y same agree
    obtain ⟨a', y, rfl, first, same⟩ := sameButCase_cons same
    obtain ⟨b', y, rfl, second, same⟩ := sameButCase_cons same
    obtain ⟨c', y, rfl, third, same⟩ := sameButCase_cons same
    obtain ⟨d', y, rfl, fourth, same⟩ := sameButCase_cons same
    obtain ⟨start, agree⟩ := startsAgree_group.mp agree
    rw [hashLoop_group, hashLoop_group, ← (hashGroup_eq_iff hash first second fourth).mpr start]
    exact ih y same agree
  | case2 hash a b c =>
    intro y same _
    obtain ⟨a', y, rfl, first, same⟩ := sameButCase_cons same
    obtain ⟨b', y, rfl, second, same⟩ := sameButCase_cons same
    obtain ⟨c', y, rfl, third, same⟩ := sameButCase_cons same
    rw [sameButCase_nil same, hashLoop, hashLoop, get16bits_congr first second, tolower_ofChar,
      tolower_ofChar, third]
  | case3 hash a b =>
    intro y same _
    obtain ⟨a', y, rfl, first, same⟩ := sameButCase_cons same
    obtain ⟨b', y, rfl, second, same⟩ := sameButCase_cons same
    rw [sameButCase_nil same, hashLoop, hashLoop, get16bits_congr first second]
  | case4 hash a =>
    intro y same _
    obtain ⟨a', y, rfl, first, same⟩ := sameButCase_cons same
    rw [sameButCase_nil same, hashLoop, hashLoop, tolower_ofChar, tolower_ofChar, first]
  | case5 hash =>
    intro y same _
    rw [sameButCase_nil same]

/-- What is hashed of strings that differ in the case of letters differs in nothing else. -/
theorem sameButCase_hashed {x y : Bytes} (same : SameButCase x y) :
    SameButCase (hashed x) (hashed y) := by
  rw [hashed, hashed, sameButCase_length same]
  split_ifs
  · rfl
  · rw [SameButCase, List.map_take, List.map_take, same]

/--
`quick_hash_code` gives one hash to strings that differ only in the case of letters if no whole
group of four begins with a `y` or a `z` in different cases, and exactly then its main loop goes
through the same values for both.
-/
theorem quickHashCode_case_iff (x y : Bytes) (same : SameButCase x y) :
    (StartsAgree (hashed x) (hashed y) → quickHashCode x = quickHashCode y) ∧
      (loopHashes x = loopHashes y ↔ StartsAgree (hashed x) (hashed y)) := by
  have kept := sameButCase_hashed same
  constructor
  · intro agree
    have loops := hashLoop_eq (UInt32.ofNat (x.length % 0x100000000)) _ _ kept agree
    rw [quickHashCode, quickHashCode, ← sameButCase_length same]
    rw [hashed, hashed, ← sameButCase_length same] at loops
    split_ifs with negative
    · rfl
    · rw [if_neg negative, if_neg negative] at loops
      rw [loops]
  · rw [loopHashes, loopHashes, ← sameButCase_length same]
    exact groupHashes_eq_iff _ _ _ kept

/-- `SELEct` and `select` have one hash: their only whole group begins with an `s`. -/
theorem quickHashCode_case_select : quickHashCode [83, 69, 76, 69, 99, 116] =
    quickHashCode [115, 101, 108, 101, 99, 116] := by
  refine (quickHashCode_case_iff _ _ (by decide)).1 fun i whole _ c there => ?_
  have length : (hashed [83, 69, 76, 69, 99, 116]).length = 6 := by decide
  obtain rfl : i = 0 := by omega
  have start : (hashed [83, 69, 76, 69, 99, 116])[4 * 0]? = some 83 := by decide
  rw [start] at there
  cases there
  decide

/--
`Yaaa` and `yaaa` have different hashes: 91 is left as it is where the letter is `Y`, and 123 where
it is `y`.
-/
theorem quickHashCode_case_slips : SameButCase [89, 97, 97, 97] [121, 97, 97, 97] ∧
    quickHashCode [89, 97, 97, 97] ≠ quickHashCode [121, 97, 97, 97] := by
  decide

/--
Different values on the way may still end in one hash: `YvovypqtYwklykolu` and `yvovYpqtywklYkolu`
have the same.
-/
theorem quickHashCode_collides :
    quickHashCode [89, 118, 111, 118, 121, 112, 113, 116, 89, 119, 107, 108, 121, 107,
      111, 108, 117] =
      quickHashCode
        [121, 118, 111, 118, 89, 112, 113, 116, 121, 119, 107, 108, 89, 107, 111, 108, 117] := by
  decide

end OneProxy.Tool
