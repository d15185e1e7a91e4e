import Mathlib.Data.List.Basic
import Mathlib.Data.List.Chain
import Mathlib.Data.List.MinMax

/-! Patterns over characters, the longest match, and the first rule that has it. -/

namespace Lexing

variable {α ρ : Type*}

/-- What a rule looks for: characters of a class, behind and beside each other. -/
inductive Pattern (α : Type*)
  /-- No character. -/
  | nothing
  /-- One character of a class. -/
  | one (class_ : α → Bool)
  /-- Any number of characters of a class. -/
  | many (class_ : α → Bool)
  | seq (first second : Pattern α)
  | alt (left right : Pattern α)

namespace Pattern

/-- One character, or none at all. -/
def optional (p : Pattern α) : Pattern α := .alt p .nothing

/-- At least one character of a class. -/
def some_ (class_ : α → Bool) : Pattern α := .seq (.one class_) (.many class_)

/-- The same characters. -/
def text [DecidableEq α] : List α → Pattern α
  | [] => .nothing
  | [c] => .one (· = c)
  | c :: cs => .seq (.one (· = c)) (text cs)

end Pattern

/-- The texts that a pattern stands for. -/
inductive Matches : Pattern α → List α → Prop
  | nothing : Matches .nothing []
  | one {class_ : α → Bool} {c : α} : class_ c = true → Matches (.one class_) [c]
  | many {class_ : α → Bool} {cs : List α} : (∀ c ∈ cs, class_ c = true) →
      Matches (.many class_) cs
  | seq {first second : Pattern α} {u v : List α} : Matches first u → Matches second v →
      Matches (.seq first second) (u ++ v)
  | left {left right : Pattern α} {u : List α} : Matches left u → Matches (.alt left right) u
  | right {left right : Pattern α} {u : List α} : Matches right u → Matches (.alt left right) u

/-- The lengths of the beginnings of a text that a pattern stands for. -/
def ends : Pattern α → List α → List Nat
  | .nothing, _ => [0]
  | .one _, [] => []
  | .one class_, c :: _ => if class_ c then [1] else []
  | .many class_, text => List.range ((text.takeWhile class_).length + 1)
  | .seq first second, text =>
    (ends first text).flatMap fun n => (ends second (text.drop n)).map (n + ·)
  | .alt left right, text => ends left text ++ ends right text

/-- A beginning that consists of characters of a class is within the first run of them. -/
theorem all_take_iff {class_ : α → Bool} {text : List α} {n : Nat} :
    n ≤ (text.takeWhile class_).length ↔ n ≤ text.length ∧ ∀ c ∈ text.take n, class_ c = true := by
  induction text generalizing n with
  | nil => simp
  | cons c text ih =>
    cases n with
    | zero => simp
    | succ n =>
      by_cases inside : class_ c
      · simp [inside, ih]
      · simp [inside]

/-- The lengths are those of the matches. -/
theorem mem_ends_iff {p : Pattern α} {text : List α} {n : Nat} :
    n ∈ ends p text ↔ n ≤ text.length ∧ Matches p (text.take n) := by
  induction p generalizing text n with
  | nothing =>
    simp only [ends, List.mem_singleton]
    constructor
    · rintro rfl
      exact ⟨Nat.zero_le _, by rw [List.take_zero]; exact .nothing⟩
    · rintro ⟨le, matched⟩
      generalize same : text.take n = front at matched
      cases matched
      have length := congrArg List.length same
      rw [List.length_take, Nat.min_eq_left le] at length
      exact length
  | one class_ =>
    constructor
    · intro member
      cases text with
      | nil => exact absurd member List.not_mem_nil
      | cons c text =>
        rw [ends] at member
        split at member
        · obtain rfl := List.mem_singleton.mp member
          exact ⟨by simp, by simpa using .one ‹_›⟩
        · exact absurd member List.not_mem_nil
    · rintro ⟨le, matched⟩
      generalize same : text.take n = front at matched
      cases matched with
      | @one _ c inside =>
        have length := congrArg List.length same
        rw [List.length_take, Nat.min_eq_left le] at length
        cases text with
        | nil => simp at same
        | cons d text =>
          obtain rfl : n = 1 := length
          obtain rfl : d = c := by simpa using same
          simp [ends, inside]
  | many class_ =>
    rw [ends, List.mem_range, Nat.lt_succ_iff, all_take_iff]
    refine and_congr_right fun _ => ⟨.many, fun matched => ?_⟩
    generalize same : text.take n = front at matched
    cases matched with
    | many inside => exact inside
  | seq first second ihFirst ihSecond =>
    simp only [ends, List.mem_flatMap, List.mem_map]
    constructor
    · rintro ⟨k, front, m, back, rfl⟩
      obtain ⟨le, matched⟩ := ihFirst.mp front
      obtain ⟨le', matched'⟩ := ihSecond.mp back
      rw [List.length_drop] at le'
      refine ⟨by omega, ?_⟩
      rw [List.take_add]
      exact .seq matched matched'
    · rintro ⟨le, matched⟩
      generalize same : text.take n = front at matched
      cases matched with
      | @seq _ _ u v matched matched' =>
        -- The text begins with the two parts of the match.
        have text_eq : text = u ++ (v ++ text.drop n) := by
          rw [← List.append_assoc, ← same, List.take_append_drop]
        have length := congrArg List.length same
        rw [List.length_take, Nat.min_eq_left le, List.length_append] at length
        have taken : text.take u.length = u := by rw [text_eq]; simp
        have rest : (text.drop u.length).take v.length = v := by rw [text_eq]; simp
        refine ⟨u.length, ihFirst.mpr ⟨by omega, by rwa [taken]⟩, v.length,
          ihSecond.mpr ⟨by rw [List.length_drop]; omega, by rwa [rest]⟩, length.symm⟩
  | alt left right ihLeft ihRight =>
    rw [ends, List.mem_append, ihLeft, ihRight, ← and_or_left]
    refine and_congr_right fun _ => ?_
    constructor
    · rintro (matched | matched)
      · exact .left matched
      · exact .right matched
    · intro matched
      generalize same : text.take n = front at matched
      cases matched with
      | left matched => exact Or.inl matched
      | right matched => exact Or.inr matched

/-- The length of the longest match at the beginning of a text. -/
def longest (p : Pattern α) (text : List α) : Option Nat := (ends p text).max?

/-- The rule with the longest match and its length; the first one of several. -/
def pick : List (Pattern α × ρ) → List α → Option (ρ × Nat)
  | [], _ => none
  | (p, rule) :: rules, text =>
    match longest p text, pick rules text with
    | none, later => later
    | some n, none => some (rule, n)
    | some n, some (rule', m) => if n < m then some (rule', m) else some (rule, n)

/-- Nothing is picked exactly if no rule matches. -/
theorem pick_eq_none_iff {rules : List (Pattern α × ρ)} {text : List α} :
    pick rules text = none ↔ ∀ p ∈ rules, ends p.1 text = [] := by
  -- The first rule is picked, or a later one with a longer match.
  induction rules with
  | nil => simp [pick]
  | cons p rules ih =>
    obtain ⟨p, rule⟩ := p
    rw [List.forall_mem_cons, ← ih, pick]
    cases found : longest p text with
    | none =>
      have none_ : ends p text = [] := List.max?_eq_none_iff.mp found
      simp [none_]
    | some n =>
      have some_ : ends p text ≠ [] := fun none_ => by
        rw [longest, none_] at found
        exact absurd found (by simp)
      cases pick rules text with
      | none => simp [some_]
      | some later =>
        simp only [some_, false_and, iff_false]
        split <;> simp

/-- What is picked matches, and nothing matches more. -/
theorem pick_spec {rules : List (Pattern α × ρ)} {text : List α} {rule : ρ} {n : Nat}
    (picked : pick rules text = some (rule, n)) :
    (∃ p, (p, rule) ∈ rules ∧ n ∈ ends p text) ∧ ∀ p ∈ rules, ∀ m ∈ ends p.1 text, m ≤ n := by
  induction rules generalizing rule n with
  | nil => exact absurd picked (by simp [pick])
  | cons p rules ih =>
    obtain ⟨p, own⟩ := p
    rw [pick] at picked
    cases found : longest p text with
    | none =>
      rw [found] at picked
      have none_ : ends p text = [] := List.max?_eq_none_iff.mp found
      obtain ⟨⟨q, member, there⟩, most⟩ := ih picked
      refine ⟨⟨q, List.mem_cons_of_mem _ member, there⟩, List.forall_mem_cons.mpr ⟨?_, most⟩⟩
      simp [none_]
    | some k =>
      rw [found] at picked
      obtain ⟨there, most⟩ := List.max?_eq_some_iff.mp found
      cases later : pick rules text with
      | none =>
        rw [later] at picked
        simp only [Option.some.injEq, Prod.mk.injEq] at picked
        obtain ⟨rfl, rfl⟩ := picked
        have others := pick_eq_none_iff.mp later
        refine ⟨⟨p, List.mem_cons_self, there⟩, List.forall_mem_cons.mpr ⟨most, ?_⟩⟩
        intro q member m inside
        rw [others q member] at inside
        exact absurd inside List.not_mem_nil
      | some other =>
        obtain ⟨rule', m⟩ := other
        rw [later] at picked
        obtain ⟨⟨q, member, there'⟩, most'⟩ := ih later
        -- The earlier rule gives way only to a longer match.
        by_cases longer : k < m
        · simp only [if_pos longer, Option.some.injEq, Prod.mk.injEq] at picked
          obtain ⟨rfl, rfl⟩ := picked
          exact ⟨⟨q, List.mem_cons_of_mem _ member, there'⟩, List.forall_mem_cons.mpr
            ⟨fun j inside => Nat.le_trans (most j inside) (Nat.le_of_lt longer), most'⟩⟩
        · simp only [if_neg longer, Option.some.injEq, Prod.mk.injEq] at picked
          obtain ⟨rfl, rfl⟩ := picked
          exact ⟨⟨p, List.mem_cons_self, there⟩, List.forall_mem_cons.mpr
            ⟨most, fun q member j inside =>
              Nat.le_trans (most' q member j inside) (Nat.le_of_not_lt longer)⟩⟩

/-! ## Texts of a pattern -/

/-- The empty pattern matches nothing but the empty text. -/
@[simp] theorem matches_nothing {text : List α} : Matches .nothing text ↔ text = [] := by
  constructor
  · intro matched
    cases matched
    rfl
  · rintro rfl
    exact .nothing

/-- One byte matches if it is one of the class. -/
@[simp] theorem matches_one {class_ : α → Bool} {text : List α} :
    Matches (.one class_) text ↔ ∃ c, class_ c = true ∧ text = [c] := by
  constructor
  · intro matched
    cases matched with
    | one inside => exact ⟨_, inside, rfl⟩
  · rintro ⟨c, inside, rfl⟩
    exact .one inside

/-- A repeated class matches bytes of the class. -/
@[simp] theorem matches_many {class_ : α → Bool} {text : List α} :
    Matches (.many class_) text ↔ ∀ c ∈ text, class_ c = true := by
  constructor
  · intro matched
    cases matched with
    | many inside => exact inside
  · exact .many

/-- A sequence matches a text cut in two. -/
@[simp] theorem matches_seq {first second : Pattern α} {text : List α} :
    Matches (.seq first second) text ↔
      ∃ u v, text = u ++ v ∧ Matches first u ∧ Matches second v := by
  constructor
  · intro matched
    cases matched with
    | seq matched matched' => exact ⟨_, _, rfl, matched, matched'⟩
  · rintro ⟨u, v, rfl, matched, matched'⟩
    exact .seq matched matched'

/-- An alternative matches what one of its sides does. -/
@[simp] theorem matches_alt {left right : Pattern α} {text : List α} :
    Matches (.alt left right) text ↔ Matches left text ∨ Matches right text := by
  constructor
  · intro matched
    cases matched with
    | left matched => exact Or.inl matched
    | right matched => exact Or.inr matched
  · rintro (matched | matched)
    · exact .left matched
    · exact .right matched

/-- A fixed text matches itself only. -/
@[simp] theorem matches_text [DecidableEq α] {cs text : List α} :
    Matches (.text cs) text ↔ text = cs := by
  -- A text of two bytes or more is its first byte and then the others.
  induction cs generalizing text with
  | nil => exact matches_nothing
  | cons c cs ih =>
    cases cs with
    | nil => simp [Pattern.text]
    | cons d cs =>
      have same : Pattern.text (c :: d :: cs) = .seq (.one (· = c)) (.text (d :: cs)) := by
        simp [Pattern.text]
      rw [same, matches_seq]
      constructor
      · rintro ⟨u, v, rfl, matched, matched'⟩
        obtain ⟨c', same, rfl⟩ := matches_one.mp matched
        rw [ih.mp matched', of_decide_eq_true same]
        rfl
      · rintro rfl
        exact ⟨[c], d :: cs, rfl, .one (by simp), ih.mpr rfl⟩

/-- A class repeated at least once matches one byte and then others. -/
@[simp] theorem matches_some_ {class_ : α → Bool} {text : List α} :
    Matches (.some_ class_) text ↔ text ≠ [] ∧ ∀ c ∈ text, class_ c = true := by
  rw [Pattern.some_, matches_seq]
  constructor
  · rintro ⟨u, v, rfl, matched, matched'⟩
    obtain ⟨c, inside, rfl⟩ := matches_one.mp matched
    exact ⟨List.cons_ne_nil _ _, List.forall_mem_cons.mpr ⟨inside, matches_many.mp matched'⟩⟩
  · rintro ⟨some_, inside⟩
    obtain ⟨c, rest, rfl⟩ := List.exists_cons_of_ne_nil some_
    obtain ⟨first, later⟩ := List.forall_mem_cons.mp inside
    exact ⟨[c], rest, rfl, .one first, .many later⟩

/-- The number of characters of a pattern that always has as many. -/
def Pattern.width : Pattern α → Option Nat
  | .nothing => some 0
  | .one _ => some 1
  | .many _ => none
  | .seq first second => (width first).bind fun n => (width second).map (n + ·)
  | .alt left right => if width left = width right then width left else none

/-- Where all matches have one length, each of them has it. -/
theorem Matches.length_eq {p : Pattern α} {text : List α} (matched : Matches p text) {n : Nat}
    (width : p.width = some n) : text.length = n := by
  -- The cases are those of the match; a repetition has no fixed width.
  induction matched generalizing n with
  | nothing => exact Option.some.inj width
  | one => exact Option.some.inj width
  | many => exact absurd width (by simp [Pattern.width])
  | seq _ _ ih ih' =>
    obtain ⟨k, first, rest⟩ := Option.bind_eq_some_iff.mp width
    obtain ⟨m, second, rfl⟩ := Option.map_eq_some_iff.mp rest
    rw [List.length_append, ih first, ih' second]
  | left _ ih =>
    rw [Pattern.width] at width
    split at width
    · exact ih width
    · exact absurd width (by simp)
  | right _ ih =>
    rw [Pattern.width] at width
    split at width
    · rename_i same
      exact ih (same ▸ width)
    · exact absurd width (by simp)

/-- A rule that takes all of a text makes some rule be picked that does. -/
theorem pick_whole {rules : List (Pattern α × ρ)} {text : List α} {p : Pattern α × ρ}
    (member : p ∈ rules) (whole : Matches p.1 text) : ∃ q ∈ rules,
      pick rules text = some (q.2, text.length) ∧ Matches q.1 text := by
  have inside : text.length ∈ ends p.1 text :=
    mem_ends_iff.mpr ⟨Nat.le_refl _, by rwa [List.take_length]⟩
  cases found : pick rules text with
  | none =>
    rw [pick_eq_none_iff.mp found p member] at inside
    exact absurd inside List.not_mem_nil
  | some picked =>
    obtain ⟨rule, n⟩ := picked
    obtain ⟨⟨q, there, ends_⟩, most⟩ := pick_spec found
    obtain ⟨le, matched⟩ := mem_ends_iff.mp ends_
    -- What is picked is as long as the whole text, since the whole text matches.
    obtain rfl := Nat.le_antisymm le (most p member _ inside)
    rw [List.take_length] at matched
    exact ⟨(q, rule), there, rfl, matched⟩

/-! ## What may stand beside each other -/

namespace Pattern

/-- Whether a pattern may stand for no text at all. -/
def nullable : Pattern α → Bool
  | .nothing | .many _ => true
  | .one _ => false
  | .seq first second => nullable first && nullable second
  | .alt left right => nullable left || nullable right

/-- Whether a text of a pattern may begin with a character. -/
def starts : Pattern α → α → Bool
  | .nothing, _ => false
  | .one class_, c | .many class_, c => class_ c
  | .seq first second, c => starts first c || nullable first && starts second c
  | .alt left right, c => starts left c || starts right c

/-- Whether a text of a pattern may end with a character. -/
def finishes : Pattern α → α → Bool
  | .nothing, _ => false
  | .one class_, c | .many class_, c => class_ c
  | .seq first second, c => finishes second c || nullable second && finishes first c
  | .alt left right, c => finishes left c || finishes right c

/-- Whether a text of a pattern may have a character directly behind another one. -/
def beside : Pattern α → α → α → Bool
  | .nothing, _, _ | .one _, _, _ => false
  | .many class_, c, d => class_ c && class_ d
  | .seq first second, c, d =>
    beside first c d || beside second c d || finishes first c && starts second d
  | .alt left right, c, d => beside left c d || beside right c d

end Pattern

/-- Only what is nullable stands for no text. -/
theorem Matches.nullable {p : Pattern α} {text : List α} (matched : Matches p text)
    (empty : text = []) : p.nullable = true := by
  induction matched with
  | nothing => rfl
  | one => exact absurd empty (List.cons_ne_nil _ _)
  | many => rfl
  | seq _ _ ih ih' =>
    obtain ⟨none, none'⟩ := List.append_eq_nil_iff.mp empty
    simp [Pattern.nullable, ih none, ih' none']
  | left _ ih => simp [Pattern.nullable, ih empty]
  | right _ ih => simp [Pattern.nullable, ih empty]

/-- A match begins with a byte its pattern may start with. -/
theorem Matches.starts {p : Pattern α} {text : List α} (matched : Matches p text) :
    ∀ c ∈ text.head?, p.starts c = true := by
  induction matched with
  | nothing => simp
  | one inside => simpa [Pattern.starts] using inside
  | @many class_ cs inside =>
    exact fun c first => inside c (List.mem_of_mem_head? first)
  | @seq _ _ u v matched _ ih ih' =>
    intro c first
    rw [Pattern.starts]
    -- A sequence starts with its second part where the first is empty.
    cases u with
    | nil => simp [matched.nullable rfl, ih' c first]
    | cons d u => simp [ih c first]
  | left _ ih => exact fun c first => by simp [Pattern.starts, ih c first]
  | right _ ih => exact fun c first => by simp [Pattern.starts, ih c first]

/-- A match ends with a byte its pattern may finish with. -/
theorem Matches.finishes {p : Pattern α} {text : List α} (matched : Matches p text) :
    ∀ c ∈ text.getLast?, p.finishes c = true := by
  induction matched with
  | nothing => simp
  | one inside => simpa [Pattern.finishes] using inside
  | @many class_ cs inside =>
    exact fun c last => inside c (List.mem_of_getLast? last)
  | @seq _ _ u v _ matched ih ih' =>
    intro c last
    rw [Pattern.finishes]
    -- And finishes with its first part where the second is empty.
    by_cases empty : v = []
    · subst empty
      rw [List.append_nil] at last
      simp [matched.nullable rfl, ih c last]
    · rw [List.getLast?_append_of_ne_nil _ empty] at last
      simp [ih' c last]
  | left _ ih => exact fun c last => by simp [Pattern.finishes, ih c last]
  | right _ ih => exact fun c last => by simp [Pattern.finishes, ih c last]

/-- The characters of a match stand beside each other as the pattern allows it. -/
theorem Matches.isChain {p : Pattern α} {text : List α} (matched : Matches p text) :
    text.IsChain fun c d => p.beside c d = true := by
  induction matched with
  | nothing => exact List.IsChain.nil
  | one => exact List.IsChain.singleton _
  | @many class_ cs inside =>
    -- Any two characters of the class may.
    refine List.Pairwise.isChain (List.pairwise_of_forall_mem_list fun c here d there => ?_)
    simp [Pattern.beside, inside c here, inside d there]
  | @seq _ _ u v matched matched' ih ih' =>
    refine List.isChain_append.mpr ⟨?_, ?_, fun c last d first => ?_⟩
    · exact ih.imp fun c d beside => by simp [Pattern.beside, beside]
    · exact ih'.imp fun c d beside => by simp [Pattern.beside, beside]
    · simp [Pattern.beside, matched.finishes c last, matched'.starts d first]
  | left _ ih => exact ih.imp fun c d beside => by simp [Pattern.beside, beside]
  | right _ ih => exact ih.imp fun c d beside => by simp [Pattern.beside, beside]

/-- No match goes on where the pattern does not let one character follow the other. -/
theorem le_of_apart {p : Pattern α} {front back : List α} {n : Nat} (some_ : front ≠ [])
    (apart : ∀ c ∈ front.getLast?, ∀ d ∈ back.head?, p.beside c d = false)
    (inside : n ∈ ends p (front ++ back)) : n ≤ front.length := by
  obtain ⟨le, matched⟩ := mem_ends_iff.mp inside
  by_contra longer
  -- The match would have the first character of what is behind.
  rw [List.length_append] at le
  rw [List.take_append, List.take_of_length_le (by omega)] at matched
  have chain := (List.isChain_append.mp matched.isChain).2.2
  cases back with
  | nil =>
    rw [List.length_nil] at le
    omega
  | cons d back =>
    obtain ⟨c, last⟩ := Option.ne_none_iff_exists'.mp (mt List.getLast?_eq_none_iff.mp some_)
    have first : d ∈ ((d :: back).take (n - front.length)).head? := by
      obtain ⟨k, more⟩ : ∃ k, n - front.length = k + 1 := ⟨n - front.length - 1, by omega⟩
      rw [more]
      rfl
    have allowed := chain c last d first
    rw [apart c last d rfl] at allowed
    exact absurd allowed Bool.false_ne_true

/-- The matches within the front part do not depend on what is behind it. -/
theorem mem_ends_append {p : Pattern α} {front back : List α} {n : Nat} (le : n ≤ front.length) :
    n ∈ ends p (front ++ back) ↔ n ∈ ends p front := by
  rw [mem_ends_iff, mem_ends_iff, List.take_append_of_le_length le, List.length_append]
  exact and_congr_left fun _ => iff_of_true (by omega) le

/-- What is picked does not depend on what no match goes on to. -/
theorem pick_append {rules : List (Pattern α × ρ)} {front back : List α}
    (within : ∀ p ∈ rules, ∀ n ∈ ends p.1 (front ++ back), n ≤ front.length) :
    pick rules (front ++ back) = pick rules front := by
  -- Rule by rule the longest match is the same.
  induction rules with
  | nil => rfl
  | cons p rules ih =>
    obtain ⟨p, rule⟩ := p
    obtain ⟨first, later⟩ := List.forall_mem_cons.mp within
    have same : longest p (front ++ back) = longest p front := by
      have members : ∀ n, n ∈ ends p (front ++ back) ↔ n ∈ ends p front := by
        intro n
        by_cases le : n ≤ front.length
        · exact mem_ends_append le
        · refine iff_of_false (fun inside => le (first n inside)) fun inside => le ?_
          exact (mem_ends_iff.mp inside).1
      rw [longest, longest]
      cases found : (ends p front).max? with
      | none =>
        rw [List.max?_eq_none_iff] at found ⊢
        refine List.eq_nil_iff_forall_not_mem.mpr fun n inside => ?_
        rw [members n, found] at inside
        exact absurd inside List.not_mem_nil
      | some n =>
        obtain ⟨member, most⟩ := List.max?_eq_some_iff.mp found
        exact List.max?_eq_some_iff.mpr
          ⟨(members n).mpr member, fun m inside => most m ((members m).mp inside)⟩
    rw [pick, pick, same, ih later]

end Lexing
