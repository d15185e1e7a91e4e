import Mathlib.Data.List.DropRight
import Mathlib.Data.List.Induction
import Mathlib.Data.List.TakeWhile
import OneProxy.Sql.UnionChains

/-! Which tables of a FROM are reported, where they are separated by commas and joins. -/

namespace OneProxy.Sql

open TopLevel

/-! ## Lists of tables -/

/-- A table with up to two qualifiers, and perhaps an alias, with or without an AS. -/
structure TableRef where
  qualifiers : List Bytes
  name : Bytes
  aliasName : Option (Option Bytes × Bytes)
  few : qualifiers.length ≤ 2
  noNul : 0 ∉ name

/-- What follows the name. -/
def aliasTokens : Option (Option Bytes × Bytes) → List SqlToken
  | none => []
  | some (none, aliasName) => [⟨.literal, aliasName⟩]
  | some (some word, aliasName) => [⟨.sqlAs, word⟩, ⟨.literal, aliasName⟩]

namespace TableRef

def tokens (ref : TableRef) : List SqlToken :=
  ref.qualifiers.flatMap (fun qualifier => [⟨.literal, qualifier⟩, ⟨.dot, [46]⟩]) ++
    ⟨.literal, ref.name⟩ :: aliasTokens ref.aliasName

/-- How many tokens there are before the name. -/
def place (ref : TableRef) : Nat := 2 * ref.qualifiers.length

end TableRef

/-- What may stand before a JOIN. -/
def sideIds : List SqlTokenId := [.sqlInner, .sqlCross, .sqlLeft, .sqlRight, .sqlNatural]

/-- `[INNER|CROSS|LEFT|RIGHT|NATURAL] JOIN`, or `STRAIGHT_JOIN`. -/
structure JoinWord where
  side : Option SqlToken
  join : SqlToken
  isSide : ∀ t ∈ side, t.Is sideIds ∧ join.tokenId = .sqlJoin
  isJoin : join.Is joinIds

def JoinWord.tokens (word : JoinWord) : List SqlToken := word.side.toList ++ [word.join]

/-- What separates the parts of a list of tables. -/
def separatorIds : List SqlTokenId := [.sqlJoin, .sqlStraightJoin, .comma, .sqlOn, .sqlUsing]

/-- `ON` or `USING`, and a condition. -/
structure Condition where
  word : SqlToken
  body : List SqlToken
  isWord : word.Is [.sqlOn, .sqlUsing]
  balanced : depth SqlToken.brace body = 0
  noSeparator : firstIn separatorIds body = none
  noEnd : firstIn fromEndIds body = none
  noSemicolon : ∀ t ∈ body, t.tokenId ≠ .semicolon

/-- One more table: after a comma, or joined. -/
inductive MoreTable
  | comma (ref : TableRef)
  | join (word : JoinWord) (ref : TableRef) (cond : Option Condition)

/-- The tokens of a condition, if there is one. -/
def conditionTokens : Option Condition → List SqlToken
  | none => []
  | some cond => cond.word :: cond.body

namespace MoreTable

def ref : MoreTable → TableRef
  | .comma ref => ref
  | .join _ ref _ => ref

/-- What stands before the table. -/
def before : MoreTable → List SqlToken
  | .comma _ => [⟨.comma, [44]⟩]
  | .join word _ _ => word.tokens

/-- What stands behind it. -/
def behind : MoreTable → List SqlToken
  | .comma _ => []
  | .join _ _ cond => conditionTokens cond

def tokens (more : MoreTable) : List SqlToken := more.before ++ more.ref.tokens ++ more.behind

end MoreTable

/-- The tokens of more tables. -/
def moreTokens (more : List MoreTable) : List SqlToken := more.flatMap MoreTable.tokens

/-- The names of more tables that begin at a place, and the tokens that name them. -/
def moreEntries : Nat → List MoreTable → List (Bytes × Nat)
  | _, [] => []
  | start, m :: more =>
    (m.ref.name, start + m.before.length + m.ref.place) :: moreEntries
      (start + m.tokens.length) more

/-- A list of at least one table. -/
structure TableList where
  first : TableRef
  more : List MoreTable

namespace TableList

def tokens (list : TableList) : List SqlToken := list.first.tokens ++ moreTokens list.more

/-- The names of the tables of a list that begins at a place, and the tokens that name them. -/
def entries (start : Nat) (list : TableList) : List (Bytes × Nat) :=
  (list.first.name, start + list.first.place) ::
    moreEntries (start + list.first.tokens.length) list.more

end TableList

/-! ## Lists that are reported as they are -/

/-- The tokens of a condition are too many for the table of a comma, or are no table. -/
def NoTable (body : List SqlToken) : Prop := body.length < 5 → simpleTable body = none

instance (body : List SqlToken) : Decidable (NoTable body) :=
  inferInstanceAs (Decidable (body.length < 5 → simpleTable body = none))

mutual

/--
After the first table, or after a condition, which must not be taken for a table.

The semicolons at the end count as tokens of the last table.
-/
def ReportedAfter (semicolons : Nat) (body : List SqlToken) : List MoreTable → Prop
  | [] => True
  | .comma ref :: more => NoTable body ∧ ReportedComma semicolons ref more
  | .join _ ref (some cond) :: more =>
    ref.tokens.length ≤ 5 ∧ ReportedAfter semicolons cond.body more
  | .join _ ref none :: [] => ref.tokens.length + semicolons ≤ 5
  | .join _ ref none :: .comma next :: more =>
    ref.tokens.length ≤ 5 ∧ ReportedComma semicolons next more
  | .join _ _ none :: .join _ _ _ :: _ => False

/-- After a comma: a table of at most four tokens, with another comma behind it or none. -/
def ReportedComma (semicolons : Nat) (ref : TableRef) : List MoreTable → Prop
  | [] => ref.tokens.length + semicolons ≤ 4
  | .comma next :: more => ref.tokens.length ≤ 4 ∧ ReportedComma semicolons next more
  | .join _ _ _ :: _ => False

end

/-- A table alone is always reported; another one has to be short, and those behind it as well. -/
def TableList.Reported (list : TableList) (semicolons : Nat) : Prop :=
  list.more = [] ∨ list.first.tokens.length ≤ 5 ∧ ReportedAfter semicolons [] list.more

variable {ts : List SqlToken}

/-! ## Tokens of tables -/

/-- Where all tokens are of some kinds, none of another kind is found. -/
theorem firstIn_of_kinds {kinds tokIds : List SqlTokenId} {l : List SqlToken}
    (all : ∀ t ∈ l, t.Is kinds) (apart : ∀ id ∈ kinds, id ∉ tokIds) : firstIn tokIds l = none := by
  apply find_eq_none_iff.mpr
  intro before t rest split _
  exact apart t.tokenId (all t (by simp [split]))

/-- Where no token is a brace, none is left open. -/
theorem depth_of_kinds {kinds : List SqlTokenId} {l : List SqlToken} (all : ∀ t ∈ l, t.Is kinds)
    (plain : NoBrace kinds) : depth SqlToken.brace l = 0 := by
  induction l with
  | nil => rfl
  | cons t l ih =>
    obtain ⟨kind, rest⟩ := List.forall_mem_cons.mp all
    rw [depth_cons, kind.brace_eq plain, ih rest, Int.add_zero]

/-- Of fewer kinds, none is found either. -/
theorem firstIn_mono {tokIds more : List SqlTokenId} {l : List SqlToken}
    (subset : ∀ id ∈ tokIds, id ∈ more) (nothing : firstIn more l = none) :
    firstIn tokIds l = none := by
  apply find_eq_none_iff.mpr
  intro before t rest split outside kind
  exact find_eq_none_iff.mp nothing before t rest split outside (subset t.tokenId kind)

/-- The kinds of the tokens of a table. -/
def nameIds : List SqlTokenId := [.literal, .dot, .sqlAs]

namespace TableRef

variable (ref : TableRef)

theorem is_tokens : ∀ t ∈ ref.tokens, t.Is nameIds := by
  intro t member
  rcases List.mem_append.mp member with qualifier | name
  · obtain ⟨q, _, here⟩ := List.mem_flatMap.mp qualifier
    rcases List.mem_cons.mp here with rfl | dot
    · simp [SqlToken.Is, nameIds]
    · obtain rfl := List.mem_singleton.mp dot
      simp [SqlToken.Is, nameIds]
  · rcases List.mem_cons.mp name with rfl | behind
    · simp [SqlToken.Is, nameIds]
    · generalize ref.aliasName = found at behind
      rcases found with _ | ⟨_ | word, aliasName⟩
      · cases behind
      · obtain rfl := List.mem_singleton.mp behind
        simp [SqlToken.Is, nameIds]
      · rcases List.mem_cons.mp behind with rfl | last
        · simp [SqlToken.Is, nameIds]
        · obtain rfl := List.mem_singleton.mp last
          simp [SqlToken.Is, nameIds]

theorem depth_tokens : depth SqlToken.brace ref.tokens = 0 :=
  depth_of_kinds ref.is_tokens (by decide)

/-- No separator is found in a table. -/
theorem firstIn_tokens {tokIds : List SqlTokenId} (apart : ∀ id ∈ nameIds, id ∉ tokIds) :
    firstIn tokIds ref.tokens = none :=
  firstIn_of_kinds ref.is_tokens apart

theorem length_tokens :
    ref.tokens.length = ref.place + 1 + (aliasTokens ref.aliasName).length := by
  have pairs : ∀ qualifiers : List Bytes, (qualifiers.flatMap fun qualifier =>
      ([⟨.literal, qualifier⟩, ⟨.dot, [46]⟩] : List SqlToken)).length = 2 * qualifiers.length := by
    intro qualifiers
    induction qualifiers with
    | nil => rfl
    | cons qualifier qualifiers ih =>
      rw [List.flatMap_cons, List.length_append, ih, List.length_cons]
      simp only [List.length_cons, List.length_nil]
      omega
  rw [tokens, List.length_append, pairs, List.length_cons, place]
  omega

/-- The name is one of the tokens. -/
theorem place_lt : ref.place < ref.tokens.length := by
  have length := ref.length_tokens
  omega

/-- The tokens of a table are recognised. -/
theorem simpleTable_tokens : ∃ aliasName, simpleTable ref.tokens =
      some (ref.name, aliasName, ref.place) := by
  obtain ⟨qualifiers, name, aliasName, few, noNul⟩ := ref
  rcases qualifiers with _ | ⟨first, _ | ⟨second, _ | ⟨third, more⟩⟩⟩
  · rcases aliasName with _ | ⟨_ | word, aliasName⟩ <;>
      exact ⟨_, by simp [tokens, aliasTokens, simpleTable, place]; rfl⟩
  · rcases aliasName with _ | ⟨_ | word, aliasName⟩ <;>
      exact ⟨_, by simp [tokens, aliasTokens, simpleTable, place]; rfl⟩
  · rcases aliasName with _ | ⟨_ | word, aliasName⟩ <;>
      exact ⟨_, by simp [tokens, aliasTokens, simpleTable, place]; rfl⟩
  · simp only [List.length_cons] at few
    omega

/-- Two tables with a join between them are no table. -/
theorem simpleTable_join {key next : SqlToken} (isKey : key.tokenId ∈ sideIds ++ joinIds)
    (rest : List SqlToken) : simpleTable (ref.tokens ++ key :: next :: rest) = none := by
  have noAs : key.tokenId ≠ .sqlAs := fun same => absurd (same ▸ isKey) (by decide)
  have noDot : key.tokenId ≠ .dot := fun same => absurd (same ▸ isKey) (by decide)
  obtain ⟨qualifiers, name, aliasName, few, noNul⟩ := ref
  -- No form has so many tokens and the join among them.
  rcases qualifiers with _ | ⟨first, _ | ⟨second, _ | ⟨third, more⟩⟩⟩
  · rcases aliasName with _ | ⟨_ | word, aliasName⟩ <;>
      rcases rest with _ | ⟨a, _ | ⟨b, _ | ⟨c, _ | ⟨d, _ | ⟨e, rest⟩⟩⟩⟩⟩ <;>
        simp [tokens, aliasTokens, simpleTable, noAs, noDot]
  · rcases aliasName with _ | ⟨_ | word, aliasName⟩ <;>
      rcases rest with _ | ⟨a, _ | ⟨b, _ | ⟨c, rest⟩⟩⟩ <;>
        simp [tokens, aliasTokens, simpleTable, noAs, noDot]
  · rcases aliasName with _ | ⟨_ | word, aliasName⟩ <;>
      rcases rest with _ | ⟨a, rest⟩ <;>
        simp [tokens, aliasTokens, simpleTable, noAs]
  · simp only [List.length_cons] at few
    omega

end TableRef

/-! ## Ranges -/

section

variable {front back : List SqlToken} {start stop : Nat}

/-- The first part of a range is a range of its own, and so is the second. -/
theorem window_parts (parts : window ts start stop = front ++ back) (order : start ≤ stop)
    (inside : stop ≤ ts.length) : start + front.length + back.length = stop ∧
      window ts start (start + front.length) = front ∧
        window ts (start + front.length) stop = back := by
  have length := congrArg List.length parts
  rw [length_window inside, List.length_append] at length
  have both := @window_split ts start (start + front.length) stop (by omega) (by omega)
  rw [parts] at both
  have sameLength : front.length = (window ts start (start + front.length)).length := by
    rw [length_window (by omega)]
    omega
  obtain ⟨first, second⟩ := List.append_inj both sameLength
  exact ⟨by omega, first.symm, second.symm⟩

/-- The first token of a range. -/
theorem tokenId_window {t : SqlToken} (begins : window ts start stop = t :: back) :
    tokenId ts start = some t.tokenId := by
  have head := congrArg (·[0]?) begins
  simp only [List.getElem?_cons_zero, window] at head
  by_cases some_ : 0 < stop - start
  · rw [List.getElem?_take_of_lt some_, List.getElem?_drop, Nat.add_zero] at head
    rw [tokenId, head]
    rfl
  · rw [List.getElem?_take_eq_none (by omega)] at head
    cases head

/-- What is found first in a range. -/
theorem firstOf_window {tokIds : List SqlTokenId} {key : SqlToken}
    (parts : window ts start stop = front ++ key :: back) (nothing : firstIn tokIds front = none)
    (level : depth SqlToken.brace front = 0) (kind : key.Is tokIds) :
    firstOf ts tokIds start stop = some (start + front.length) := by
  have found : firstIn tokIds (window ts start stop) = some front.length :=
    find_eq_some_iff.mpr ⟨front, key, back, parts, rfl, nothing, by rw [level, Int.add_zero], kind⟩
  rw [firstOf, found]
  rfl

/-- Nothing is found in a range. -/
theorem firstOf_window_none {tokIds : List SqlTokenId} (whole : window ts start stop = front)
    (nothing : firstIn tokIds front = none) : firstOf ts tokIds start stop = none := by
  rw [firstOf, whole, nothing]
  rfl

end

/-! ## Single tables -/

/-- The name of a table that begins at a place, and the token that names it. -/
def tableEntries (start : Nat) (l : List SqlToken) : List (Bytes × Nat) :=
  match simpleTable l with
  | none => []
  | some (name, _, place) => [(Parsing.cString name, start + place)]

section

variable {semicolons l rest : List SqlToken} {start stop : Nat}
  (areSemicolons : ∀ t ∈ semicolons, t.tokenId = .semicolon)
  (ends : ∀ t ∈ l.getLast?, t.tokenId ≠ .semicolon)

include areSemicolons ends

/-- The semicolons at the end of a range are dropped, and nothing else. -/
theorem trimSemicolons_window (parts : window ts start stop = l ++ semicolons)
    (order : start ≤ stop)
    (inside : stop ≤ ts.length) : trimSemicolons ts start stop = some (start + l.length) := by
  induction semicolons using List.reverseRecOn generalizing stop with
  | nil =>
    rw [List.append_nil] at parts
    have length := congrArg List.length parts
    rw [length_window inside] at length
    obtain rfl : stop = start + l.length := by omega
    rcases List.eq_nil_or_concat' l with rfl | ⟨front, last, rfl⟩
    · cases start with
      | zero => rfl
      | succ start => exact if_neg (Nat.lt_irrefl _)
    · rw [List.length_append, List.length_singleton, ← Nat.add_assoc] at parts inside ⊢
      obtain ⟨_, _, there⟩ := window_parts parts (by omega) inside
      have other := ends last (by simp)
      rw [trimSemicolons, if_pos (by omega), tokenId_window there, Option.bind_eq_bind,
        Option.bind_some, if_neg other]
  | append_singleton semicolons last ih =>
    have isSemicolon := areSemicolons last (by simp)
    rw [← List.append_assoc] at parts
    obtain ⟨total, here, there⟩ := window_parts parts order inside
    obtain rfl : stop = start + (l ++ semicolons).length + 1 := by
      rw [List.length_singleton] at total
      omega
    rw [trimSemicolons, if_pos (by omega), tokenId_window there, Option.bind_eq_bind,
      Option.bind_some, if_pos isSemicolon]
    exact ih (fun t member => areSemicolons t (List.mem_append_left _ member)) here (by omega)
      (by omega)

/-- The table of a range is added, if it is one without the semicolons. -/
theorem parseSimple_window (parts : window ts start stop = l ++ semicolons) (order : start ≤ stop)
    (inside : stop ≤ ts.length) (s : Parsing) (query : SQLQuery) :
    ∃ b s', parseSimpleTableNameAndAlias ts s query start stop = some (b, s') ∧
      s'.entries = s.entries ++ tableEntries start l := by
  obtain ⟨_, here, _⟩ := window_parts parts order inside
  simp only [parseSimpleTableNameAndAlias, Option.bind_eq_bind, Option.bind_some,
    trimSemicolons_window areSemicolons ends parts order inside]
  by_cases empty : l = []
  · subst empty
    exact ⟨false, s, if_pos (Nat.le_refl _), by simp [tableEntries, simpleTable]⟩
  · have some_ := List.length_pos_of_ne_nil empty
    rw [window] at here
    rw [if_neg (by omega), tableEntries, here]
    cases simpleTable l with
    | none => exact ⟨false, s, rfl, by simp⟩
    | some found => exact ⟨true, _, rfl, by simp [Parsing.entries, Parsing.addTableInfo]⟩

omit areSemicolons ends in
/--
What is taken for a table has all of the range in it that stands before some semicolon-free end.
-/
theorem parseSimple_front (noSemicolon : ∀ t ∈ l, t.tokenId ≠ .semicolon)
    (parts : window ts start stop = l ++ rest) (order : start ≤ stop) (inside : stop ≤ ts.length)
    (s : Parsing) (query : SQLQuery) : ∃ b s' more,
      parseSimpleTableNameAndAlias ts s query start stop = some (b, s') ∧
        s'.entries = s.entries ++ tableEntries start (l ++ more) := by
  let isSemicolon : SqlToken → Bool := fun t => decide (t.tokenId = .semicolon)
  have dropped := @List.rdropWhile_append_rtakeWhile _ isSemicolon (l ++ rest)
  have are : ∀ t ∈ (l ++ rest).rtakeWhile isSemicolon, t.tokenId = .semicolon := by
    intro t member
    have semicolon : isSemicolon t = true := List.mem_rtakeWhile_imp member
    exact of_decide_eq_true semicolon
  have ends : ∀ t ∈ ((l ++ rest).rdropWhile isSemicolon).getLast?, t.tokenId ≠ .semicolon := by
    intro t last semicolon
    obtain ⟨some_, same⟩ := List.mem_getLast?_eq_getLast last
    exact List.rdropWhile_last_not _ _ some_ (same ▸ decide_eq_true semicolon)
  generalize (l ++ rest).rdropWhile isSemicolon = kept at dropped ends
  generalize (l ++ rest).rtakeWhile isSemicolon = trailing at dropped are
  obtain ⟨b, s', single, added⟩ :=
    parseSimple_window are ends (parts.trans dropped.symm) order inside s query
  rcases List.append_eq_append_iff.mp dropped with ⟨more, whole, cut⟩ | ⟨more, whole, cut⟩
  · -- No semicolon is dropped from within the front.
    have none_ : more = [] := List.eq_nil_iff_forall_not_mem.mpr fun t member =>
      noSemicolon t (whole ▸ List.mem_append_right _ member)
        (are t (cut ▸ List.mem_append_left _ member))
    rw [none_, List.append_nil] at whole
    exact ⟨b, s', [], single, by rw [added, List.append_nil, whole]⟩
  · exact ⟨b, s', more, single, by rw [added, whole]⟩

end

/-- A table is added under its name. -/
theorem tableEntries_ref (ref : TableRef) (start : Nat) :
    tableEntries start ref.tokens = [(ref.name, start + ref.place)] := by
  obtain ⟨aliasName, found⟩ := ref.simpleTable_tokens
  have whole : Parsing.cString ref.name = ref.name := by
    rw [Parsing.cString, List.takeWhile_eq_self_iff]
    intro c member
    exact decide_eq_true fun zero => ref.noNul (zero ▸ member)
  simp only [tableEntries, found, whole]

/-! ## Where tables are added -/

/-- Tables have been added whose names stand in a range. -/
def AddedWithin (start stop : Nat) (s s' : Parsing) : Prop :=
  ∃ added, s'.entries = s.entries ++ added ∧ ∀ e ∈ added, start ≤ e.2 ∧ e.2 < stop

namespace AddedWithin

variable {start stop start' stop' : Nat} {s s' s'' : Parsing}

theorem refl (start stop : Nat) (s : Parsing) : AddedWithin start stop s s :=
  ⟨[], by simp, by simp⟩

theorem trans (first : AddedWithin start stop s s') (second : AddedWithin start stop s' s'') :
    AddedWithin start stop s s'' := by
  obtain ⟨added, same, all⟩ := first
  obtain ⟨added', same', all'⟩ := second
  refine ⟨added ++ added', by rw [same', same, List.append_assoc], ?_⟩
  intro e member
  rcases List.mem_append.mp member with before | after
  · exact all e before
  · exact all' e after

/--
A wider range; where there is something in it, the end is one that is not before the beginning.
-/
theorem mono (added : AddedWithin start' stop' s s') (lower : start ≤ start')
    (upper : stop' ≤ max start' stop) : AddedWithin start stop s s' := by
  obtain ⟨es, same, all⟩ := added
  refine ⟨es, same, fun e member => ?_⟩
  have within := all e member
  omega

end AddedWithin

/-- A search ends within its range. -/
theorem findTokensFrom_upper {tokIds : List SqlTokenId} (count : Nat) : ∀ (i : Nat) (c : Int)
    (r : Bool × Nat), findTokensFrom ts tokIds count i c = some r → r.2 ≤ i + count := by
  induction count with
  | zero => exact fun i c r done => by rw [← Option.some.inj done]; exact Nat.le_refl i
  | succ count ih =>
    intro i c r done
    obtain ⟨id, _, done⟩ := Option.bind_eq_some_iff.mp done
    have later : ∀ c, findTokensFrom ts tokIds count (i + 1) c = some r →
        r.2 ≤ i + (count + 1) := by
      intro c done
      have bound := ih (i + 1) c r done
      omega
    split at done
    · exact later _ done
    · split at done
      · exact later _ done
      · split at done
        · rw [← Option.some.inj done]
          exact Nat.le_add_right i (count + 1)
        · exact later _ done

/-- Where a search ends. -/
theorem findTokens_bounds {tokIds : List SqlTokenId} {start stop i : Nat} {found : Bool}
    (done : findTokens ts start stop tokIds = some (found, i)) :
    start ≤ i ∧ i ≤ max start stop := by
  have lower : start ≤ i := findTokens_le done
  have upper : i ≤ start + (stop - start) := findTokensFrom_upper _ _ _ _ done
  omega

section

variable {query : SQLQuery} {stop fuel : Nat} {s : Parsing} {r : Bool × Parsing}

/-- The name of a table is one of its tokens. -/
theorem place_lt_of_simpleTable {l : List SqlToken} {name aliasName : Bytes} {place : Nat}
    (found : simpleTable l = some (name, aliasName, place)) : place < l.length := by
  obtain ⟨⟨t, there, _⟩, _⟩ := simpleTable_spec found
  exact (List.getElem?_eq_some_iff.mp there).1

/-- Semicolons are dropped from the end. -/
theorem trimSemicolons_le {start trimmed : Nat}
    (done : trimSemicolons ts start stop = some trimmed) :
    trimmed ≤ stop := by
  induction stop with
  | zero =>
    obtain rfl : 0 = trimmed := Option.some.inj done
    exact Nat.le_refl 0
  | succ last ih =>
    rw [trimSemicolons] at done
    split at done
    · obtain ⟨id, _, done⟩ := Option.bind_eq_some_iff.mp done
      split at done
      · exact Nat.le_succ_of_le (ih done)
      · exact Nat.le_of_eq (Option.some.inj done).symm
    · exact Nat.le_of_eq (Option.some.inj done).symm

/-- A single table is within its range. -/
theorem added_parseSimple {start : Nat}
    (done : parseSimpleTableNameAndAlias ts s query start stop = some r) :
    AddedWithin start stop s r.2 := by
  obtain ⟨trimmed, trim, done⟩ := Option.bind_eq_some_iff.mp done
  have upper := trimSemicolons_le trim
  split at done
  · obtain rfl := Option.some.inj done
    exact .refl start stop s
  · split at done
    · obtain rfl := Option.some.inj done
      exact .refl start stop s
    · next name aliasName place found =>
      obtain rfl := Option.some.inj done
      have within := place_lt_of_simpleTable found
      rw [List.length_take] at within
      refine ⟨[(Parsing.cString name, start + place)], ?_, ?_⟩
      · simp [Parsing.entries, Parsing.addTableInfo]
      · intro e member
        obtain rfl := List.mem_singleton.mp member
        exact ⟨Nat.le_add_right start place, by dsimp only; omega⟩

/-- Joined tables are behind the place where the search for them begins. -/
theorem added_parseJoinedTables {table0End : Nat} {firstJoin : Bool}
    (done : parseJoinedTables ts query stop fuel s table0End firstJoin = some r) :
    AddedWithin table0End stop s r.2 := by
  -- The induction is on the fuel, by what is found next: nothing, a comma, or a join.
  induction fuel generalizing s table0End firstJoin with
  | zero => cases done
  | succ fuel ih =>
    obtain ⟨⟨found, table1Start⟩, search, done⟩ := Option.bind_eq_some_iff.mp done
    obtain ⟨lower, upper⟩ := findTokens_bounds search
    dsimp only at done
    split at done
    · obtain ⟨id, _, done⟩ := Option.bind_eq_some_iff.mp done
      split at done
      · obtain ⟨r', single, done⟩ := Option.bind_eq_some_iff.mp done
        obtain rfl := Option.some.inj done
        exact (added_parseSimple single).mono (Nat.le_refl _) upper
      · obtain rfl := Option.some.inj done
        exact .refl _ _ s
    · obtain ⟨id, _, done⟩ := Option.bind_eq_some_iff.mp done
      split at done
      · split at done
        · obtain ⟨r', single, done⟩ := Option.bind_eq_some_iff.mp done
          exact ((added_parseSimple single).mono (Nat.le_refl _) upper).trans
            ((ih done).mono (by omega) (Nat.le_max_right _ _))
        · exact (ih done).mono (by omega) (Nat.le_max_right _ _)
      · obtain ⟨⟨found', table1End⟩, search', done⟩ := Option.bind_eq_some_iff.mp done
        obtain ⟨lower', upper'⟩ := findTokens_bounds search'
        dsimp only at done
        split at done
        · exact (ih done).mono (by omega) (Nat.le_max_right _ _)
        · obtain ⟨r', single, done⟩ := Option.bind_eq_some_iff.mp done
          have first : AddedWithin table0End stop s r'.2 :=
            (added_parseSimple single).mono (by omega) upper'
          split at done
          · exact first.trans ((ih done).mono (by omega) (Nat.le_max_right _ _))
          · obtain rfl := Option.some.inj done
            exact first

/-- So are all tables of a list. -/
theorem added_parseFirstTable {i : Nat} (done : parseFirstTable ts query stop fuel s i = some r) :
    AddedWithin i stop s r.2 := by
  induction fuel generalizing s i with
  | zero => cases done
  | succ fuel ih =>
    rw [parseFirstTable] at done
    split at done
    · obtain ⟨⟨found, table0End⟩, search, done⟩ := Option.bind_eq_some_iff.mp done
      obtain ⟨lower, upper⟩ := findTokens_bounds search
      dsimp only at done
      split at done
      · obtain ⟨id, _, done⟩ := Option.bind_eq_some_iff.mp done
        split at done
        · refine (ih done).mono ?_ (Nat.le_max_right _ _)
          split <;> omega
        · obtain ⟨r', single, done⟩ := Option.bind_eq_some_iff.mp done
          exact ((added_parseSimple single).mono (Nat.le_refl _) upper).trans
            ((added_parseJoinedTables done).mono lower (Nat.le_max_right _ _))
      · exact (added_parseSimple done).mono (Nat.le_refl _) upper
    · obtain rfl := Option.some.inj done
      exact .refl i stop s

end

section

variable {query : SQLQuery} {stop fuel : Nat} {s : Parsing} {table0End table1Start : Nat}
  {firstJoin : Bool} {r : Bool × Parsing}

/-- What a join adds is behind it. -/
theorem added_join (inside : stop ≤ ts.length)
    (found : firstOf ts joinKw table0End stop = some table1Start) {id : SqlTokenId}
    (join : tokenId ts table1Start = some id) (other : id ≠ .comma)
    (done : parseJoinedTables ts query stop fuel s table0End firstJoin = some r) :
    AddedWithin (table1Start + 1) stop s r.2 := by
  have upper := (firstOf_spec found).2.1
  cases fuel with
  | zero => cases done
  | succ fuel =>
    cases ended : firstOf ts condKw (table1Start + 1) stop with
    | none =>
      rw [parseJoinedTables_joinLast inside found join other ended] at done
      split at done
      · exact (added_parseJoinedTables done).mono (by omega) (Nat.le_max_right _ _)
      · obtain ⟨r', single, rfl⟩ := Option.map_eq_some_iff.mp done
        have last : AddedWithin (table1Start + 1) stop s r'.2 := added_parseSimple single
        exact last
    | some table1End =>
      obtain ⟨lower, below, _⟩ := firstOf_spec ended
      rw [parseJoinedTables_join inside found join other ended] at done
      split at done
      · exact (added_parseJoinedTables done).mono (by omega) (Nat.le_max_right _ _)
      · obtain ⟨r', single, done⟩ := Option.bind_eq_some_iff.mp done
        exact ((added_parseSimple single).mono (Nat.le_refl _) (by omega)).trans
          ((added_parseJoinedTables done).mono (by omega) (Nat.le_max_right _ _))

end

/-- The names of more tables stand behind the place where they begin. -/
theorem moreEntries_ge {start : Nat} {more : List MoreTable} :
    ∀ e ∈ moreEntries start more, start < e.2 := by
  induction more generalizing start with
  | nil => simp [moreEntries]
  | cons m more ih =>
    have positive : 0 < m.before.length := by
      cases m with
      | comma => exact Nat.one_pos
      | join word => simp [MoreTable.before, JoinWord.tokens]
    intro e member
    rcases List.mem_cons.mp member with rfl | later
    · show start < start + m.before.length + m.ref.place
      omega
    · have := ih e later
      omega


/-! ## The walk over a list -/

/-- A part of the walk adds exactly these tables. -/
def Gives (result : Option (Bool × Parsing)) (s : Parsing) (es : List (Bytes × Nat)) : Prop :=
  result.map (fun r => r.2.entries) = some (s.entries ++ es)

section

variable {result : Option (Bool × Parsing)} {s s' : Parsing} {es : List (Bytes × Nat)}
  {e : Bytes × Nat} {place stop : Nat}

/-- A table that has been added is the first one. -/
theorem gives_cons_iff (added : s'.entries = s.entries ++ [e]) :
    Gives result s' es ↔ Gives result s (e :: es) := by
  rw [Gives, Gives, added, List.append_assoc, List.singleton_append]

/-- Where nothing has been added, the tables are still to come. -/
theorem gives_same_iff (same : s'.entries = s.entries) : Gives result s' es ↔
      Gives result s es := by
  rw [Gives, Gives, same]

/-- A table that is passed over is not added later. -/
theorem not_gives_of_missing (later : ∀ r, result = some r → AddedWithin place stop s r.2)
    (member : e ∈ es)
    (before : e.2 < place) : ¬ Gives result s es := by
  intro gives
  obtain ⟨r, done, same⟩ := Option.map_eq_some_iff.mp gives
  obtain ⟨added, same', all⟩ := later r done
  obtain rfl := List.append_cancel_left (same'.symm.trans same)
  have behind := (all e member).1
  omega

/-- A table that is none of the list is not taken away later. -/
theorem not_gives_of_invented (added : s'.entries = s.entries ++ [e])
    (later : ∀ r, result = some r → AddedWithin place stop s' r.2) (missing : e ∉ es) :
    ¬ Gives result s es := by
  intro gives
  obtain ⟨r, done, same⟩ := Option.map_eq_some_iff.mp gives
  obtain ⟨more, same', _⟩ := later r done
  rw [same', added, List.append_assoc] at same
  exact missing (List.append_cancel_left same ▸ List.mem_cons_self)

end

/-- What is added for a range is one table whose name is in the range, or nothing. -/
theorem tableEntries_cases (start : Nat) (l : List SqlToken) :
    (simpleTable l = none ∧ tableEntries start l = []) ∨
      ∃ e, simpleTable l ≠ none ∧ tableEntries start l = [e] ∧ e.2 < start + l.length := by
  rw [tableEntries]
  cases found : simpleTable l with
  | none => exact Or.inl ⟨rfl, rfl⟩
  | some table =>
    obtain ⟨name, aliasName, place⟩ := table
    have within := place_lt_of_simpleTable found
    exact Or.inr ⟨_, by simp, rfl, by dsimp only; omega⟩

/-- Where nothing is found in either part, nothing is found in both. -/
theorem firstIn_append {tokIds : List SqlTokenId} {front back : List SqlToken}
    (nothing : firstIn tokIds front = none) (level : depth SqlToken.brace front = 0)
    (nothing' : firstIn tokIds back = none) : firstIn tokIds (front ++ back) = none := by
  rw [firstIn] at nothing nothing' ⊢
  rw [find_append, nothing, level]
  simp only [Int.add_zero, nothing', Option.map_none]

/-- What stands between separators: tables, conditions, and what stands before a JOIN. -/
structure Unseparated (body : List SqlToken) : Prop where
  noSeparator : firstIn separatorIds body = none
  level : depth SqlToken.brace body = 0
  noSemicolon : ∀ t ∈ body, t.tokenId ≠ .semicolon

namespace Unseparated

variable {body body' : List SqlToken}

theorem noJoin (un : Unseparated body) : firstIn joinKw body = none :=
  firstIn_mono (by decide) un.noSeparator

theorem noCond (un : Unseparated body) : firstIn condKw body = none :=
  firstIn_mono (by decide) un.noSeparator

theorem nil : Unseparated [] := ⟨rfl, rfl, by simp⟩

/-- The last token is no semicolon either. -/
theorem ends (un : Unseparated body) : ∀ t ∈ body.getLast?, t.tokenId ≠ .semicolon :=
  fun t last => un.noSemicolon t (List.mem_of_getLast? last)

/-- Two parts without separators are one. -/
theorem append (un : Unseparated body) (un' : Unseparated body') : Unseparated (body ++ body') := by
  refine ⟨firstIn_append un.noSeparator un.level un'.noSeparator, ?_, ?_⟩
  · rw [depth_append, un.level, un'.level, Int.add_zero]
  · intro t member
    rcases List.mem_append.mp member with front | back
    · exact un.noSemicolon t front
    · exact un'.noSemicolon t back

/-- Tokens of kinds that are no separators. -/
theorem of_kinds {kinds : List SqlTokenId} (all : ∀ t ∈ body, t.Is kinds) (plain : NoBrace kinds)
    (apart : ∀ id ∈ kinds, id ∉ SqlTokenId.semicolon :: separatorIds) : Unseparated body where
  noSeparator := firstIn_of_kinds all fun id member =>
    fun found => apart id member (List.mem_cons_of_mem _ found)
  level := depth_of_kinds all plain
  noSemicolon t member same := apart t.tokenId (all t member) (same ▸ List.mem_cons_self)

end Unseparated

theorem TableRef.unseparated (ref : TableRef) : Unseparated ref.tokens :=
  .of_kinds ref.is_tokens (by decide) (by decide)

theorem Condition.unseparated (cond : Condition) : Unseparated cond.body :=
  ⟨cond.noSeparator, cond.balanced, cond.noSemicolon⟩

theorem JoinWord.unseparated_side (word : JoinWord) : Unseparated word.side.toList :=
  .of_kinds (fun t member => (word.isSide t (Option.mem_toList.mp member)).1)
    (by decide) (by decide)

/-- The walk over the rest of a list adds its tables exactly if they are reported. -/
structure Walked (ts : List SqlToken) (query : SQLQuery) (stop : Nat) (semicolons : List SqlToken)
    (more : List MoreTable) : Prop where
  after : ∀ fuel s start firstJoin body, 1 ≤ start → start ≤ stop → stop + 2 - start ≤ fuel →
    window ts start stop = body ++ (moreTokens more ++ semicolons) → Unseparated body →
    (more = [] → tokenBefore ts start ≠ some .comma) →
      (Gives (parseJoinedTables ts query stop fuel s start firstJoin) s
        (moreEntries (start + body.length) more) ↔ ReportedAfter semicolons.length body more)
  comma : ∀ fuel s start firstJoin (ref : TableRef), 1 ≤ start → start ≤ stop →
    stop + 2 - start ≤ fuel → window ts start stop = ref.tokens ++ (moreTokens more ++ semicolons) →
    tokenBefore ts start = some .comma →
      (Gives (parseJoinedTables ts query stop fuel s start firstJoin) s
        ((ref.name, start + ref.place) :: moreEntries (start + ref.tokens.length) more) ↔
          ReportedComma semicolons.length ref more)

section

variable {query : SQLQuery} {stop : Nat} {semicolons : List SqlToken} (inside : stop ≤ ts.length)

/-- Semicolons separate no tables. -/
theorem firstIn_semicolons (areSemicolons : ∀ t ∈ semicolons, t.tokenId = .semicolon)
    {tokIds : List SqlTokenId} (other : SqlTokenId.semicolon ∉ tokIds) :
    firstIn tokIds semicolons = none :=
  firstIn_of_kinds
    (fun t member => by rw [SqlToken.Is, areSemicolons t member]; exact List.mem_cons_self)
    (fun _ member => List.mem_singleton.mp member ▸ other)

include inside

/-- The end of the list. -/
theorem walked_nil (areSemicolons : ∀ t ∈ semicolons, t.tokenId = .semicolon) :
    Walked ts query stop semicolons [] := by
  constructor
  · intro fuel s start firstJoin body positive order enough parts un noComma
    obtain ⟨fuel, rfl⟩ : ∃ more, fuel = more + 1 := ⟨fuel - 1, by omega⟩
    rw [moreTokens, List.flatMap_nil, List.nil_append] at parts
    obtain ⟨id, before⟩ := @tokenBefore_there ts _ positive (by omega)
    have other : id ≠ .comma := fun same => noComma rfl (same ▸ before)
    have nothing := firstIn_append un.noJoin un.level (firstIn_semicolons areSemicolons (by decide))
    rw [parseJoinedTables_last inside (firstOf_window_none parts nothing), before,
      Option.bind_some, if_neg (fun both => other both.1)]
    exact iff_of_true (by simp [Gives, moreEntries]) (by rw [ReportedAfter]; trivial)
  · intro fuel s start firstJoin ref positive order enough parts comma
    obtain ⟨fuel, rfl⟩ : ∃ more, fuel = more + 1 := ⟨fuel - 1, by omega⟩
    rw [moreTokens, List.flatMap_nil, List.nil_append] at parts
    have un := ref.unseparated
    have nothing := firstIn_append un.noJoin un.level (firstIn_semicolons areSemicolons (by decide))
    obtain ⟨total, _, _⟩ := window_parts parts order inside
    rw [parseJoinedTables_last inside (firstOf_window_none parts nothing), comma,
      Option.bind_some, Nat.max_eq_right order, ReportedComma]
    by_cases short : stop - start < 5
    · obtain ⟨b, s', single, added⟩ :=
        parseSimple_window areSemicolons un.ends parts order inside s query
      rw [tableEntries_ref] at added
      rw [if_pos ⟨rfl, short⟩, single]
      exact iff_of_true (by simp [Gives, moreEntries, added]) (by omega)
    · rw [if_neg (fun both => short both.2)]
      exact iff_of_false (by simp [Gives, moreEntries]) (by omega)

/-- A comma ends a range, which is taken for a table if it is short enough. -/
theorem step_comma {ref : TableRef} {more : List MoreTable}
    (ih : Walked ts query stop semicolons more)
    {fuel : Nat} (s : Parsing) {start : Nat} (firstJoin : Bool) {body : List SqlToken}
    (positive : 1 ≤ start) (order : start ≤ stop) (enough : stop + 2 - start ≤ fuel)
    (parts : window ts start stop = body ++ (moreTokens (.comma ref :: more) ++ semicolons))
    (un : Unseparated body) : ∃ s', s'.entries = s.entries ++
        (if body.length < 5 then tableEntries start body else []) ∧
      (∀ r, parseJoinedTables ts query stop fuel s start firstJoin = some r →
        AddedWithin (start + body.length + 1) stop s' r.2) ∧
      (Gives (parseJoinedTables ts query stop fuel s start firstJoin) s'
        (moreEntries (start + body.length) (.comma ref :: more)) ↔
          ReportedComma semicolons.length ref more) := by
  obtain ⟨fuel, rfl⟩ : ∃ more, fuel = more + 1 := ⟨fuel - 1, by omega⟩
  have split : window ts start stop =
      body ++ ⟨.comma, [44]⟩ :: (ref.tokens ++ (moreTokens more ++ semicolons)) := by
    rw [parts]
    simp [moreTokens, MoreTable.tokens, MoreTable.before, MoreTable.ref, MoreTable.behind]
  obtain ⟨total, here, rest⟩ := window_parts split order inside
  simp only [List.length_cons] at total
  have found := @firstOf_window ts _ _ _ _ joinKw _ split un.noJoin un.level (by decide)
  have comma := tokenId_window rest
  have behind := (@window_parts ts [⟨.comma, [44]⟩] _ _ _ rest (by omega) inside).2.2
  -- The walk goes on behind the comma, whether or not a table has been added.
  have goesOn : ∀ s',
    Gives (parseJoinedTables ts query stop fuel s' (start + body.length + 1) false)
      s' (moreEntries (start + body.length) (.comma ref :: more)) ↔
        ReportedComma semicolons.length ref more := by
    intro s'
    rw [← ih.comma fuel s' (start + body.length + 1) false ref (by omega) (by omega)
      (by omega) behind
      comma]
    simp only [moreEntries, MoreTable.tokens, MoreTable.before, MoreTable.ref, MoreTable.behind,
      List.length_append, List.length_cons, List.length_nil, Nat.add_zero, Nat.add_assoc,
      Nat.zero_add]
  have step := @parseJoinedTables_comma ts query stop fuel s start firstJoin inside _ found comma
  by_cases short : body.length < 5
  · obtain ⟨b, s', single, added⟩ := @parseSimple_window ts [] body _ _ (by simp) un.ends
      (by rw [here, List.append_nil]) (Nat.le_add_right _ _) (by omega) s query
    rw [if_pos (by omega), single, Option.bind_some] at step
    refine ⟨s', by rw [if_pos short, added], fun r done => ?_, ?_⟩
    · rw [step] at done
      exact added_parseJoinedTables done
    · rw [step]
      exact goesOn s'
  · rw [if_neg (by omega)] at step
    refine ⟨s, by rw [if_neg short, List.append_nil], fun r done => ?_, ?_⟩
    · rw [step] at done
      exact added_parseJoinedTables done
    · rw [step]
      exact goesOn s

/-- A comma comes next. -/
theorem walked_comma {ref : TableRef} {more : List MoreTable}
    (ih : Walked ts query stop semicolons more) :
    Walked ts query stop semicolons (.comma ref :: more) := by
  constructor
  · intro fuel s start firstJoin body positive order enough parts un _
    obtain ⟨s', added, later, gives⟩ := step_comma inside ih s firstJoin positive order
      enough parts un
    rw [ReportedAfter, ← gives]
    rcases tableEntries_cases start body with ⟨none_, nothing⟩ | ⟨e, table, only, within⟩
    · -- The condition is no table, and nothing has been added for it.
      have same : s'.entries = s.entries := by simp [added, nothing]
      rw [gives_same_iff same]
      exact ⟨fun all => ⟨fun _ => none_, all⟩, fun both => both.2⟩
    · by_cases short : body.length < 5
      · rw [if_pos short, only] at added
        refine iff_of_false (not_gives_of_invented added later fun member => ?_)
          fun both => table (both.1 short)
        have behind := moreEntries_ge e member
        omega
      · rw [if_neg short, List.append_nil] at added
        rw [gives_same_iff added]
        exact ⟨fun all => ⟨fun less => absurd less short, all⟩, fun both => both.2⟩
  · intro fuel s start firstJoin before positive order enough parts _
    obtain ⟨s', added, later, gives⟩ := step_comma inside ih s firstJoin positive order
      enough parts before.unseparated
    rw [ReportedComma, ← gives]
    by_cases short : before.tokens.length < 5
    · rw [if_pos short, tableEntries_ref] at added
      rw [gives_cons_iff added]
      exact ⟨fun all => ⟨by omega, all⟩, fun both => both.2⟩
    · -- The table before the comma is passed over.
      rw [if_neg short, List.append_nil] at added
      refine iff_of_false ?_ fun both => short (by omega)
      have place := before.place_lt
      refine @not_gives_of_missing _ _ _ _ _ stop (fun r done => ?_) List.mem_cons_self
        (show start + before.place < start + before.tokens.length + 1 by omega)
      obtain ⟨more, same, all⟩ := later r done
      exact ⟨more, by rw [same, added], all⟩

/-- Where the join is that comes next, and what is behind it. -/
theorem join_found {word : JoinWord} {start : Nat} {body back : List SqlToken}
    (order : start ≤ stop)
    (parts : window ts start stop = body ++ (word.tokens ++ back)) (un : Unseparated body) :
    ∃ table1Start id, table1Start + 1 = start + body.length + word.tokens.length ∧
      firstOf ts joinKw start stop = some table1Start ∧ tokenId ts table1Start = some id ∧
        id ≠ .comma ∧ window ts (table1Start + 1) stop = back ∧
          table1Start + 1 + back.length = stop := by
  have front := un.append word.unseparated_side
  have split : window ts start stop = (body ++ word.side.toList) ++ word.join :: back := by
    rw [parts, JoinWord.tokens]
    simp
  obtain ⟨total, _, rest⟩ := window_parts split order inside
  rw [List.length_append, List.length_cons] at total
  have behind := (@window_parts ts [word.join] back _ _ rest
    (by rw [List.length_append]; omega) inside).2.2
  have found := firstOf_window split front.noJoin front.level word.isJoin.joinKw
  refine ⟨start + (body ++ word.side.toList).length, word.join.tokenId, ?_, found,
    tokenId_window rest, ?_, behind, ?_⟩
  · rw [JoinWord.tokens, List.length_append, List.length_append, List.length_singleton]
    omega
  · intro comma
    have isJoin : word.join.tokenId ∈ joinIds := word.isJoin
    rw [comma] at isJoin
    exact absurd isJoin (by decide)
  · rw [List.length_append]
    omega

/-- A table between a comma and a join is passed over. -/
theorem not_gives_before_join {word : JoinWord} {fuel : Nat} {s : Parsing} {start : Nat}
    {firstJoin : Bool} {before : TableRef} {back : List SqlToken} {es : List (Bytes × Nat)}
    (order : start ≤ stop)
    (parts : window ts start stop = before.tokens ++ (word.tokens ++ back)) :
    ¬ Gives (parseJoinedTables ts query stop fuel s start firstJoin) s
      ((before.name, start + before.place) :: es) := by
  obtain ⟨table1Start, id, place, found, join, other, _, _⟩ :=
    join_found inside order parts before.unseparated
  have within := before.place_lt
  refine not_gives_of_missing (fun r done => added_join inside found join other done)
    List.mem_cons_self ?_
  show start + before.place < table1Start + 1
  omega

/-- A join whose table is ended by a comma, ON or USING: the walk goes on behind that. -/
theorem step_join {word : JoinWord} {ref : TableRef} {key : SqlToken} {back : List SqlToken}
    {fuel : Nat} (s : Parsing) {start : Nat} (firstJoin : Bool) {body : List SqlToken}
    (order : start ≤ stop)
    (parts : window ts start stop = body ++ (word.tokens ++ (ref.tokens ++ key :: back)))
    (un : Unseparated body) (isKey : key.Is condKw) :
    ∃ s' place next, place + ref.tokens.length + 1 = next ∧ next + back.length = stop ∧
      place = start + body.length + word.tokens.length ∧ tokenBefore ts next = some key.tokenId ∧
      window ts next stop = back ∧
      s'.entries = s.entries ++
        (if ref.tokens.length ≤ 5 then [(ref.name, place + ref.place)] else []) ∧
      parseJoinedTables ts query stop (fuel + 1) s start firstJoin =
        parseJoinedTables ts query stop fuel s' next false := by
  obtain ⟨table1Start, id, place, found, join, other, rest, total⟩ :=
    join_found inside order parts un
  rw [List.length_append, List.length_cons] at total
  have un' := ref.unseparated
  have ended := firstOf_window rest un'.noCond un'.level isKey
  obtain ⟨_, here, atKey⟩ := window_parts rest (by omega) inside
  have behind := (@window_parts ts [key] _ _ _ atKey (by omega) inside).2.2
  have step := @parseJoinedTables_join ts query stop fuel s start firstJoin inside _ _ id found join
    other ended
  by_cases long : table1Start + 1 + ref.tokens.length - (table1Start + 1) > 5
  · rw [if_pos long] at step
    exact ⟨s, table1Start + 1, _, rfl, by omega, place, tokenId_window atKey, behind,
      by rw [if_neg (by omega), List.append_nil], step⟩
  · obtain ⟨b, s', single, added⟩ := @parseSimple_window ts [] ref.tokens _ _ (by simp)
      un'.ends (by rw [here, List.append_nil]) (Nat.le_add_right _ _) (by omega) s query
    rw [tableEntries_ref] at added
    rw [if_neg long, single, Option.bind_some] at step
    exact ⟨s', table1Start + 1, _, rfl, by omega, place, tokenId_window atKey, behind,
      by rw [if_pos (by omega), added], step⟩

omit inside in
/-- The table of a join is added, and then the rest, or it is passed over. -/
theorem gives_join_iff {fuel next place : Nat} {s s' : Parsing} {ref : TableRef}
    {es : List (Bytes × Nat)} {P : Prop} (length : place + ref.tokens.length + 1 = next)
    (added : s'.entries = s.entries ++
      (if ref.tokens.length ≤ 5 then [(ref.name, place + ref.place)] else []))
    (rest : Gives (parseJoinedTables ts query stop fuel s' next false) s' es ↔ P) :
    Gives (parseJoinedTables ts query stop fuel s' next false) s
      ((ref.name, place + ref.place) :: es) ↔
      ref.tokens.length ≤ 5 ∧ P := by
  by_cases short : ref.tokens.length ≤ 5
  · rw [if_pos short] at added
    rw [← gives_cons_iff added, rest, and_iff_right short]
  · rw [if_neg short, List.append_nil] at added
    have within := ref.place_lt
    refine iff_of_false ?_ fun both => short both.1
    rw [← gives_same_iff added]
    exact not_gives_of_missing (fun r done => added_parseJoinedTables done) List.mem_cons_self
      (show place + ref.place < next by omega)

/-- A join with a condition comes next. -/
theorem walked_condition {word : JoinWord} {ref : TableRef} {cond : Condition}
    {more : List MoreTable} (ih : Walked ts query stop semicolons more) :
    Walked ts query stop semicolons (.join word ref (some cond) :: more) := by
  have tokens : moreTokens (.join word ref (some cond) :: more) ++ semicolons =
      word.tokens ++ (ref.tokens ++
          cond.word :: (cond.body ++ (moreTokens more ++ semicolons))) := by
    simp [moreTokens, MoreTable.tokens, MoreTable.before, MoreTable.ref, MoreTable.behind,
      conditionTokens]
  constructor
  · intro fuel s start firstJoin body positive order enough parts un _
    obtain ⟨fuel, rfl⟩ : ∃ more, fuel = more + 1 := ⟨fuel - 1, by omega⟩
    have isWord : cond.word.tokenId = .sqlOn ∨ cond.word.tokenId = .sqlUsing := by
      simpa [SqlToken.Is] using cond.isWord
    have isCond : cond.word.Is condKw := by
      rcases isWord with on | using_
      · simp [SqlToken.Is, condKw, on]
      · simp [SqlToken.Is, condKw, using_]
    rw [tokens] at parts
    obtain ⟨s', place, next, length, total, same, before, behind, added, step⟩ :=
      @step_join ts query stop inside word ref _ _ fuel s start firstJoin body order parts un isCond
    have rest := ih.after fuel s' next false cond.body (by omega) (by omega) (by omega) behind
      cond.unseparated fun _ comma => by
        rw [before, Option.some.injEq] at comma
        rcases isWord with on | using_
        · exact absurd (on.symm.trans comma) (by decide)
        · exact absurd (using_.symm.trans comma) (by decide)
    have expected : moreEntries (start + body.length) (.join word ref (some cond) :: more) =
        (ref.name, place + ref.place) :: moreEntries (next + cond.body.length) more := by
      have lengths : start + body.length + (word.tokens.length + ref.tokens.length +
          (cond.body.length + 1)) = next + cond.body.length := by omega
      simp only [moreEntries, MoreTable.tokens, MoreTable.before, MoreTable.ref, MoreTable.behind,
        conditionTokens, List.length_append, List.length_cons, lengths, ← same]
    rw [ReportedAfter, expected, step]
    exact gives_join_iff length added rest
  · intro fuel s start firstJoin before positive order enough parts _
    rw [ReportedComma, iff_false]
    rw [tokens] at parts
    exact not_gives_before_join inside order parts

/-- A comma is behind a join without a condition. -/
theorem walked_join_comma {word : JoinWord} {ref after : TableRef} {more : List MoreTable}
    (ih : Walked ts query stop semicolons more) :
    Walked ts query stop semicolons (.join word ref none :: .comma after :: more) := by
  have tokens : moreTokens (.join word ref none :: .comma after :: more) ++ semicolons =
      word.tokens ++
        (ref.tokens ++ ⟨.comma, [44]⟩ :: (after.tokens ++ (moreTokens more ++ semicolons))) := by
    simp [moreTokens, MoreTable.tokens, MoreTable.before, MoreTable.ref, MoreTable.behind,
      conditionTokens]
  constructor
  · intro fuel s start firstJoin body positive order enough parts un _
    obtain ⟨fuel, rfl⟩ : ∃ more, fuel = more + 1 := ⟨fuel - 1, by omega⟩
    rw [tokens] at parts
    obtain ⟨s', place, next, length, total, same, before, behind, added, step⟩ :=
      @step_join ts query stop inside word ref _ _ fuel s start firstJoin body order parts un
        (by decide)
    have rest := ih.comma fuel s' next false after (by omega) (by omega) (by omega) behind before
    have expected : moreEntries (start + body.length)
      (.join word ref none :: .comma after :: more) =
        (ref.name, place + ref.place) :: (after.name, next + after.place) ::
          moreEntries (next + after.tokens.length) more := by
      have toComma : start + body.length + (word.tokens.length + ref.tokens.length) + 1 = next := by
        omega
      have toMore : start + body.length + (word.tokens.length + ref.tokens.length) +
          (1 + after.tokens.length) = next + after.tokens.length := by omega
      simp only [moreEntries, MoreTable.tokens, MoreTable.before, MoreTable.ref, MoreTable.behind,
        conditionTokens, List.length_append, List.length_cons, List.length_nil, Nat.add_zero,
        Nat.zero_add, toComma, toMore, ← same]
    rw [ReportedAfter, expected, step]
    exact gives_join_iff length added rest
  · intro fuel s start firstJoin before positive order enough parts _
    rw [ReportedComma, iff_false]
    rw [tokens] at parts
    exact not_gives_before_join inside order parts

/-- A join without a condition ends the list. -/
theorem walked_join_last (areSemicolons : ∀ t ∈ semicolons, t.tokenId = .semicolon)
    {word : JoinWord} {ref : TableRef} : Walked ts query stop semicolons [.join word ref none] := by
  have tokens : moreTokens [.join word ref none] ++ semicolons =
      word.tokens ++ (ref.tokens ++ semicolons) := by
    simp [moreTokens, MoreTable.tokens, MoreTable.before, MoreTable.ref, MoreTable.behind,
      conditionTokens]
  constructor
  · intro fuel s start firstJoin body positive order enough parts un _
    obtain ⟨fuel, rfl⟩ : ∃ more, fuel = more + 1 := ⟨fuel - 1, by omega⟩
    rw [tokens] at parts
    obtain ⟨table1Start, id, place, found, join, other, rest, total⟩ :=
      join_found inside order parts un
    rw [List.length_append] at total
    have un' := ref.unseparated
    have nothing := firstIn_append un'.noCond un'.level
      (firstIn_semicolons areSemicolons (by decide))
    have step := @parseJoinedTables_joinLast ts query stop fuel s start firstJoin inside _ id found
      join other (firstOf_window_none rest nothing)
    have expected : moreEntries (start + body.length) [.join word ref none] =
        [(ref.name, table1Start + 1 + ref.place)] := by
      simp only [moreEntries, MoreTable.before, MoreTable.ref, place]
    rw [ReportedAfter, expected, step]
    by_cases long : stop - (table1Start + 1) > 5
    · have within := ref.place_lt
      rw [if_pos long]
      refine iff_of_false (not_gives_of_missing (fun r done => added_parseJoinedTables done)
        List.mem_cons_self ?_) fun short => by omega
      show table1Start + 1 + ref.place < stop + 1
      omega
    · obtain ⟨b, s', single, added⟩ :=
        parseSimple_window areSemicolons un'.ends rest (by omega) inside s query
      rw [tableEntries_ref] at added
      rw [if_neg long, single]
      exact iff_of_true (by simp [Gives, added]) (by omega)
  · intro fuel s start firstJoin before positive order enough parts _
    rw [ReportedComma, iff_false]
    rw [tokens] at parts
    exact not_gives_before_join inside order parts

omit inside in
/-- What a word for a join begins with. -/
theorem JoinWord.tokens_eq (word : JoinWord) : ∃ key rest, word.tokens = key :: rest ∧
    key.tokenId ∈ sideIds ++ joinIds := by
  rw [JoinWord.tokens]
  cases same : word.side with
  | none => exact ⟨word.join, [], rfl, List.mem_append_right _ word.isJoin⟩
  | some t => exact ⟨t, [word.join], rfl, List.mem_append_left _ (word.isSide t same).1⟩

omit inside in
/-- A word for a join has no comma, ON, USING or semicolon. -/
theorem JoinWord.kinds (word : JoinWord) : ∀ t ∈ word.tokens, t.Is (sideIds ++ joinIds) := by
  intro t member
  rcases List.mem_append.mp member with side | join
  · exact List.mem_append_left _ (word.isSide t (Option.mem_toList.mp side)).1
  · obtain rfl := List.mem_singleton.mp join
    exact List.mem_append_right _ word.isJoin

omit inside in
/-- What is found stands behind a part in which there is nothing to find. -/
theorem firstOf_behind {tokIds : List SqlTokenId} {front back : List SqlToken} {start i : Nat}
    (parts : window ts start stop = front ++ back) (nothing : firstIn tokIds front = none)
    (level : depth SqlToken.brace front = 0) (found : firstOf ts tokIds start stop = some i) :
    start + front.length ≤ i := by
  rw [firstIn] at nothing
  rw [firstOf, parts, firstIn, find_append, nothing, level] at found
  obtain ⟨k, there, rfl⟩ := Option.map_eq_some_iff.mp found
  obtain ⟨j, _, rfl⟩ := Option.map_eq_some_iff.mp there
  omega

/-- A joined table that has no condition is lost if another join follows: both are taken for one. -/
theorem not_gives_double {word word' : JoinWord} {ref ref' : TableRef} {back : List SqlToken}
    {fuel : Nat} {s : Parsing} {start : Nat} {firstJoin : Bool} {body : List SqlToken}
    {es : List (Bytes × Nat)} (order : start ≤ stop)
    (parts : window ts start stop =
      body ++ (word.tokens ++ ((ref.tokens ++ (word'.tokens ++ ref'.tokens)) ++ back)))
    (un : Unseparated body) :
    ¬ Gives (parseJoinedTables ts query stop (fuel + 1) s start firstJoin) s
      ((ref.name, start + body.length + word.tokens.length + ref.place) :: es) := by
  obtain ⟨table1Start, id, place, found, join, other, rest, total⟩ :=
    join_found inside order parts un
  rw [← place]
  have kinds : ∀ t ∈ ref.tokens ++ (word'.tokens ++ ref'.tokens),
      t.Is (nameIds ++ (sideIds ++ joinIds)) := by
    intro t member
    rw [List.mem_append, List.mem_append] at member
    rcases member with first | join' | second
    · exact List.mem_append_left _ (ref.is_tokens t first)
    · exact List.mem_append_right _ (word'.kinds t join')
    · exact List.mem_append_left _ (ref'.is_tokens t second)
  have noSemicolon : ∀ t ∈ ref.tokens ++ (word'.tokens ++ ref'.tokens), t.tokenId ≠ .semicolon := by
    intro t member same
    have kind := kinds t member
    rw [SqlToken.Is, same] at kind
    exact absurd kind (by decide)
  -- With the word between them the two tables have none of the forms of a table.
  have notTable : ∀ more, simpleTable ((ref.tokens ++ (word'.tokens ++ ref'.tokens)) ++ more) =
      none := by
    intro more
    obtain ⟨key, word'', begins, isKey⟩ := word'.tokens_eq
    obtain ⟨next, later, follows⟩ : ∃ next later, word'' ++ (ref'.tokens ++ more) = next :: later :=
      List.exists_cons_of_ne_nil fun none_ => by
        have some_ := ref'.place_lt
        simp only [List.append_eq_nil_iff] at none_
        simp [none_.2.1] at some_
    rw [begins, List.append_assoc, List.append_assoc, List.cons_append, follows]
    exact ref.simpleTable_join isKey later
  have long : ref.place < (ref.tokens ++ (word'.tokens ++ ref'.tokens)).length := by
    have within := ref.place_lt
    rw [List.length_append]
    omega
  generalize ref.tokens ++ (word'.tokens ++ ref'.tokens) = double at *
  rw [List.length_append] at total
  have nothing : firstIn condKw double = none := firstIn_of_kinds kinds (by decide)
  have level : depth SqlToken.brace double = 0 := depth_of_kinds kinds (by decide)
  have lost : ∀ table1End, table1Start + 1 + double.length ≤ table1End → table1End ≤ stop →
      ∃ b s', parseSimpleTableNameAndAlias ts s query (table1Start + 1) table1End = some (b, s') ∧
        s'.entries = s.entries := by
    intro table1End lower upper
    have split := @window_split ts (table1Start + 1) table1End stop (by omega) upper
    rw [rest] at split
    have inWhole : window ts (table1Start + 1) table1End <+: double ++ back := by
      rw [split]
      exact List.prefix_append _ _
    obtain ⟨more, front⟩ : double <+: window ts (table1Start + 1) table1End :=
      List.prefix_of_prefix_length_le (List.prefix_append _ _) inWhole
        (by rw [length_window (by omega)]; omega)
    obtain ⟨b, s', kept, single, added⟩ :=
      parseSimple_front noSemicolon front.symm (by omega) (by omega) s query
    refine ⟨b, s', single, ?_⟩
    rw [added, tableEntries, notTable kept, List.append_nil]
  cases ended : firstOf ts condKw (table1Start + 1) stop with
  | none =>
    rw [parseJoinedTables_joinLast inside found join other ended]
    split
    · refine not_gives_of_missing (fun r done => added_parseJoinedTables done) List.mem_cons_self ?_
      show table1Start + 1 + ref.place < stop + 1
      omega
    · obtain ⟨b, s', single, same⟩ := lost stop (by omega) (Nat.le_refl _)
      rw [single]
      simp [Gives, same]
  | some table1End =>
    have lower := firstOf_behind rest nothing level ended
    have upper := (firstOf_spec ended).2.1
    rw [parseJoinedTables_join inside found join other ended]
    have before : table1Start + 1 + ref.place < table1End + 1 := by omega
    split
    · exact not_gives_of_missing (fun r done => added_parseJoinedTables done) List.mem_cons_self
        before
    · obtain ⟨b, s', single, same⟩ := lost table1End lower (Nat.le_of_lt upper)
      rw [single, ← gives_same_iff same]
      exact not_gives_of_missing (fun r done => added_parseJoinedTables done) List.mem_cons_self
        before

/-- Another join is behind a join without a condition. -/
theorem walked_join_join {word word' : JoinWord} {ref ref' : TableRef} {cond : Option Condition}
    {more : List MoreTable} :
    Walked ts query stop semicolons (.join word ref none :: .join word' ref' cond :: more) := by
  have tokens : moreTokens (.join word ref none :: .join word' ref' cond :: more) ++ semicolons =
      word.tokens ++ ((ref.tokens ++ (word'.tokens ++ ref'.tokens)) ++
        (conditionTokens cond ++ (moreTokens more ++ semicolons))) := by
    simp [moreTokens, MoreTable.tokens, MoreTable.before, MoreTable.ref, MoreTable.behind,
      conditionTokens]
  constructor
  · intro fuel s start firstJoin body positive order enough parts un _
    obtain ⟨fuel, rfl⟩ : ∃ more, fuel = more + 1 := ⟨fuel - 1, by omega⟩
    rw [ReportedAfter, iff_false]
    rw [tokens] at parts
    exact not_gives_double inside order parts un
  · intro fuel s start firstJoin before positive order enough parts _
    rw [ReportedComma, iff_false]
    rw [tokens, List.append_assoc] at parts
    exact not_gives_before_join inside order parts

/-- The walk over any list. -/
theorem walked (areSemicolons : ∀ t ∈ semicolons, t.tokenId = .semicolon) :
    ∀ more, Walked ts query stop semicolons more
  | [] => walked_nil inside areSemicolons
  | .comma _ :: more => walked_comma inside (walked areSemicolons more)
  | .join _ _ (some _) :: more => walked_condition inside (walked areSemicolons more)
  | [.join _ _ none] => walked_join_last inside areSemicolons
  | .join _ _ none :: .comma _ :: more => walked_join_comma inside (walked areSemicolons more)
  | .join _ _ none :: .join _ _ _ :: _ => walked_join_join inside

omit inside in
/-- What stands before another table begins with a token that ends the first one. -/
theorem MoreTable.before_eq (m : MoreTable) : ∃ key rest, m.before = key :: rest ∧
    key.Is firstKeyIds := by
  cases m with
  | comma => exact ⟨_, _, rfl, by decide⟩
  | join word ref cond =>
    obtain ⟨key, rest, begins, kind⟩ := word.tokens_eq
    refine ⟨key, rest, begins, ?_⟩
    simp only [sideIds, joinIds, List.mem_append, List.mem_cons, List.not_mem_nil, or_false] at kind
    rw [SqlToken.Is]
    rcases kind with (same | same | same | same | same) | same | same <;> rw [same] <;> decide

/-- A list adds its tables exactly if it is reported as it is. -/
theorem gives_tables_iff (list : TableList)
    (areSemicolons : ∀ t ∈ semicolons, t.tokenId = .semicolon) (s : Parsing) {start : Nat}
    (positive : 1 ≤ start) (order : start ≤ stop)
    (parts : window ts start stop = list.tokens ++ semicolons) :
    Gives (parseTableNameAndAlias ts s query start stop) s (list.entries start) ↔
      list.Reported semicolons.length := by
  obtain ⟨first, more⟩ := list
  have un := first.unseparated
  have some_ := first.place_lt
  simp only [TableList.tokens, List.append_assoc] at parts
  obtain ⟨total, here, behind⟩ := window_parts parts order inside
  generalize count : stop - start = fuel
  rw [parseTableNameAndAlias, count, parseFirstTable, if_pos (by omega),
    findTokens_eq (by decide) inside]
  cases more with
  | nil =>
    rw [moreTokens, List.flatMap_nil, List.nil_append] at parts
    have nothing : firstIn firstKeyIds (first.tokens ++ semicolons) = none :=
      firstIn_append (first.firstIn_tokens (by decide)) un.level
        (firstIn_semicolons areSemicolons (by decide))
    obtain ⟨b, s', single, added⟩ :=
      parseSimple_window areSemicolons un.ends parts order inside s query
    rw [tableEntries_ref] at added
    rw [firstOf_window_none parts nothing]
    simp only [Option.bind_eq_bind, Option.bind_some, Nat.max_eq_right order, single]
    exact iff_of_true (by simp [Gives, TableList.entries, moreEntries, added]) (Or.inl rfl)
  | cons m more =>
    obtain ⟨key, back, begins, isKey⟩ := m.before_eq
    have follows : moreTokens (m :: more) ++ semicolons =
        key :: (back ++ (m.ref.tokens ++ (m.behind ++ (moreTokens more ++ semicolons)))) := by
      simp [moreTokens, MoreTable.tokens, begins]
    have found := @firstOf_window ts _ _ start stop firstKeyIds key (follows ▸ parts)
      (first.firstIn_tokens (by decide)) un.level isKey
    rw [found, TableList.Reported, or_iff_right (by simp)]
    simp only [Option.bind_eq_bind, Option.bind_some, if_true, tokenId_window (follows ▸ behind)]
    rw [show start + first.tokens.length - start = first.tokens.length by omega]
    by_cases long : first.tokens.length > 5
    · -- The first table is passed over, and so are all places before the key.
      rw [if_pos long]
      refine iff_of_false (not_gives_of_missing (fun r done => added_parseFirstTable done)
        List.mem_cons_self ?_) fun both => by omega
      show start + first.place < _
      split <;> omega
    · obtain ⟨b, s', single, added⟩ := @parseSimple_window ts [] first.tokens _ _ (by simp) un.ends
        (by rw [here, List.append_nil]) (Nat.le_add_right _ _) (by omega) s query
      rw [tableEntries_ref] at added
      have rest := (@walked ts query _ _ inside areSemicolons (m :: more)).after
        (stop + 2 - (start + first.tokens.length)) s' (start + first.tokens.length) true
          [] (by omega)
        (by omega) (Nat.le_refl _) behind .nil fun none_ => by cases none_
      rw [if_neg long, single, Option.bind_some, ← rest]
      refine (gives_cons_iff added).symm.trans ?_
      exact ⟨fun all => ⟨by omega, all⟩, fun both => both.2⟩

end

end OneProxy.Sql
