import Mathlib.Data.List.SplitBy
import OneProxy.Lib.Search
import OneProxy.Lib.Splicing
import OneProxy.Sql.Tokenizer

/-! Prepared statements: the values of their parameters are put into the text. -/

namespace OneProxy

open Splicing

/-! ## The code -/

/-- `PreparedParamType`. -/
inductive PreparedParamType
  | string | other
  deriving DecidableEq

/-- `PreparedParamT`. Its positions are 32 bits wide, as every length of a text is. -/
structure PreparedParam where
  paramName : Bytes
  paramType : PreparedParamType
  paramStartPos : Nat
  paramEndPos : Nat

/-- `PreparedDataInfoT`, with as many parameters as `paramNum` says. -/
structure PreparedDataInfo where
  sql : Bytes
  param : List PreparedParam
  paramValueVec : List Bytes

namespace PreparedParam

/-- Marks the first occurrence of the name. -/
def mark (sql : Bytes) (p : PreparedParam) : PreparedParam :=
  match Search.find p.paramName sql with
  | some startPos => { p with
      paramStartPos := startPos, paramEndPos := startPos + p.paramName.length }
  | none => { p with paramStartPos := 0, paramEndPos := 0 }

/-- What is written instead of the name. -/
def shown (p : PreparedParam) (value : Bytes) : Bytes :=
  match p.paramType with
  | .string => 34 :: value ++ [34]
  | .other => value

/-- Writes the value to the place that was marked, if the text reaches as far. -/
def fill (p : PreparedParam) (value tmpsql : Bytes) : Option Bytes :=
  if p.paramStartPos = 0 ∨ p.paramEndPos = 0 then some tmpsql
  else Edit.apply ⟨p.paramStartPos, p.paramEndPos, p.shown value⟩ tmpsql

end PreparedParam

namespace PreparedDataInfo

/-- `mark_sqlParamPosition`. -/
def markSqlParamPosition (info : PreparedDataInfo) : PreparedDataInfo :=
  if info.sql.length > 0 ∧ info.param.length > 0 then
    { info with param := info.param.map (PreparedParam.mark info.sql) }
  else info

/-- The loop of `fill_originSqlValue`, from the last parameter to the first one. -/
def fillFrom : List (PreparedParam × Bytes) → Bytes → Option Bytes
  | [], tmpsql => some tmpsql
  | (p, value) :: rest, tmpsql => (fillFrom rest tmpsql).bind (p.fill value)

/-- `fill_originSqlValue`: the text that is output, if there is one at all. -/
def fillOriginSqlValue (info : PreparedDataInfo) : Option (Option Bytes) :=
  if info.param.length ≤ 0 ∨ info.sql.length ≤ 0 then
    some (if info.sql.length > 0 then some info.sql else none)
  else if info.param.length ≠ info.paramValueVec.length then some (some info.sql)
  else (fillFrom (info.param.zip info.paramValueVec) info.sql).map some

end PreparedDataInfo

/-! ## Its purpose -/

/-- The identifiers of a text, as long as they are, and the single characters between them. -/
def words (sql : Bytes) : List Bytes :=
  sql.splitBy fun a b => Sql.Rule.inName a && Sql.Rule.inName b

/-- A word, or the value that belongs there. -/
def replacement : List (PreparedParam × Bytes) → Bytes → Bytes
  | [], word => word
  | (p, value) :: rest, word =>
    if p.paramName = word then p.shown value else replacement rest word

/-- A text with each placeholder replaced by its own value. -/
def substituted (sql : Bytes) (params : List PreparedParam) (values : List Bytes) : Bytes :=
  (words sql).flatMap (replacement (params.zip values))

/-- How far into a list of words the text of a word begins. -/
def place (ws : List Bytes) (word : Bytes) : Nat := (ws.takeWhile (· ≠ word)).flatten.length

/-- The parameters have names of their own, each of them once in the text. -/
structure Placeholders (ws : List Bytes) (params : List PreparedParam) : Prop where
  distinct : (params.map (·.paramName)).Nodup
  once : ∀ p ∈ params, ws.count p.paramName = 1
  identifier : ∀ p ∈ params, ∀ c ∈ p.paramName, Sql.Rule.inName c = true

/-! ## Words -/

section

variable {ws : List Bytes} {w word : Bytes} {pairs : List (PreparedParam × Bytes)}

@[simp] theorem place_cons_self : place (word :: ws) word = 0 := by simp [place]

theorem place_cons_of_ne (differ : w ≠ word) : place (w :: ws) word = w.length + place ws word := by
  simp [place, differ]

theorem replacement_of_notMem (absent : word ∉ pairs.map (·.1.paramName)) :
    replacement pairs word = word := by
  induction pairs with
  | nil => rfl
  | cons pair pairs ih =>
    rw [List.map_cons, List.mem_cons, not_or] at absent
    rw [replacement, if_neg (Ne.symm absent.1), ih absent.2]

/-- A parameter whose name is not among the words makes no difference. -/
theorem flatMap_replacement_cons {p : PreparedParam} {value : Bytes} (absent : p.paramName ∉ ws) :
    ws.flatMap (replacement ((p, value) :: pairs)) = ws.flatMap (replacement pairs) := by
  refine List.flatMap_congr fun word member => ?_
  have differ : p.paramName ≠ word := by
    rintro rfl
    exact absent member
  rw [replacement, if_neg differ]

/-- The first name is none of the others. -/
theorem name_ne {head pair : PreparedParam × Bytes}
    (distinct : ((head :: pairs).map (·.1.paramName)).Nodup) (member : pair ∈ pairs) :
    head.1.paramName ≠ pair.1.paramName := by
  intro same
  refine (List.nodup_cons.mp distinct).1 ?_
  exact List.mem_map.mpr ⟨pair, member, same.symm⟩

/-- A word that is there once is not behind its place. -/
theorem notMem_of_count_one (once : (word :: ws).count word = 1) : word ∉ ws := by
  rw [List.count_cons_self] at once
  exact List.count_eq_zero.mp (by omega)

/-- Every value is counted once. -/
theorem count_substituted (b : UInt8) (distinct : (pairs.map (·.1.paramName)).Nodup)
    (once : ∀ pair ∈ pairs, ws.count pair.1.paramName = 1)
    (free : ∀ pair ∈ pairs, b ∉ pair.1.paramName) :
    (ws.flatMap (replacement pairs)).count b =
      ws.flatten.count b + (pairs.map fun pair => (pair.1.shown pair.2).count b).sum := by
  induction pairs with
  | nil =>
    have same : ws.flatMap (replacement []) = ws.flatten := by
      rw [← List.flatMap_id]
      rfl
    simp [same]
  | cons pair pairs ih =>
    obtain ⟨p, value⟩ := pair
    have counted := ih (List.nodup_cons.mp distinct).2
      (fun pair member => once pair (List.mem_cons_of_mem _ member))
      (fun pair member => free pair (List.mem_cons_of_mem _ member))
    have single := once (p, value) List.mem_cons_self
    -- The words before the name and those behind it are not the name.
    obtain ⟨front, back, rfl, fresh⟩ :=
      List.eq_append_cons_of_mem
        (List.count_pos_iff.mp (Nat.lt_of_lt_of_eq Nat.one_pos single.symm))
    rw [List.count_append, List.count_eq_zero.mpr fresh, Nat.zero_add] at single
    have behind := notMem_of_count_one single
    have other := replacement_of_notMem (List.nodup_cons.mp distinct).1
    rw [List.flatMap_append, List.flatMap_cons, other] at counted
    rw [List.flatMap_append, List.flatMap_cons, flatMap_replacement_cons fresh,
      flatMap_replacement_cons behind, replacement, if_pos rfl, List.map_cons, List.sum_cons]
    have none_ : p.paramName.count b = 0 :=
      List.count_eq_zero.mpr (free (p, value) List.mem_cons_self)
    simp only [List.count_append] at counted ⊢
    omega

end

/-! ## Marks in the order of the text -/

section

variable {sql : Bytes} {ws : List Bytes} {i : Nat} {pairs : List (PreparedParam × Bytes)}

/-- The edit that a value makes. -/
def edit (pair : PreparedParam × Bytes) : Edit UInt8 :=
  ⟨pair.1.paramStartPos, pair.1.paramEndPos, pair.1.shown pair.2⟩

/-- The marks are the places of the names, in the order of the list. -/
structure InPlace (ws : List Bytes) (i : Nat) (pairs : List (PreparedParam × Bytes)) : Prop where
  start : ∀ pair ∈ pairs, pair.1.paramStartPos = i + place ws pair.1.paramName
  stop : ∀ pair ∈ pairs, pair.1.paramEndPos = pair.1.paramStartPos + pair.1.paramName.length
  order : (pairs.map (·.1.paramStartPos)).Pairwise (· < ·)

/-- The names are among the words, each of them once. -/
structure Named (ws : List Bytes) (pairs : List (PreparedParam × Bytes)) : Prop where
  distinct : (pairs.map (·.1.paramName)).Nodup
  once : ∀ pair ∈ pairs, ws.count pair.1.paramName = 1

/-- The first of several names is not among the words behind it. -/
theorem Named.tail {p : PreparedParam} {value : Bytes}
    (named : Named (p.paramName :: ws) ((p, value) :: pairs)) :
    p.paramName ∉ ws ∧ Named ws pairs := by
  refine ⟨notMem_of_count_one (named.once _ List.mem_cons_self),
    (List.nodup_cons.mp named.distinct).2, fun pair member => ?_⟩
  have single := named.once pair (List.mem_cons_of_mem _ member)
  rwa [List.count_cons_of_ne (name_ne named.distinct member)] at single

/-- A word that is no name may be passed over. -/
theorem Named.skip {w : Bytes} (named : Named (w :: ws) pairs)
    (absent : ∀ pair ∈ pairs, w ≠ pair.1.paramName) : Named ws pairs := by
  refine ⟨named.distinct, fun pair member => ?_⟩
  have single := named.once pair member
  rwa [List.count_cons_of_ne (absent pair member)] at single

/-- The first word, and what the text goes on with. -/
theorem words_cons {w : Bytes} (rest : sql.drop i = (w :: ws).flatten) :
    (sql.take (i + w.length)).drop i = w ∧ sql.drop (i + w.length) = ws.flatten := by
  constructor
  · rw [List.drop_take, rest, List.flatten_cons, Nat.add_sub_cancel_left, List.take_left]
  · rw [← List.drop_drop, rest, List.flatten_cons, List.drop_left]

theorem flatMap_skip {w : Bytes} (absent : ∀ pair ∈ pairs, w ≠ pair.1.paramName) :
    (w :: ws).flatMap (replacement pairs) = w ++ ws.flatMap (replacement pairs) := by
  have kept : replacement pairs w = w := by
    refine replacement_of_notMem fun member => ?_
    obtain ⟨pair, inside, name⟩ := List.mem_map.mp member
    exact absent pair inside name.symm
  rw [List.flatMap_cons, kept]

theorem flatMap_first {p : PreparedParam} {value : Bytes} (gone : p.paramName ∉ ws) :
    (p.paramName :: ws).flatMap (replacement ((p, value) :: pairs)) =
      p.shown value ++ ws.flatMap (replacement pairs) := by
  rw [List.flatMap_cons, replacement, if_pos rfl, flatMap_replacement_cons gone]

/-- An edit of the text where it begins. -/
theorem atOnce_first {pair : PreparedParam × Bytes} (start : pair.1.paramStartPos = i) :
    atOnce sql i ((pair :: pairs).map edit) =
      pair.1.shown pair.2 ++ atOnce sql pair.1.paramEndPos (pairs.map edit) := by
  rw [List.map_cons, atOnce, edit, start, List.drop_take_self, List.nil_append]

/-- Behind a word, the places of the other names come nearer. -/
theorem place_next {w word : Bytes} (differ : w ≠ word) :
    i + w.length + place ws word = i + place (w :: ws) word := by
  rw [place_cons_of_ne differ, Nat.add_assoc]

/-- A word that is not the first name is no name, since the first mark is the least. -/
theorem InPlace.absent {w : Bytes} (inPlace : InPlace (w :: ws) i pairs)
    (first : ∀ p value tail, pairs = (p, value) :: tail → w ≠ p.paramName) :
    ∀ pair ∈ pairs, w ≠ pair.1.paramName := by
  intro pair member same
  cases pairs with
  | nil => exact absurd member List.not_mem_nil
  | cons head tail =>
    rcases List.mem_cons.mp member with rfl | member
    · exact first pair.1 pair.2 tail rfl same
    · have start := inPlace.start pair (List.mem_cons_of_mem _ member)
      rw [same, place_cons_self, Nat.add_zero] at start
      have less : head.1.paramStartPos < pair.1.paramStartPos :=
        (List.pairwise_cons.mp inPlace.order).1 _ (List.mem_map.mpr ⟨pair, member, rfl⟩)
      have least := inPlace.start head List.mem_cons_self
      omega

theorem InPlace.skip {w : Bytes} (inPlace : InPlace (w :: ws) i pairs)
    (absent : ∀ pair ∈ pairs, w ≠ pair.1.paramName) : InPlace ws (i + w.length) pairs := by
  refine ⟨fun pair member => ?_, inPlace.stop, inPlace.order⟩
  rw [inPlace.start pair member, place_next (absent pair member)]

theorem InPlace.tail {p : PreparedParam} {value : Bytes}
    (named : Named (p.paramName :: ws) ((p, value) :: pairs))
    (inPlace : InPlace (p.paramName :: ws) i ((p, value) :: pairs)) :
    InPlace ws (i + p.paramName.length) pairs := by
  refine ⟨fun pair member => ?_,
    fun pair member => inPlace.stop pair (List.mem_cons_of_mem _ member),
    (List.pairwise_cons.mp inPlace.order).2⟩
  rw [inPlace.start pair (List.mem_cons_of_mem _ member),
    place_next (name_ne named.distinct member)]

/-- Edits in place, made at once, replace each name by its value. -/
theorem atOnce_inPlace (rest : sql.drop i = ws.flatten) (le : i ≤ sql.length)
    (named : Named ws pairs)
    (inPlace : InPlace ws i pairs) : Apart sql i (pairs.map edit) ∧
      atOnce sql i (pairs.map edit) = ws.flatMap (replacement pairs) := by
  -- Word by word; a word is the first name that is left, or no name at all.
  induction ws generalizing i pairs with
  | nil =>
    cases pairs with
    | nil => exact ⟨le, rest⟩
    | cons pair pairs => exact absurd (named.once pair List.mem_cons_self) (by simp)
  | cons w ws ih =>
    have wordLength : i + w.length ≤ sql.length := by
      have lengths := congrArg List.length rest
      rw [List.length_drop, List.flatten_cons, List.length_append] at lengths
      omega
    obtain ⟨here, next⟩ := words_cons rest
    by_cases first : ∃ p value tail, pairs = (p, value) :: tail ∧ w = p.paramName
    · obtain ⟨p, value, tail, rfl, rfl⟩ := first
      obtain ⟨gone, namedTail⟩ := named.tail
      have start := inPlace.start (p, value) List.mem_cons_self
      have stop := inPlace.stop (p, value) List.mem_cons_self
      rw [place_cons_self, Nat.add_zero] at start
      dsimp only at start stop
      rw [start] at stop
      obtain ⟨apart, same⟩ := ih next wordLength namedTail (inPlace.tail named)
      rw [atOnce_first start, flatMap_first gone, stop, same]
      refine ⟨⟨Nat.le_of_eq start.symm, ?_, ?_⟩, rfl⟩
      · change p.paramStartPos ≤ p.paramEndPos
        omega
      · change Apart sql p.paramEndPos _
        rwa [stop]
    · have absent := inPlace.absent fun p value tail pairs_ name =>
        first ⟨p, value, tail, pairs_, name⟩
      obtain ⟨apart, same⟩ := ih next wordLength (named.skip absent) (inPlace.skip absent)
      refine ⟨apart.mono (Nat.le_add_right _ _), ?_⟩
      rw [atOnce_split apart (Nat.le_add_right _ _), here, same, flatMap_skip absent]

/-- A word that is kept has no quote where the first value begins. -/
theorem atOnce_ne_of_kept {w : Bytes} {head : PreparedParam × Bytes}
    (here : (sql.take (i + w.length)).drop i = w) (le : i ≤ head.1.paramStartPos)
    (inside : head.1.paramStartPos < i + w.length) (within : head.1.paramStartPos ≤ sql.length)
    (unquoted : sql[head.1.paramStartPos]? ≠ some 34)
    (quoted : (head.1.shown head.2)[0]? = some 34) (tail : List (Edit UInt8)) (more : Bytes) :
    atOnce sql i (edit head :: tail) ≠ w ++ more := by
  -- The characters at the place of the mark are a quote on the one side, and none on the other.
  intro same
  have frontLength : ((sql.take head.1.paramStartPos).drop i).length =
      head.1.paramStartPos - i := by
    rw [List.length_drop, List.length_take]
    omega
  have at_ := congrArg (·[head.1.paramStartPos - i]?) same
  rw [atOnce] at at_
  change ((sql.take head.1.paramStartPos).drop i ++ (head.1.shown head.2 ++ _))[_]? = _ at at_
  have long : 0 < (head.1.shown head.2).length := by
    rw [List.getElem?_eq_some_iff] at quoted
    exact quoted.1
  rw [List.getElem?_append_right (Nat.le_of_eq frontLength), frontLength, Nat.sub_self,
    List.getElem?_append_left long, quoted, List.getElem?_append_left (by omega), ← here,
    List.getElem?_drop, List.getElem?_take, if_pos (by omega), Nat.add_sub_cancel' le] at at_
  exact unquoted at_.symm

/-- Marks that are not behind the places of their names are not behind them after a word either. -/
theorem early_next {w : Bytes}
    (early : ∀ pair ∈ pairs, pair.1.paramStartPos ≤ i + place (w :: ws) pair.1.paramName)
    (absent : ∀ pair ∈ pairs, w ≠ pair.1.paramName) :
    ∀ pair ∈ pairs, pair.1.paramStartPos ≤ i + w.length + place ws pair.1.paramName := by
  intro pair member
  rw [place_next (absent pair member)]
  exact early pair member

/-- A word that ends before all marks begin is none of their names. -/
theorem absent_of_behind {w : Bytes} {j : Nat} (less : i < j) (apart : Apart sql j (pairs.map edit))
    (early : ∀ pair ∈ pairs, pair.1.paramStartPos ≤ i + place (w :: ws) pair.1.paramName) :
    ∀ pair ∈ pairs, w ≠ pair.1.paramName := by
  intro pair member name
  have before := early pair member
  have after := apart.le_start (edit pair) (List.mem_map_of_mem member)
  rw [name, place_cons_self] at before
  change j ≤ pair.1.paramStartPos at after
  omega

/--
Edits that come to the same as the values in place are in place.

Each value begins with a quote, and a mark is never behind the place of its name.
-/
theorem place_of_atOnce (rest : sql.drop i = ws.flatten) (someWords : ∀ w ∈ ws, w ≠ [])
    (named : Named ws pairs) (apart : Apart sql i (pairs.map edit))
    (stop : ∀ pair ∈ pairs, pair.1.paramEndPos = pair.1.paramStartPos + pair.1.paramName.length)
    (early : ∀ pair ∈ pairs, pair.1.paramStartPos ≤ i + place ws pair.1.paramName)
    (unquoted : ∀ pair ∈ pairs, sql[pair.1.paramStartPos]? ≠ some 34)
    (quoted : ∀ pair ∈ pairs, (pair.1.shown pair.2)[0]? = some 34)
    (same : atOnce sql i (pairs.map edit) = ws.flatMap (replacement pairs)) :
    ∀ pair ∈ pairs, pair.1.paramStartPos = i + place ws pair.1.paramName := by
  -- Word by word, by where the first mark is: behind the word, on a name, or on a word that is
  -- kept.
  induction ws generalizing i pairs with
  | nil => exact fun pair member => absurd (named.once pair member) (by simp)
  | cons w ws ih =>
    cases pairs with
    | nil => exact fun pair member => absurd member List.not_mem_nil
    | cons head tail =>
      obtain ⟨here, next⟩ := words_cons rest
      have someRest : ∀ w ∈ ws, w ≠ [] :=
        fun w member => someWords w (List.mem_cons_of_mem _ member)
      have wordLength : 0 < w.length := List.length_pos_iff.mpr (someWords w List.mem_cons_self)
      have headStop := stop head List.mem_cons_self
      obtain ⟨le, range, later⟩ := apart
      by_cases behind : i + w.length ≤ head.1.paramStartPos
      · -- The word is before all marks, so that it is no name.
        have apartNext : Apart sql (i + w.length) ((head :: tail).map edit) :=
          ⟨behind, range, later⟩
        have absent := absent_of_behind (by omega) apartNext early
        rw [atOnce_split apartNext (Nat.le_add_right _ _), here, flatMap_skip absent,
          List.append_cancel_left_eq] at same
        intro pair member
        rw [ih next someRest (named.skip absent) apartNext stop (early_next early absent) unquoted
          quoted same pair member, place_next (absent pair member)]
      by_cases name : w = head.1.paramName
      · -- The word is the first name, and its mark is on it.
        subst name
        obtain ⟨p, value⟩ := head
        obtain ⟨gone, namedTail⟩ := named.tail
        have start : p.paramStartPos = i := by
          have before := early (p, value) List.mem_cons_self
          rw [place_cons_self] at before
          exact Nat.le_antisymm before le
        have nextStart : p.paramEndPos = i + p.paramName.length := by rw [headStop, start]
        rw [atOnce_first start, flatMap_first gone, List.append_cancel_left_eq, nextStart] at same
        have apartTail : Apart sql (i + p.paramName.length) (tail.map edit) := nextStart ▸ later
        have inTail := fun pair member => @List.mem_cons_of_mem _ (p, value) pair tail member
        have earlyTail := early_next (fun pair member => early pair (inTail pair member))
          (fun pair => name_ne named.distinct)
        intro pair member
        rcases List.mem_cons.mp member with rfl | member
        · rw [place_cons_self]
          exact start
        · rw [ih next someRest namedTail apartTail
            (fun pair member => stop pair (inTail pair member))
            earlyTail (fun pair member => unquoted pair (inTail pair member))
            (fun pair member => quoted pair (inTail pair member)) same pair member,
            place_next (name_ne named.distinct member)]
      · -- The word is no name either, and the first value would begin inside it.
        have someName : 0 < head.1.paramName.length := by
          have single := named.once head List.mem_cons_self
          have member : head.1.paramName ∈ w :: ws := List.count_pos_iff.mp (by omega)
          exact List.length_pos_iff.mpr (someWords _ member)
        change i ≤ head.1.paramStartPos at le
        have absentTail := absent_of_behind (j := head.1.paramEndPos) (by omega) later
          (fun pair member => early pair (List.mem_cons_of_mem _ member))
        have absent : ∀ pair ∈ head :: tail, w ≠ pair.1.paramName := by
          intro pair member
          rcases List.mem_cons.mp member with rfl | member
          · exact name
          · exact absentTail pair member
        rw [flatMap_skip absent, List.map_cons] at same
        have within : head.1.paramStartPos ≤ sql.length := Nat.le_trans range later.le
        exact absurd same (atOnce_ne_of_kept here le (by omega) within
          (unquoted head List.mem_cons_self) (quoted head List.mem_cons_self) _ _)

end

/-! ## What is output -/

namespace PreparedParam

variable {sql : Bytes} {params : List PreparedParam} {values : List Bytes} {p : PreparedParam}
  {pairs : List (PreparedParam × Bytes)}

@[simp] theorem mark_paramName : (p.mark sql).paramName = p.paramName := by
  rw [mark]
  split <;> rfl

@[simp] theorem mark_shown (value : Bytes) : (p.mark sql).shown value = p.shown value := by
  rw [mark]
  split <;> rfl

/-- A parameter that is skipped has no mark. -/
def Skipped (p : PreparedParam) : Prop := p.paramStartPos = 0 ∨ p.paramEndPos = 0

instance (p : PreparedParam) : Decidable p.Skipped := inferInstanceAs (Decidable (_ ∨ _))

end PreparedParam

section

variable {sql out : Bytes} {params : List PreparedParam} {values : List Bytes} {p : PreparedParam}
  {pairs : List (PreparedParam × Bytes)}

theorem fillFrom_eq : PreparedDataInfo.fillFrom pairs sql =
    applyAll ((pairs.filter fun pair => ¬ pair.1.Skipped).map edit) sql := by
  induction pairs with
  | nil => rfl
  | cons pair pairs ih =>
    obtain ⟨p, value⟩ := pair
    rw [PreparedDataInfo.fillFrom, ih]
    by_cases skipped : p.Skipped
    · rw [List.filter_cons_of_neg (by simpa using skipped)]
      have unchanged : p.fill value = some := by
        funext tmpsql
        exact if_pos skipped
      rw [unchanged, Option.bind_fun_some]
    · rw [List.filter_cons_of_pos (by simpa using skipped), List.map_cons, applyAll]
      have filled : p.fill value = (edit (p, value)).apply := by
        funext tmpsql
        exact if_neg skipped
      rw [filled]

/-- The marks change nothing about the names and the values. -/
theorem replacement_mark (sql word : Bytes) (params : List PreparedParam) (values : List Bytes) :
    replacement ((params.map (PreparedParam.mark sql)).zip values) word =
      replacement (params.zip values) word := by
  induction params generalizing values with
  | nil => rfl
  | cons p params ih =>
    cases values with
    | nil => rfl
    | cons value values =>
      rw [List.map_cons, List.zip_cons_cons, List.zip_cons_cons, replacement, replacement, ih,
        PreparedParam.mark_paramName, PreparedParam.mark_shown]

/-- Every word begins at its place. -/
theorem split_place {ws : List Bytes} {word : Bytes} (member : word ∈ ws) :
    ∃ front back, ws.flatten = front ++ word ++ back ∧ front.length = place ws word := by
  induction ws with
  | nil => exact absurd member List.not_mem_nil
  | cons w ws ih =>
    by_cases here : w = word
    · subst here
      exact ⟨[], ws.flatten, rfl, place_cons_self.symm⟩
    · obtain ⟨front, back, same, length⟩ := ih (List.mem_of_ne_of_mem (Ne.symm here) member)
      refine ⟨w ++ front, back, ?_, ?_⟩
      · rw [List.flatten_cons, same]
        simp only [List.append_assoc]
      · rw [List.length_append, length, place_cons_of_ne here]

/-- Nothing is lost by a filter that loses no amount, if there are amounts in all. -/
theorem all_of_sum_filter {α : Type*} (l : List α) (keep : α → Bool) (f : α → Nat)
    (positive : ∀ a ∈ l, 0 < f a) (le : (l.map f).sum ≤ ((l.filter keep).map f).sum) :
    ∀ a ∈ l, keep a = true := by
  -- A filter can only lose.
  have fewer : ∀ l : List α, ((l.filter keep).map f).sum ≤ (l.map f).sum := by
    intro l
    induction l with
    | nil => exact Nat.le_refl _
    | cons a l ih =>
      rw [List.filter_cons]
      split
      · rw [List.map_cons, List.map_cons, List.sum_cons, List.sum_cons]
        omega
      · rw [List.map_cons, List.sum_cons]
        omega
  induction l with
  | nil => exact fun a member => absurd member List.not_mem_nil
  | cons a l ih =>
    have first := positive a List.mem_cons_self
    have rest := fewer l
    rw [List.filter_cons, List.map_cons, List.sum_cons] at le
    by_cases kept : keep a = true
    · rw [if_pos kept, List.map_cons, List.sum_cons] at le
      intro other member
      rcases List.mem_cons.mp member with rfl | member
      · exact kept
      · exact ih (fun a member => positive a (List.mem_cons_of_mem _ member)) (by omega)
          other member
    · rw [if_neg kept] at le
      omega

end

/-! ## When the values come to the right places -/

/-- Whatever the values are, the text is output with each placeholder replaced by its own. -/
def Substitutes (sql : Bytes) (params : List PreparedParam) : Prop :=
  ∀ values, values.length = params.length →
    (PreparedDataInfo.mk sql params values).markSqlParamPosition.fillOriginSqlValue =
      some (some (substituted sql params values))

/--
What the code relies on.

Each name is found first where it is a placeholder, and not at the beginning of the text. The
parameters are listed in the order of the text.
-/
structure Listed (sql : Bytes) (params : List PreparedParam) : Prop where
  someText : sql ≠ []
  found : ∀ p ∈ params, Search.find p.paramName sql = some (place (words sql) p.paramName)
  notFirst : ∀ p ∈ params, place (words sql) p.paramName ≠ 0
  inOrder : (params.map fun p => place (words sql) p.paramName).Pairwise (· < ·)

theorem flatten_words (sql : Bytes) : (words sql).flatten = sql := List.flatten_splitBy _ sql

theorem some_of_mem_words {sql word : Bytes} (member : word ∈ words sql) : word ≠ [] :=
  List.ne_nil_of_mem_splitBy member

/-- The marks of the parameters, with their values. -/
def marked (sql : Bytes) (params : List PreparedParam) (values : List Bytes) :
    List (PreparedParam × Bytes) := (params.map (PreparedParam.mark sql)).zip values

section

variable {sql : Bytes} {params : List PreparedParam} {values : List Bytes}

/-- With as many values as parameters, all the marks are filled in. -/
theorem fillOriginSqlValue_mark (someText : sql ≠ []) (length : values.length = params.length) :
    (PreparedDataInfo.mk sql params values).markSqlParamPosition.fillOriginSqlValue =
      (PreparedDataInfo.fillFrom (marked sql params values) sql).map some := by
  have long := List.length_pos_iff.mpr someText
  cases params with
  | nil =>
    simp [PreparedDataInfo.markSqlParamPosition, PreparedDataInfo.fillOriginSqlValue, marked,
      PreparedDataInfo.fillFrom, long]
  | cons p params =>
    have few : ¬ (((p :: params).map (PreparedParam.mark sql)).length ≤ 0 ∨ sql.length ≤ 0) := by
      rw [List.length_map, List.length_cons]
      omega
    have fits : ¬ ((p :: params).map (PreparedParam.mark sql)).length ≠ values.length := by
      rw [List.length_map, length]
      exact fun differ => differ rfl
    rw [PreparedDataInfo.markSqlParamPosition, if_pos ⟨long, Nat.succ_pos _⟩,
      PreparedDataInfo.fillOriginSqlValue, if_neg few, if_neg fits]
    rfl

/-- The marks make no difference to what should be output. -/
theorem substituted_eq : substituted sql params values =
    (words sql).flatMap (replacement (marked sql params values)) := by
  rw [substituted]
  exact List.flatMap_congr fun word _ => (replacement_mark sql word params values).symm

/-- A parameter of the list is one of those given, marked. -/
theorem mem_marked {pair : PreparedParam × Bytes} (member : pair ∈ marked sql params values) :
    ∃ p ∈ params, pair.1 = p.mark sql := by
  obtain ⟨p, inside, same⟩ := List.mem_map.mp (List.of_mem_zip member).1
  exact ⟨p, inside, same.symm⟩

/-- With as many values as parameters, every parameter is in the list. -/
theorem map_marked (length : values.length = params.length) :
    (marked sql params values).map (·.1) = params.map (PreparedParam.mark sql) := by
  rw [marked]
  exact List.map_fst_zip (by rw [List.length_map, length])

theorem named_marked (placeholders : Placeholders (words sql) params)
    (length : values.length = params.length) : Named (words sql) (marked sql params values) := by
  refine ⟨?_, fun pair member => ?_⟩
  · have names : (marked sql params values).map (·.1.paramName) = params.map (·.paramName) := by
      have first := congrArg (List.map (·.paramName)) (@map_marked sql _ _ length)
      rw [List.map_map, List.map_map] at first
      exact first.trans (List.map_congr_left fun p _ => PreparedParam.mark_paramName)
    rw [names]
    exact placeholders.distinct
  · obtain ⟨p, inside, same⟩ := mem_marked member
    rw [same, PreparedParam.mark_paramName]
    exact placeholders.once p inside

/-- A name is marked where it is first found, which is not behind its placeholder. -/
structure MarkedAt (sql : Bytes) (p : PreparedParam) : Prop where
  found : Search.find p.paramName sql = some (p.mark sql).paramStartPos
  stop : (p.mark sql).paramEndPos = (p.mark sql).paramStartPos + p.paramName.length
  some_ : 0 < p.paramName.length
  early : (p.mark sql).paramStartPos ≤ place (words sql) p.paramName
  within : (p.mark sql).paramEndPos ≤ sql.length
  unquoted : sql[(p.mark sql).paramStartPos]? ≠ some 34

theorem markedAt (placeholders : Placeholders (words sql) params) {p : PreparedParam}
    (member : p ∈ params) : MarkedAt sql p := by
  have single := placeholders.once p member
  have isWord : p.paramName ∈ words sql := List.count_pos_iff.mp (by omega)
  have some_ := List.length_pos_iff.mpr (some_of_mem_words isWord)
  obtain ⟨front, back, whole, length⟩ := split_place isWord
  rw [flatten_words] at whole
  obtain ⟨before, after, first⟩ := Search.exists_first ⟨front, back, whole.symm⟩
  have found := first.find
  have start : (p.mark sql).paramStartPos = before.length := by rw [PreparedParam.mark, found]
  have stop : (p.mark sql).paramEndPos = before.length + p.paramName.length := by
    rw [PreparedParam.mark, found]
  have text := first.text_eq
  refine ⟨by rw [start, found], by rw [start, stop], some_, ?_, ?_, ?_⟩
  · rw [start, ← length]
    exact first.first front back whole
  · rw [stop, text, List.length_append, List.length_append]
    omega
  · -- The first character of the name stands there.
    intro quote
    rw [start, text, List.append_assoc, List.getElem?_append_right (Nat.le_refl _), Nat.sub_self,
      List.getElem?_append_left some_] at quote
    exact absurd (placeholders.identifier p member 34 (List.mem_of_getElem? quote)) (by decide)

/-- If all is in place, every placeholder gets its value. -/
theorem Listed.substitutes (listed : Listed sql params)
    (placeholders : Placeholders (words sql) params) : Substitutes sql params := by
  intro values length
  -- A name that is found where it belongs is not skipped, since it is not the first character.
  have at_ : ∀ pair ∈ marked sql params values, ¬ pair.1.Skipped ∧
      pair.1.paramStartPos = 0 + place (words sql) pair.1.paramName ∧
        pair.1.paramEndPos = pair.1.paramStartPos + pair.1.paramName.length := by
    intro pair member
    obtain ⟨p, inside, same⟩ := mem_marked member
    have mark := markedAt placeholders inside
    have start : (p.mark sql).paramStartPos = place (words sql) p.paramName :=
      Option.some.inj (mark.found.symm.trans (listed.found p inside))
    have notFirst := listed.notFirst p inside
    have stop := mark.stop
    rw [same, PreparedParam.mark_paramName, Nat.zero_add]
    refine ⟨?_, start, stop⟩
    rw [PreparedParam.Skipped]
    omega
  have all : (marked sql params values).filter (fun pair => ¬ pair.1.Skipped) =
      marked sql params values :=
    List.filter_eq_self.mpr fun pair member => by simpa using (at_ pair member).1
  have inPlace : InPlace (words sql) 0 (marked sql params values) := by
    refine ⟨fun pair member => (at_ pair member).2.1, fun pair member => (at_ pair member).2.2, ?_⟩
    have starts : (marked sql params values).map (·.1.paramStartPos) =
        params.map fun p => place (words sql) p.paramName := by
      have first := congrArg (List.map (·.paramStartPos)) (@map_marked sql _ _ length)
      rw [List.map_map, List.map_map] at first
      refine first.trans (List.map_congr_left fun p inside => ?_)
      exact Option.some.inj
        ((markedAt placeholders inside).found.symm.trans (listed.found p inside))
    rw [starts]
    exact listed.inOrder
  obtain ⟨apart, same⟩ := atOnce_inPlace (by rw [flatten_words]; rfl) (Nat.zero_le _)
    (named_marked placeholders length) inPlace
  rw [fillOriginSqlValue_mark listed.someText length, fillFrom_eq, all, applyAll_eq apart, same,
    Option.map_some, List.take_zero, List.nil_append, substituted_eq]

/-- Values of quotes, longer than the text. -/
def quotes (sql : Bytes) (params : List PreparedParam) : List Bytes :=
  List.replicate params.length (List.replicate (sql.length + 1) 34)

/-- Shown or not shown as a string, such a value is nothing but quotes. -/
theorem shown_quotes {pair : PreparedParam × Bytes}
    (member : pair ∈ marked sql params (quotes sql params)) :
    ∃ n, sql.length < n ∧ pair.1.shown pair.2 = List.replicate n 34 := by
  have value : pair.2 = List.replicate (sql.length + 1) 34 :=
    List.eq_of_mem_replicate (List.of_mem_zip member).2
  rw [PreparedParam.shown, value]
  cases pair.1.paramType with
  | string =>
    refine ⟨sql.length + 3, by omega, ?_⟩
    rw [← List.replicate_succ, ← List.replicate_succ']
  | other => exact ⟨sql.length + 1, by omega, rfl⟩

/-- If all values come to their places, the code may rely on what it does. -/
theorem Substitutes.listed (substitutes : Substitutes sql params)
    (placeholders : Placeholders (words sql) params) : Listed sql params := by
  have length : (quotes sql params).length = params.length := List.length_replicate
  have right := substitutes (quotes sql params) length
  have someText : sql ≠ [] := by
    rintro rfl
    -- Nothing is output for an empty text.
    cases params with
    | nil =>
      rw [PreparedDataInfo.markSqlParamPosition, if_neg (by simp),
        PreparedDataInfo.fillOriginSqlValue, if_pos (by simp)] at right
      exact absurd right (by simp)
    | cons p params =>
      exact absurd (placeholders.once p List.mem_cons_self) (by simp [words])
  have named := named_marked placeholders length
  have marks : ∀ pair ∈ marked sql params (quotes sql params), ∃ p ∈ params, pair.1 = p.mark sql ∧
      MarkedAt sql p := by
    intro pair member
    obtain ⟨p, inside, same⟩ := mem_marked member
    exact ⟨p, inside, same, markedAt placeholders inside⟩
  rw [fillOriginSqlValue_mark someText length, fillFrom_eq, substituted_eq] at right
  obtain ⟨out, filled, same⟩ := Option.map_eq_some_iff.mp right
  rw [Option.some.injEq] at same
  subst same
  -- No quote is lost, so that no parameter is skipped and no value is written over another one.
  have total := count_substituted 34 named.distinct named.once fun pair member => by
    obtain ⟨p, inside, same, _⟩ := marks pair member
    rw [same, PreparedParam.mark_paramName]
    exact fun quote => absurd (placeholders.identifier p inside 34 quote) (by decide)
  rw [flatten_words] at total
  have range : ∀ pair ∈ marked sql params (quotes sql params),
      (edit pair).start < (edit pair).stop ∧ (edit pair).stop ≤ sql.length := by
    intro pair member
    obtain ⟨p, _, same, mark⟩ := marks pair member
    have stop := mark.stop
    have some_ := mark.some_
    have within := mark.within
    simp only [edit, same]
    omega
  have fewer := count_applyAll_le (b := 34) (fun e member => by
    obtain ⟨pair, inside, rfl⟩ := List.mem_map.mp member
    exact Nat.le_of_lt (range pair (List.mem_of_mem_filter inside)).1) filled
  rw [List.map_map] at fewer
  rw [total] at fewer
  have positive : ∀ pair ∈ marked sql params (quotes sql params),
      0 < (pair.1.shown pair.2).count 34 := by
    intro pair member
    obtain ⟨n, long, same⟩ := shown_quotes member
    rw [same, List.count_replicate_self]
    omega
  have kept := all_of_sum_filter (marked sql params (quotes sql params))
    (fun pair => ¬ pair.1.Skipped) (fun pair => (pair.1.shown pair.2).count 34) positive
    (Nat.le_of_add_le_add_left fewer)
  have all : (marked sql params (quotes sql params)).filter (fun pair => ¬ pair.1.Skipped) =
      marked sql params (quotes sql params) := List.filter_eq_self.mpr kept
  rw [all] at filled
  have apart := apart_of_count (b := 34) (fun e member => by
    obtain ⟨pair, inside, rfl⟩ := List.mem_map.mp member
    obtain ⟨n, long, same⟩ := shown_quotes inside
    exact ⟨(range pair inside).1, (range pair inside).2, n, Nat.le_of_lt long, same⟩) filled (by
    rw [total, List.map_map]
    exact Nat.le_refl _)
  rw [applyAll_eq apart, List.take_zero, List.nil_append, Option.some.injEq] at filled
  have places := place_of_atOnce (by rw [flatten_words]; rfl)
    (fun w member => some_of_mem_words member) named apart
    (fun pair member => by
      obtain ⟨p, _, same, mark⟩ := marks pair member
      rw [same, mark.stop, PreparedParam.mark_paramName])
    (fun pair member => by
      obtain ⟨p, _, same, mark⟩ := marks pair member
      rw [same, PreparedParam.mark_paramName, Nat.zero_add]
      exact mark.early)
    (fun pair member => by
      obtain ⟨p, _, same, mark⟩ := marks pair member
      rw [same]
      exact mark.unquoted)
    (fun pair member => by
      obtain ⟨n, long, same⟩ := shown_quotes member
      rw [same, List.getElem?_replicate, if_pos (by omega)])
    filled
  -- Every parameter is among the marked ones.
  have each : ∀ p ∈ params, ∃ pair ∈ marked sql params (quotes sql params), pair.1 =
      p.mark sql := by
    intro p member
    have inside : p.mark sql ∈ (marked sql params (quotes sql params)).map (·.1) := by
      rw [map_marked length]
      exact List.mem_map_of_mem member
    exact List.mem_map.mp inside
  have start : ∀ p ∈ params, (p.mark sql).paramStartPos = place (words sql) p.paramName ∧
      ¬ (p.mark sql).Skipped := by
    intro p member
    obtain ⟨pair, inside, same⟩ := each p member
    have found := places pair inside
    have notSkipped := kept pair inside
    rw [same, PreparedParam.mark_paramName, Nat.zero_add] at found
    rw [same] at notSkipped
    exact ⟨found, by simpa using notSkipped⟩
  refine ⟨someText, fun p member => ?_, fun p member first => ?_, ?_⟩
  · rw [← (start p member).1]
    exact (markedAt placeholders member).found
  · exact (start p member).2 (.inl ((start p member).1.trans first))
  · have order := apart.pairwise fun e member => by
      obtain ⟨pair, inside, rfl⟩ := List.mem_map.mp member
      exact (range pair inside).1
    have starts : ((marked sql params (quotes sql params)).map edit).map (·.start) =
        params.map fun p => place (words sql) p.paramName := by
      have first := congrArg (List.map (·.paramStartPos)) (@map_marked sql _ _ length)
      rw [List.map_map, List.map_map] at first
      rw [List.map_map]
      exact first.trans (List.map_congr_left fun p member => (start p member).1)
    rw [← starts]
    exact order

end

/-- The values come to their places exactly if the code's marks are in order. -/
theorem substitutes_iff (sql : Bytes) (params : List PreparedParam)
    (placeholders : Placeholders (words sql) params) :
    Substitutes sql params ↔ Listed sql params :=
  ⟨fun substitutes => substitutes.listed placeholders,
    fun listed => listed.substitutes placeholders⟩

/-- A parameter that is a string. -/
def stringParam (name : Bytes) : PreparedParam := ⟨name, .string, 0, 0⟩

/-- `a=@p1`, with one parameter. -/
theorem substitutes_single : Substitutes [97, 61, 64, 112, 49] [stringParam [64, 112, 49]] ↔
    Listed [97, 61, 64, 112, 49] [stringParam [64, 112, 49]] :=
  substitutes_iff _ _ ⟨by decide +kernel, by decide +kernel, by decide +kernel⟩

/-- `a=@q,@p`, with the parameters listed as `@p`, `@q`: the values are written over each other. -/
theorem reversed_not_substitutes :
    Placeholders (words [97, 61, 64, 113, 44, 64, 112])
      [stringParam [64, 112], stringParam [64, 113]] ∧
      ¬ Substitutes [97, 61, 64, 113, 44, 64, 112]
        [stringParam [64, 112], stringParam [64, 113]] := by
  refine ⟨⟨by decide +kernel, by decide +kernel, by decide +kernel⟩, fun substitutes => ?_⟩
  exact absurd (substitutes [[49], [50]] rfl) (by decide +kernel)

end OneProxy
