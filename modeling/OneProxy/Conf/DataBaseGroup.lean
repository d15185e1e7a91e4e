import Mathlib.Data.List.DropRight
import OneProxy.Lib.Separator
import OneProxy.Sql.Keywords

/-! The databases of a group, from the list of their labels. -/

namespace OneProxy

open Sql (toLower)

namespace Tool

/-- `strncasecmp` is 0: up to a number of characters, or a NUL, the strings differ in case only. -/
def strncasecmp (a b : Bytes) : Nat → Bool
  | 0 => true
  | n + 1 =>
    let x := a.headD 0
    let y := b.headD 0
    if toLower x ≠ toLower y then false
    else if x = 0 then true
    else strncasecmp a.tail b.tail n

/-- `strncasecmp_s` is 0: as many characters are compared as the second string has. -/
def strncasecmpS (a b : Bytes) : Bool := strncasecmp a b b.length

/-- `stringTrim`. -/
def stringTrim (s : Bytes) : Bytes := (s.dropWhile (· = 32)).rdropWhile (· = 32)

/-- `find_first_of` with one character: its first position from another on. -/
def findFirstOf (text : Bytes) (c : UInt8) (pos : Nat) : Option Nat :=
  ((text.drop pos).idxOf? c).map (pos + ·)

/-- Strings that are equal but for case compare equal. -/
theorem strncasecmp_of_sameName {a b : Bytes} (same : a.map toLower = b.map toLower) (n : Nat) :
    strncasecmp a b n = true := by
  -- The induction is on the number of characters; the shorter string does not end first.
  induction n generalizing a b with
  | zero => rfl
  | succ n ih =>
    cases a with
    | nil =>
      rw [List.map_nil] at same
      rw [List.map_eq_nil_iff.mp same.symm]
      rfl
    | cons x a =>
      cases b with
      | nil => simp at same
      | cons y b =>
        obtain ⟨head, tail⟩ := List.cons.inj same
        rw [strncasecmp]
        simp only [List.headD_cons, head, ne_eq, not_true_eq_false, if_false, List.tail_cons,
          ih tail, ite_self]

end Tool

namespace DataBaseGroup

open Tool

variable {δ : Type}

/-- The loop over the labels; the fuel bounds its rounds. -/
def groupLoop (labelName : δ → Bytes) (dbVec : List δ) (dbGroupName : Bytes) :
    Nat → Nat → List δ → Option (List δ)
  | 0, _, _ => none
  | fuel + 1, pos, dbGVec =>
    let curPos := (findFirstOf dbGroupName 44 pos).getD dbGroupName.length
    let dbLabelName := stringTrim ((dbGroupName.drop pos).take (curPos - pos))
    let dbGVec :=
      match dbVec.find? fun db => strncasecmpS (labelName db) dbLabelName with
      | some db => dbGVec ++ [db]
      | none => dbGVec
    if curPos ≥ dbGroupName.length then some dbGVec
    else groupLoop labelName dbVec dbGroupName fuel (curPos + 1) dbGVec

/-- `set_dataBaseGroupVec`. -/
def setDataBaseGroupVec (labelName : δ → Bytes) (dbVec : List δ) (dbGroupName : Bytes)
    (dbGVec : List δ) (fuel : Nat) : Option (List δ) :=
  if dbGroupName.length > 0 then groupLoop labelName dbVec dbGroupName fuel 0 dbGVec
  else some dbGVec

/-- The configured databases, no two of which have the same label but for case. -/
structure DataBases (δ : Type) where
  dbVec : List δ
  labelName : δ → Bytes
  distinct : dbVec.Pairwise fun a b => (labelName a).map toLower ≠ (labelName b).map toLower

/-- The labels of a list, trimmed. -/
def labels (dbGroupName : Bytes) : List Bytes := (dbGroupName.splitOn 44).map stringTrim

namespace DataBases

variable (databases : DataBases δ)

/-- A database has a label, but for case. -/
def Named (db : δ) (label : Bytes) : Prop :=
  (databases.labelName db).map toLower = label.map toLower

instance (db : δ) (label : Bytes) : Decidable (databases.Named db label) :=
  inferInstanceAs (Decidable (_ = _))

/-- The databases that a label stands for. -/
def members (label : Bytes) : List δ :=
  if label = [] then [] else databases.dbVec.filter fun db => databases.Named db label

/-- The first database whose label begins with a label. -/
def begins (label : Bytes) : Option δ :=
  databases.dbVec.find? fun db => strncasecmpS (databases.labelName db) label

/-- A group is to be what its labels stand for, in their order. -/
def Grouped (dbGroupName : Bytes) (dbGVec : List δ) : Prop :=
  ∃ enough, ∀ fuel, enough ≤ fuel →
    setDataBaseGroupVec databases.labelName databases.dbVec dbGroupName dbGVec fuel =
      some (dbGVec ++ (labels dbGroupName).flatMap databases.members)

/-- No label is empty, and what begins with a label has it. -/
def WholeLabels (dbGroupName : Bytes) : Prop :=
  dbGroupName ≠ [] → ∀ label ∈ labels dbGroupName, ∀ db, databases.begins label = some db →
    label ≠ [] ∧ databases.Named db label

variable {databases}

/-- What one label adds to the group. -/
theorem begins_of_named {db : δ} {label : Bytes} (member : db ∈ databases.dbVec)
    (named : databases.Named db label) : (databases.begins label).isSome := by
  rw [begins, List.find?_isSome]
  exact ⟨db, member, strncasecmp_of_sameName named _⟩

/-- A label stands for the database it is the label of, and for no other. -/
theorem members_eq {db : δ} {label : Bytes} (member : db ∈ databases.dbVec) (some_ : label ≠ [])
    (named : databases.Named db label) : databases.members label = [db] := by
  have inside : db ∈ databases.members label := by
    rw [members, if_neg some_]
    exact List.mem_filter.mpr ⟨member, decide_eq_true named⟩
  have all : ∀ other ∈ databases.members label, databases.Named other label := by
    intro other there
    rw [members, if_neg some_] at there
    exact of_decide_eq_true (List.mem_filter.mp there).2
  have distinct : (databases.members label).Pairwise fun a b =>
      (databases.labelName a).map toLower ≠ (databases.labelName b).map toLower := by
    rw [members, if_neg some_]
    exact databases.distinct.filter _
  -- Two of them would have the same label.
  cases found : databases.members label with
  | nil =>
    rw [found] at inside
    exact absurd inside List.not_mem_nil
  | cons first rest =>
    rw [found] at inside all distinct
    cases rest with
    | nil =>
      rw [List.mem_singleton] at inside
      rw [inside]
    | cons second rest =>
      have differ := (List.pairwise_cons.mp distinct).1 second List.mem_cons_self
      have one := all first List.mem_cons_self
      have two := all second (List.mem_cons_of_mem _ List.mem_cons_self)
      exact absurd (one.trans two.symm) differ

/-- A label adds no fewer databases than it stands for. -/
theorem members_length_le (label : Bytes) :
    (databases.members label).length ≤ (databases.begins label).toList.length := by
  cases found : databases.members label with
  | nil => exact Nat.zero_le _
  | cons db rest =>
    have inside : db ∈ databases.members label := by
      rw [found]
      exact List.mem_cons_self
    have some_ : label ≠ [] := by
      intro empty
      rw [members, if_pos empty] at inside
      exact absurd inside List.not_mem_nil
    rw [members, if_neg some_, List.mem_filter] at inside
    have named := of_decide_eq_true inside.2
    rw [← found, members_eq inside.1 some_ named]
    obtain ⟨first, begun⟩ := Option.isSome_iff_exists.mp (begins_of_named inside.1 named)
    rw [begun]
    exact Nat.le_refl _

/-- A label adds what it stands for exactly if a database that begins with it has it. -/
theorem begins_eq_members_iff (label : Bytes) :
    (databases.begins label).toList = databases.members label ↔
      ∀ db, databases.begins label = some db → label ≠ [] ∧ databases.Named db label := by
  constructor
  · intro same db begun
    rw [begun, Option.toList_some] at same
    have inside : db ∈ databases.members label := same ▸ List.mem_singleton_self db
    have some_ : label ≠ [] := by
      intro empty
      rw [members, if_pos empty] at inside
      exact absurd inside List.not_mem_nil
    rw [members, if_neg some_, List.mem_filter] at inside
    exact ⟨some_, of_decide_eq_true inside.2⟩
  · intro whole
    cases begun : databases.begins label with
    | none =>
      -- No database has the label either.
      have few := @members_length_le _ databases label
      rw [begun] at few
      exact (List.length_eq_zero_iff.mp (Nat.le_zero.mp few)).symm
    | some db =>
      obtain ⟨some_, named⟩ := whole db begun
      rw [members_eq (List.mem_of_find?_eq_some begun) some_ named]
      rfl

end DataBases

/-- Lists that are put together of no longer parts are equal exactly if the parts are. -/
theorem flatMap_eq_iff {α β : Type} {f g : α → List β} {items : List α}
    (shorter : ∀ item, (g item).length ≤ (f item).length) :
    items.flatMap f = items.flatMap g ↔ ∀ item ∈ items, f item = g item := by
  have total : ∀ rest : List α, (rest.flatMap g).length ≤ (rest.flatMap f).length := by
    intro rest
    induction rest with
    | nil => exact Nat.le_refl _
    | cons item rest ih =>
      have here := shorter item
      rw [List.flatMap_cons, List.flatMap_cons, List.length_append, List.length_append]
      omega
  induction items with
  | nil => simp
  | cons item rest ih =>
    rw [List.flatMap_cons, List.flatMap_cons, List.forall_mem_cons]
    constructor
    · intro same
      -- No part can make up for another one that is shorter.
      have lengths := congrArg List.length same
      rw [List.length_append, List.length_append] at lengths
      have here := shorter item
      have there := total rest
      obtain ⟨first, later⟩ := List.append_inj same (by omega)
      exact ⟨first, ih.mp later⟩
    · rintro ⟨first, later⟩
      rw [first, ih.mpr later]

/-- The loop takes the labels one after the other. -/
theorem groupLoop_eq (databases : DataBases δ) (front rest : Bytes) (dbGVec : List δ) {fuel : Nat}
    (rounds : rest.length < fuel) :
    groupLoop databases.labelName databases.dbVec (front ++ rest) fuel front.length dbGVec =
      some (dbGVec ++ (labels rest).flatMap fun label => (databases.begins label).toList) := by
  -- The induction is on the rounds; each one leaves a shorter rest.
  induction fuel generalizing front rest dbGVec with
  | zero => omega
  | succ fuel ih =>
    have added : ∀ label : Bytes,
        (match databases.dbVec.find? fun db => strncasecmpS (databases.labelName db) label with
          | some db => dbGVec ++ [db]
          | none => dbGVec) = dbGVec ++ (databases.begins label).toList := by
      intro label
      rw [DataBases.begins]
      cases databases.dbVec.find? fun db => strncasecmpS (databases.labelName db) label <;> simp
    rw [groupLoop]
    simp only [added, findFirstOf, List.drop_left]
    rcases Separator.split_cases 44 rest with ⟨single, split⟩ | ⟨piece, later, rfl, fresh, split⟩
    · -- The last label.
      have absent : rest.idxOf? 44 = none := List.idxOf?_eq_none_iff.mpr single
      rw [absent, Option.map_none, Option.getD_none, if_pos (Nat.le_refl _), labels, split]
      simp
    · -- A label with another one behind it.
      have found : (piece ++ 44 :: later).idxOf? 44 = some piece.length := by
        rw [List.idxOf?_eq_some_iff]
        refine ⟨by simp, by simp, fun j before => ?_⟩
        rw [List.getElem_append_left before]
        intro same
        exact fresh (same ▸ List.getElem_mem before)
      have taken :
          (piece ++ 44 :: later).take (front.length + piece.length - front.length) = piece := by
        rw [Nat.add_sub_cancel_left, List.take_left]
      have next : front ++ (piece ++ 44 :: later) = (front ++ piece ++ [44]) ++ later := by simp
      have place : front.length + piece.length + 1 = (front ++ piece ++ [44]).length := by
        simp [Nat.add_assoc]
      rw [found, Option.map_some, Option.getD_some, if_neg (by simp), taken, next, place,
        ih (front ++ piece ++ [44]) later _ (by simp at rounds; omega), labels, labels, split]
      simp

/-- What the code makes of a list of labels. -/
theorem setDataBaseGroupVec_eq (databases : DataBases δ) {dbGroupName : Bytes} (dbGVec : List δ)
    (some_ : dbGroupName ≠ []) {fuel : Nat} (rounds : dbGroupName.length < fuel) :
    setDataBaseGroupVec databases.labelName databases.dbVec dbGroupName dbGVec fuel =
      some (dbGVec ++ (labels dbGroupName).flatMap fun label =>
        (databases.begins label).toList) := by
  rw [setDataBaseGroupVec, if_pos (List.length_pos_of_ne_nil some_)]
  exact groupLoop_eq databases [] dbGroupName dbGVec rounds

/--
The databases of a list of labels are appended as they are to be exactly if no label of the list is
empty and each database that is the first to begin with a label has that label.
-/
theorem dataBaseGroup_iff (databases : DataBases δ) (dbGroupName : Bytes) (dbGVec : List δ) :
    databases.Grouped dbGroupName dbGVec ↔ databases.WholeLabels dbGroupName := by
  by_cases empty : dbGroupName = []
  · subst empty
    exact iff_of_true ⟨0, fun fuel _ => by simp [setDataBaseGroupVec, labels, stringTrim,
      DataBases.members]⟩ fun some_ => absurd rfl some_
  · have code := @setDataBaseGroupVec_eq _ databases dbGroupName dbGVec empty
    -- What is appended has to be the same list, label by label.
    have same : databases.Grouped dbGroupName dbGVec ↔
        ((labels dbGroupName).flatMap fun label => (databases.begins label).toList) =
          (labels dbGroupName).flatMap databases.members := by
      constructor
      · rintro ⟨enough, ends⟩
        have ended := ends (enough + (dbGroupName.length + 1)) (by omega)
        rw [code (by omega), Option.some.injEq] at ended
        exact List.append_cancel_left ended
      · intro same
        refine ⟨dbGroupName.length + 1, fun fuel rounds => ?_⟩
        rw [code (by omega), same]
    rw [same, flatMap_eq_iff DataBases.members_length_le, DataBases.WholeLabels]
    constructor
    · intro each _ label member
      exact (DataBases.begins_eq_members_iff label).mp (each label member)
    · intro whole label member
      exact (DataBases.begins_eq_members_iff label).mpr (whole empty label member)

/-- The databases `db10` and `db1`. -/
def tenAndOne : DataBases Bytes where
  dbVec := [[100, 98, 49, 48], [100, 98, 49]]
  labelName := id
  distinct := by decide

/-- `db1` stands for `db10`, which is configured before it. -/
theorem prefixLabel_misplaced : ¬ ∀ (databases : DataBases Bytes) (dbGroupName : Bytes)
    (dbGVec : List Bytes), databases.Grouped dbGroupName dbGVec := by
  intro always
  obtain ⟨enough, ends⟩ := always tenAndOne [100, 98, 49] []
  have ended := ends (enough + 4) (by omega)
  have code := @setDataBaseGroupVec_eq _ tenAndOne [100, 98, 49] [] (by decide) (enough + 4)
    (by simp only [List.length_cons, List.length_nil]; omega)
  have same := code.symm.trans ended
  revert same
  decide

end DataBaseGroup

end OneProxy
