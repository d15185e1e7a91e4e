import Mathlib

/-! Maps whose entries are kept in the order of their keys, as `std::map` keeps them. -/

/-- The entries of a map, by ascending keys. -/
structure OrderedMap (κ ν : Type*) [LinearOrder κ] where
  entries : List (κ × ν)
  sorted : entries.Pairwise (·.1 < ·.1)

namespace OrderedMap

variable {κ ν : Type*} [LinearOrder κ]

/-- No entries. -/
def empty : OrderedMap κ ν := ⟨[], List.Pairwise.nil⟩

/-- Whether there is an entry of a key. -/
def has (m : OrderedMap κ ν) (key : κ) : Bool := m.entries.any (·.1 = key)

/-- A list with one more entry in its place. -/
def insertIn (e : κ × ν) : List (κ × ν) → List (κ × ν)
  | [] => [e]
  | e' :: rest => if e.1 < e'.1 then e :: e' :: rest else e' :: insertIn e rest

/-- The first entry behind a place, which is the first of all where there is no such place. -/
def after (m : OrderedMap κ ν) (place : Option κ) : Option (κ × ν) :=
  m.entries.find? fun e => place.all (decide <| · < e.1)

/-- A key lies behind a place. -/
def Behind (place : Option κ) (key : κ) : Prop := ∀ k, place = some k → k < key

variable {m : OrderedMap κ ν} {key : κ} {e e' : κ × ν}

theorem mem_insertIn {l : List (κ × ν)} : e' ∈ insertIn e l ↔ e' = e ∨ e' ∈ l := by
  induction l with
  | nil => simp [insertIn]
  | cons first rest ih =>
    rw [insertIn]
    split_ifs
    · exact List.mem_cons
    · rw [List.mem_cons, ih, List.mem_cons]
      exact or_left_comm

/-- An entry of a new key is put where the keys stay in order. -/
theorem sorted_insertIn {l : List (κ × ν)} (sorted : l.Pairwise (·.1 < ·.1))
    (new : ∀ e' ∈ l, e'.1 ≠ e.1) : (insertIn e l).Pairwise (·.1 < ·.1) := by
  induction l with
  | nil => exact List.pairwise_singleton _ _
  | cons first rest ih =>
    obtain ⟨least, sorted⟩ := List.pairwise_cons.mp sorted
    rw [insertIn]
    split_ifs with before
    · refine List.pairwise_cons.mpr ⟨fun e' member => ?_, List.pairwise_cons.mpr ⟨least, sorted⟩⟩
      rcases List.mem_cons.mp member with rfl | later
      · exact before
      · exact lt_trans before (least e' later)
    · have behind : first.1 < e.1 :=
        lt_of_le_of_ne (not_lt.mp before) (new first List.mem_cons_self)
      refine List.pairwise_cons.mpr ⟨fun e' member => ?_, ih sorted fun e' later =>
        new e' (List.mem_cons_of_mem _ later)⟩
      rcases mem_insertIn.mp member with rfl | later
      · exact behind
      · exact least e' later

theorem has_iff : m.has key = true ↔ ∃ e ∈ m.entries, e.1 = key := by
  simp [has]

/-- Adds the entry of a key that has none; an entry that is there stays. -/
def insertNew (m : OrderedMap κ ν) (key : κ) (value : ν) : OrderedMap κ ν :=
  if there : m.has key = true then m
  else ⟨insertIn (key, value) m.entries, sorted_insertIn m.sorted fun e member same =>
    there (has_iff.mpr ⟨e, member, same⟩)⟩

/-- Changes the entry of a key in its place. -/
def modify (m : OrderedMap κ ν) (key : κ) (change : ν → ν) : OrderedMap κ ν where
  entries := m.entries.map fun e => if e.1 = key then (e.1, change e.2) else e
  sorted := by
    refine List.pairwise_map.mpr (m.sorted.imp fun {a b} less => ?_)
    split_ifs <;> exact less

/-- What was there is there when an entry has been added. -/
theorem mem_insertNew {value : ν} (member : e ∈ m.entries) :
    e ∈ (m.insertNew key value).entries := by
  rw [insertNew]
  split_ifs
  · exact member
  · exact mem_insertIn.mpr (Or.inr member)

/-- The entries of all other keys stay. -/
theorem mem_modify {change : ν → ν} (member : e ∈ m.entries) (other : e.1 ≠ key) :
    e ∈ (m.modify key change).entries :=
  List.mem_map.mpr ⟨e, member, if_neg other⟩

theorem all_iff {place : Option κ} : place.all (decide <| · < key) = true ↔ Behind place key := by
  cases place with
  | none => exact iff_of_true rfl fun k same => by cases same
  | some k =>
    constructor
    · rintro less k' same
      cases same
      exact of_decide_eq_true less
    · exact fun behind => decide_eq_true (behind k rfl)

/-- The entry behind a place is one of the map, and the first of those behind the place. -/
theorem after_spec {place : Option κ} (found : m.after place = some e) :
    e ∈ m.entries ∧ Behind place e.1 ∧ ∀ e' ∈ m.entries, Behind place e'.1 →
      e' = e ∨ e.1 < e'.1 := by
  obtain ⟨behind, front, back, split, passed⟩ := List.find?_eq_some_iff_append.mp found
  have sorted := m.sorted
  rw [split] at sorted ⊢
  refine ⟨by simp, all_iff.mp behind, fun e' member behind' => ?_⟩
  rcases List.mem_append.mp member with early | late
  · exact absurd (all_iff.mpr behind') (by simpa using passed e' early)
  · rcases List.mem_cons.mp late with rfl | later
    · exact Or.inl rfl
    · exact Or.inr ((List.pairwise_cons.mp (List.pairwise_append.mp sorted).2.1).1 e' later)

theorem after_eq_none_iff {place : Option κ} :
    m.after place = none ↔ ∀ e ∈ m.entries, ¬ Behind place e.1 := by
  rw [after, List.find?_eq_none]
  exact forall₂_congr fun e _ => not_congr all_iff

/-! ## Grouping -/

section Grouping

variable {α : Type*} {fresh value : ν} {change : ν → ν} {other : κ}

/-- What is kept under a key. -/
def get? (m : OrderedMap κ ν) (key : κ) : Option ν := (m.entries.find? (·.1 = key)).map (·.2)

/-- Changes the entry of a key, which is made first if there is none. -/
def upsert (m : OrderedMap κ ν) (fresh : ν) (key : κ) (change : ν → ν) : OrderedMap κ ν :=
  (m.insertNew key fresh).modify key change

/-- The map that a loop over some items leaves, which changes the entries of each item's keys. -/
def group (fresh : ν) (keys : α → List κ) (change : α → κ → ν → ν) (items : List α) :
    OrderedMap κ ν :=
  items.foldl (fun m a => (keys a).foldl (fun m key => m.upsert fresh key (change a key)) m) empty

theorem find?_insertIn {l : List (κ × ν)} (new : ∀ e' ∈ l, e'.1 ≠ e.1) :
    (insertIn e l).find? (·.1 = key) = if e.1 = key then some e else l.find? (·.1 = key) := by
  induction l with
  | nil =>
    rw [insertIn]
    split_ifs with same <;> simp [same]
  | cons first rest ih =>
    obtain ⟨differ, later⟩ := List.forall_mem_cons.mp new
    rw [insertIn]
    split_ifs with before same same
    · simp [same]
    · simp [same]
    · -- The entry goes behind the first one, which has another key.
      have other : first.1 ≠ key := same ▸ differ
      rw [List.find?_cons_of_neg (by simpa using other), ih later, if_pos same]
    · rw [List.find?_cons, List.find?_cons, ih later, if_neg same]

theorem get?_insertNew : (m.insertNew key value).get? other =
    if other = key then some ((m.get? key).getD value) else m.get? other := by
  unfold insertNew
  split_ifs with there same same
  · -- An entry that is there stays.
    subst same
    obtain ⟨e, member, key⟩ := has_iff.mp there
    have found : (m.entries.find? (·.1 = other)).isSome :=
      List.find?_isSome.mpr ⟨e, member, by simpa using key⟩
    obtain ⟨e', same⟩ := Option.isSome_iff_exists.mp found
    simp [get?, same]
  · rfl
  · subst same
    have none : m.entries.find? (·.1 = other) = none := by
      refine List.find?_eq_none.mpr fun e member same => there (has_iff.mpr ⟨e, member, ?_⟩)
      simpa using same
    rw [get?, find?_insertIn fun e member same => there (has_iff.mpr ⟨e, member, same⟩), if_pos rfl,
      get?, none]
    rfl
  · rw [get?, find?_insertIn fun e member same => there (has_iff.mpr ⟨e, member, same⟩),
      if_neg (Ne.symm same), get?]

theorem get?_modify : (m.modify key change).get? other =
    if other = key then (m.get? key).map change else m.get? other := by
  have same : ∀ e : κ × ν, (if e.1 = key then (e.1, change e.2) else e).1 = e.1 := by
    intro e
    split_ifs <;> rfl
  unfold get? modify
  rw [List.find?_map]
  have keys : ((fun e : κ × ν => decide (e.1 = other)) ∘ fun e =>
      if e.1 = key then (e.1, change e.2) else e) = fun e => decide (e.1 = other) := by
    funext e
    simp only [Function.comp_apply, same]
  rw [keys]
  cases found : m.entries.find? (·.1 = other) with
  | none =>
    split_ifs with equal
    · rw [← equal, found]
      rfl
    · rfl
  | some e =>
    have here : e.1 = other := by simpa using List.find?_some found
    split_ifs with equal
    · rw [← equal, found]
      simp [here, equal]
    · simp [here, equal]

theorem get?_upsert : (m.upsert fresh key change).get? other =
    if other = key then some (change ((m.get? key).getD fresh)) else m.get? other := by
  rw [upsert, get?_modify, get?_insertNew, if_pos rfl, get?_insertNew]
  split_ifs <;> rfl

/-- What one item changes. -/
theorem get?_foldl_upsert {changes : κ → ν → ν} {keys : List κ} (distinct : keys.Nodup)
    (m : OrderedMap κ ν) (key : κ) :
    (keys.foldl (fun m key => m.upsert fresh key (changes key)) m).get? key =
      if key ∈ keys then some (changes key ((m.get? key).getD fresh)) else m.get? key := by
  induction keys generalizing m with
  | nil => rfl
  | cons first rest ih =>
    obtain ⟨once, distinct⟩ := List.nodup_cons.mp distinct
    rw [List.foldl_cons, ih distinct, get?_upsert]
    by_cases same : key = first
    · subst same
      simp [once]
    · simp [same]

/-- What the items from some map on change. -/
theorem get?_foldl_group {keys : α → List κ} {change : α → κ → ν → ν} {items : List α}
    (distinct : ∀ a ∈ items, (keys a).Nodup) (m : OrderedMap κ ν) (key : κ) :
    (items.foldl (fun m a =>
      (keys a).foldl (fun m key => m.upsert fresh key (change a key)) m) m).get? key =
        if items.filter (key ∈ keys ·) = [] then m.get? key
        else some ((items.filter (key ∈ keys ·)).foldl (fun value a => change a key value)
          ((m.get? key).getD fresh)) := by
  -- The induction is on the items, with the map that the first of them leaves.
  induction items generalizing m with
  | nil => rfl
  | cons a items ih =>
    obtain ⟨first, later⟩ := List.forall_mem_cons.mp distinct
    rw [List.foldl_cons, ih later, get?_foldl_upsert first]
    by_cases own : key ∈ keys a
    · simp only [own, if_true, decide_true, List.filter_cons_of_pos, List.foldl_cons,
        Option.getD_some, reduceCtorEq, if_false]
      split_ifs with none
      · rw [none, List.foldl_nil]
      · rfl
    · simp [own]

/--
The entry of a key is what the items with the key make of a fresh one, and there is none without
such an item.
-/
theorem get?_group {keys : α → List κ} {change : α → κ → ν → ν} {items : List α}
    (distinct : ∀ a ∈ items, (keys a).Nodup) (key : κ) :
    (group fresh keys change items).get? key =
      if items.filter (key ∈ keys ·) = [] then none
      else some ((items.filter (key ∈ keys ·)).foldl (fun value a => change a key value) fresh) :=
  get?_foldl_group distinct empty key

/-- An entry is what is kept under its key. -/
theorem get?_of_mem (member : e ∈ m.entries) : m.get? e.1 = some e.2 := by
  obtain ⟨front, back, split⟩ := List.append_of_mem member
  have sorted := m.sorted
  rw [split, List.pairwise_append] at sorted
  -- The entries before it have smaller keys.
  have before : ∀ e' ∈ front, ¬ e'.1 = e.1 := fun e' early =>
    ne_of_lt (sorted.2.2 e' early e List.mem_cons_self)
  have none : front.find? (·.1 = e.1) = none :=
    List.find?_eq_none.mpr fun e' early => by simpa using before e' early
  simp [get?, split, List.find?_append, none]

theorem mem_of_get? (found : m.get? key = some value) : (key, value) ∈ m.entries := by
  obtain ⟨e, there, rfl⟩ := Option.map_eq_some_iff.mp found
  have same : e.1 = key := by simpa using List.find?_some there
  exact same ▸ List.mem_of_find?_eq_some there

end Grouping

end OrderedMap
