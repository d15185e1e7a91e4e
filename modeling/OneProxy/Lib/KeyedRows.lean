import Mathlib.Data.List.Nodup

/-! Tables whose rows are added once, and changed later by their key. -/

namespace KeyedRows

variable {ρ κ ε : Type*} [DecidableEq κ]

/-- What events do to the rows of a table. -/
structure Rules (ρ κ ε : Type*) where
  key : ρ → κ
  /-- The row that an event adds. -/
  insert : ε → Option ρ
  /-- The key whose rows an event changes, and how. -/
  change : ε → Option (κ × (ρ → ρ))
  key_change : ∀ e k f r, change e = some (k, f) → key (f r) = key r

namespace Rules

variable (rules : Rules ρ κ ε)

/-- What an event makes of a row. -/
def changed (e : ε) (r : ρ) : ρ :=
  match rules.change e with
  | some (k, f) => if rules.key r = k then f r else r
  | none => r

/-- What an event makes of a table. -/
def apply (table : List ρ) (e : ε) : List ρ :=
  table.map (rules.changed e) ++ (rules.insert e).toList

/-- What later events make of a row. -/
def later (events : List ε) (r : ρ) : ρ := events.foldl (fun r e => rules.changed e r) r

/-- The rows that events add, each as the events after it leave it. -/
def rows : List ε → List ρ
  | [] => []
  | e :: rest => (rules.insert e).toList.map (rules.later rest) ++ rows rest

@[simp] theorem key_changed (e : ε) (r : ρ) : rules.key (rules.changed e r) = rules.key r := by
  unfold changed
  split
  · next change =>
    split
    · exact rules.key_change _ _ _ r change
    · rfl
  · rfl

@[simp] theorem key_later (events : List ε) (r : ρ) :
    rules.key (rules.later events r) = rules.key r := by
  induction events generalizing r with
  | nil => rfl
  | cons e rest ih => exact (ih (rules.changed e r)).trans (rules.key_changed e r)

/-- A table after some events: its rows as they leave them, and the rows that they add. -/
theorem foldl_apply (table : List ρ) (events : List ε) :
    events.foldl rules.apply table = table.map (rules.later events) ++ rules.rows events := by
  induction events generalizing table with
  | nil =>
    have same : rules.later [] = id := rfl
    simp [rows, same]
  | cons e rest ih =>
    have first : (fun r => rules.later rest (rules.changed e r)) = rules.later (e :: rest) := rfl
    rw [List.foldl_cons, ih, apply, List.map_append, List.map_map, rows, List.append_assoc]
    exact congrArg (fun f => List.map f table ++ _) first

/-- The keys of the added rows are those that they are added with. -/
theorem map_key_rows (events : List ε) :
    (rules.rows events).map rules.key = (events.filterMap rules.insert).map rules.key := by
  induction events with
  | nil => rfl
  | cons e rest ih =>
    rw [rows, List.map_append, ih]
    cases added : rules.insert e with
    | none => simp [added]
    | some r => simp [added]

/-- The row that an event adds is in the table, as the events after it leave it. -/
theorem mem_rows {front back : List ε} {e : ε} {r : ρ} (added : rules.insert e = some r) :
    rules.later back r ∈ rules.rows (front ++ e :: back) := by
  induction front with
  | nil => simp [rows, added]
  | cons first front ih => exact List.mem_append_right _ ih

/-- In a table whose keys are distinct, a row is the only one under its key. -/
theorem filter_key {table : List ρ} (distinct : (table.map rules.key).Nodup) {r : ρ}
    (member : r ∈ table) : table.filter (fun row => rules.key row = rules.key r) = [r] := by
  induction table with
  | nil => cases member
  | cons first table ih =>
    obtain ⟨fresh, rest⟩ := List.nodup_cons.mp distinct
    have differs : ∀ row ∈ table, rules.key row ≠ rules.key first := by
      intro row inside same
      exact fresh (same ▸ List.mem_map_of_mem inside)
    cases member with
    | head =>
      have gone : table.filter (fun row => rules.key row = rules.key r) = [] :=
        List.filter_eq_nil_iff.mpr fun row inside => by simpa using differs row inside
      simp [gone]
    | tail _ inside =>
      have skip := Ne.symm (differs r inside)
      rw [List.filter_cons_of_neg (by simpa using skip), ih rest inside]

/-- Keys that have one row each are distinct. -/
theorem nodup_of_filter {table : List ρ}
    (one : ∀ r ∈ table, ∃ row, table.filter (fun other => rules.key other = rules.key r) = [row]) :
    (table.map rules.key).Nodup := by
  rw [List.nodup_iff_count_eq_one]
  intro key found
  obtain ⟨r, member, rfl⟩ := List.mem_map.mp found
  obtain ⟨row, alone⟩ := one r member
  rw [List.count_eq_countP, List.countP_map, List.countP_eq_length_filter]
  exact congrArg List.length alone

end Rules

/-! ## Rows that are only added while their key is new -/

variable (key : ρ → κ)

/-- Adds a row, unless the table has one under its key. -/
def addNew (table : List ρ) (row : ρ) : List ρ :=
  if key row ∈ table.map key then table else table ++ [row]

/-- A table goes on with new rows, of which none has the key of another row. -/
structure Extends (table after : List ρ) : Prop where
  stays : table <+: after
  distinct : (table.map key).Nodup → (after.map key).Nodup

variable {key}

theorem Extends.refl (table : List ρ) : Extends key table table :=
  ⟨List.prefix_refl table, fun distinct => distinct⟩

theorem Extends.trans {table middle after : List ρ} (first : Extends key table middle)
    (second : Extends key middle after) : Extends key table after :=
  ⟨first.stays.trans second.stays, fun distinct => second.distinct (first.distinct distinct)⟩

/-- The keys of before are still there. -/
theorem Extends.mem_keys {table after : List ρ} (grown : Extends key table after) {k : κ}
    (inside : k ∈ table.map key) : k ∈ after.map key :=
  (grown.stays.map key).subset inside

variable (key)

/-- A row is added behind the others, and only under a new key. -/
theorem extends_addNew (table : List ρ) (row : ρ) : Extends key table (addNew key table row) := by
  unfold addNew
  split
  · exact Extends.refl table
  · next fresh =>
    refine ⟨List.prefix_append table [row], fun distinct => ?_⟩
    rw [List.map_append, List.map_singleton, List.nodup_append]
    refine ⟨distinct, List.nodup_singleton _, ?_⟩
    intro k inside k' alone same
    rw [List.mem_singleton.mp alone] at same
    exact fresh (same ▸ inside)

/-- A row of the table was there before, or is the one that is added. -/
theorem mem_addNew {table : List ρ} {row r : ρ} (inside : r ∈ addNew key table row) :
    r ∈ table ∨ r = row := by
  unfold addNew at inside
  split at inside
  · exact Or.inl inside
  · exact (List.mem_append.mp inside).imp_right List.mem_singleton.mp

/-- Afterwards the table has the key, whether the row was added or not. -/
theorem key_mem_addNew (table : List ρ) (row : ρ) : key row ∈ (addNew key table row).map key := by
  unfold addNew
  split
  · next there => exact there
  · simp

end KeyedRows
