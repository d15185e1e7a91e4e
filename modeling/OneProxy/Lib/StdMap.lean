import Mathlib.Algebra.Group.Basic
import Mathlib.Logic.Function.Basic

/-! Maps with in-place updates, and the figures kept in their entries. -/

/-- What a map holds under each key. -/
abbrev StdMap (κ ν : Type*) := κ → Option ν

namespace StdMap

variable {κ ν μ A : Type*}

/-- Changes every entry. -/
def mapValues (m : StdMap κ ν) (f : ν → ν) : StdMap κ ν := fun key => (m key).map f

/-- Overwrites `result` with every entry of `newer`, less the older entry of its key. -/
def difference (less : ν → ν → ν) (newer older result : StdMap κ ν) : StdMap κ ν := fun key =>
  match newer key with
  | some value =>
    match older key with
    | some old => some (less value old)
    | none => some value
  | none => result key

/-- The figure that an entry keeps, zero where there is no entry. -/
def figure [Zero A] (m : StdMap κ ν) (measure : ν → A) (key : κ) : A :=
  match m key with
  | some value => measure value
  | none => 0

/-- Every key of the first map is one of the second. -/
def Within (m : StdMap κ ν) (n : StdMap κ μ) : Prop := ∀ key, (m key).isSome → (n key).isSome

theorem Within.refl (m : StdMap κ ν) : Within m m := fun _ there => there

theorem Within.trans {l m n : StdMap κ ν} (first : Within l m) (second : Within m n) :
    Within l n :=
  fun key there => second key (first key there)

variable {newer older result : StdMap κ ν} {less : ν → ν → ν} {key : κ}

/-- A change of every entry keeps every key. -/
theorem within_mapValues (m : StdMap κ ν) (f : ν → ν) : Within m (m.mapValues f) := by
  intro key there
  simpa [mapValues] using there

/-- A result within the newer map has its keys once it is overwritten. -/
theorem difference_within (kept : Within result newer) :
    Within (difference less newer older result) newer := by
  intro key there
  simp only [difference] at there
  split at there
  · rename_i value present
    simp [present]
  · exact kept key there

/-- A key that is new to the older map has its full value. -/
theorem difference_new (kept : Within result newer)
    (new : older key = none) : difference less newer older result key = newer key := by
  simp only [difference, new]
  split
  · rename_i value present
    exact present.symm
  · rename_i absent
    cases stale : result key with
    | none => exact absent.symm
    | some value =>
      have present := kept key (by simp [stale])
      simp [absent] at present

/-- The entry of a key of both maps. -/
theorem difference_both {value old : ν} (there : newer key = some value)
    (before : older key = some old) :
    difference less newer older result key = some (less value old) := by
  simp [difference, there, before]

/-- What the subtraction keeps of entries is that of the newer map. -/
theorem difference_described_iff {description : Type*} {describe : ν → description}
    (kept : Within result newer) (grown : Within older newer) (key : κ) :
    (difference less newer older result key).map describe = (newer key).map describe ↔
      ∀ value old, newer key = some value → older key = some old →
        describe (less value old) = describe value := by
  cases before : older key with
  | none => simp [difference_new kept before]
  | some old =>
    obtain ⟨value, there⟩ := Option.isSome_iff_exists.mp (grown key (by simp [before]))
    simp [difference_both there before, there]

/-- The figures of a difference are the differences of the figures. -/
theorem figure_difference [AddCommGroup A] {measure : ν → A}
    (subtracts : ∀ value old, measure (less value old) = measure value - measure old)
    (kept : Within result newer) (grown : Within older newer) (key : κ) :
    (difference less newer older result).figure measure key =
      newer.figure measure key - older.figure measure key := by
  cases there : newer key with
  | none =>
    have before : older key = none := by
      by_contra present
      have grownKey := grown key (Option.isSome_iff_ne_none.mpr present)
      simp [there] at grownKey
    simp [figure, difference_new kept before, there, before]
  | some value =>
    cases before : older key with
    | none => simp [figure, difference_new kept before, there, before]
    | some old => simp [figure, difference_both there before, there, before, subtracts]

section Updates

variable [DecidableEq κ] {m : StdMap κ ν} {fresh : ν} {f : ν → ν}

/-- Changes the entry of a key, which is made first if there is none. -/
def upsert (m : StdMap κ ν) (fresh : ν) (key : κ) (f : ν → ν) : StdMap κ ν :=
  Function.update m key (some (f ((m key).getD fresh)))

/-- Changes the entry of a key, if there is one. -/
def adjust (m : StdMap κ ν) (key : κ) (f : ν → ν) : StdMap κ ν :=
  Function.update m key ((m key).map f)

/-- Changes the entry behind a pointer that may be null. -/
def adjustAt (m : StdMap κ ν) (pointer : Option κ) (f : ν → ν) : StdMap κ ν :=
  match pointer with
  | some key => m.adjust key f
  | none => m

/-- The entry that an update makes. -/
@[simp] theorem upsert_self (m : StdMap κ ν) (fresh : ν) (key : κ) (f : ν → ν) :
    m.upsert fresh key f key = some (f ((m key).getD fresh)) := by
  simp [upsert]

/-- Other entries stay as they were. -/
@[simp] theorem upsert_of_ne {key other : κ} (differ : other ≠ key) :
    m.upsert fresh key f other = m other := by
  simp [upsert, differ]

/-- The entry that a change leaves. -/
@[simp] theorem adjust_self (m : StdMap κ ν) (key : κ) (f : ν → ν) :
    m.adjust key f key = (m key).map f := by
  simp [adjust]

/-- Other entries stay as they were. -/
@[simp] theorem adjust_of_ne {key other : κ} (differ : other ≠ key) :
    m.adjust key f other = m other := by
  simp [adjust, differ]

/-- An update keeps every key. -/
theorem within_upsert (m : StdMap κ ν) (fresh : ν) (key : κ) (f : ν → ν) :
    Within m (m.upsert fresh key f) := by
  intro other there
  by_cases same : other = key
  · subst same
    simp
  · rwa [upsert_of_ne same]

/-- A change keeps every key. -/
theorem within_adjust (m : StdMap κ ν) (key : κ) (f : ν → ν) : Within m (m.adjust key f) := by
  intro other there
  by_cases same : other = key
  · subst same
    simpa using there
  · rwa [adjust_of_ne same]

/-- A change behind a pointer keeps every key. -/
theorem within_adjustAt (m : StdMap κ ν) (pointer : Option κ) (f : ν → ν) :
    Within m (m.adjustAt pointer f) := by
  cases pointer with
  | none => exact Within.refl m
  | some key => exact within_adjust m key f

variable [AddCommGroup A] {measure : ν → A}

/-- What an update adds to a figure. -/
theorem figure_upsert {key : κ} {amount : A} (zero : measure fresh = 0)
    (adds : ∀ value, measure (f value) = measure value + amount) (other : κ) :
    (m.upsert fresh key f).figure measure other =
      m.figure measure other + if other = key then amount else 0 := by
  by_cases same : other = key
  · subst same
    cases there : m other with
    | none => simp [figure, there, adds, zero]
    | some value => simp [figure, there, adds]
  · simp [figure, same]

end Updates

end StdMap
