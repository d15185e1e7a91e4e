import OneProxy.Httpserver.TopPages

/-! Whether the pages of the monitor list their rows in the order of what they display. -/

namespace OneProxy.HttpResponse

open Record SortedListing Tool

/-! ## Listings -/

/-- The two directions of a sorted page. -/
inductive Direction
  | asc
  | desc

/-- The direction in the URI. -/
def Direction.orderBy : Direction → UInt32
  | asc => 1
  | desc => 2

/-- What the rows of a page are compared by. -/
def Direction.less {ν : Type} (direction : Direction) (field : ν → Nat) (a b : ν) : Bool :=
  match direction with
  | asc => decide (field a < field b)
  | desc => decide (field a > field b)

/-- Two values in a direction. -/
def Direction.Follows (direction : Direction) (x y : Int) : Prop :=
  match direction with
  | asc => x ≤ y
  | desc => y ≤ x

section Pages

variable {ν : Type}

/-- A column that the titles of a page offer to sort by. -/
structure Column (page : Page ν) where
  index : Nat
  href : String
  field : ν → Nat
  offered : page.titles[index]? = some ⟨href, some field⟩

/-- The value that the row of an entry displays in a column. -/
def Page.value (page : Page ν) (index : Nat) (info : ν) : Int :=
  ((page.row info)[index]?.map Cell.order).getD 0

/-- The request for one page, sorted by a column. -/
def ask {page : Page ν} (uriParam : UriParam) (column : Column page) (direction : Direction)
    (number : Nat) : UriParam :=
  { uriParam with
    orderField := column.href
    orderBy := direction.orderBy
    currentPage := UInt32.ofNat number }

/-- The entries that have rows on one page after the other, for so many entries in all. -/
def listing (page : Page ν) (sort : Sorting ν) (uriParam : UriParam) (column : Column page)
    (direction : Direction) (pageSize : PageSize) (size : Nat) (map : List ν) : List ν :=
  (List.range (pageCount size pageSize.size.toNat)).flatMap fun k =>
    page.listed sort (ask uriParam column direction (k + 1)) pageSize map

/-- A listing of the shown entries in the order of what it displays in a column. -/
structure Shows (page : Page ν) (index : Nat) (direction : Direction) (shown rows : List ν) :
    Prop where
  complete : rows.Perm shown
  ordered : rows.Pairwise fun a b =>
    direction.Follows (page.value index a) (page.value index b)

/-- The titles name each column that can be sorted by, all of them differently. -/
structure Page.Labelled (page : Page ν) : Prop where
  named : ∀ title ∈ page.titles, title.field.isSome → title.href ≠ ""
  distinct : page.titles.Pairwise fun s t => s.field.isSome → t.field.isSome → s.href ≠ t.href

/-- What is stored in a column is in the order of what it displays. -/
def Agrees (page : Page ν) (column : Column page) (shown : List ν) : Prop :=
  ∀ a ∈ shown, ∀ b ∈ shown, column.field a ≤ column.field b →
    page.value column.index a ≤ page.value column.index b

/-! ## Sorting -/

/-- The order of a direction can be relied on. -/
theorem Direction.weakOrder (direction : Direction) (field : ν → Nat) :
    WeakOrder (direction.less field) := by
  cases direction with
  | asc => exact weakOrder_asc field
  | desc => exact weakOrder_desc field

variable {page : Page ν} {uriParam : UriParam} {sort : Sorting ν} {pageSize : PageSize}

/-- Columns that are not asked for change nothing. -/
theorem foldl_sortByTitle_other {titles : List (Title ν)}
    (other : ∀ title ∈ titles, title.field.isSome → title.href ≠ uriParam.orderField)
    (vec : List ν) : titles.foldl (sortByTitle sort uriParam) vec = vec := by
  induction titles with
  | nil => rfl
  | cons title titles ih =>
    have skipped : sortByTitle sort uriParam vec title = vec := by
      unfold sortByTitle
      cases field : title.field with
      | none => rfl
      | some _ =>
        exact if_neg (other title List.mem_cons_self (by rw [field]; rfl))
    rw [List.foldl_cons, skipped]
    exact ih fun title member => other title (List.mem_cons_of_mem _ member)

/-- The column that is asked for is the only one that sorts. -/
theorem changeMap2vecSort_column (labelled : page.Labelled) (column : Column page)
    (direction : Direction) (number : Nat) (map : List ν) :
    changeMap2vecSort sort page (ask uriParam column direction number) map =
      sort.run (direction.less column.field) (map.filter page.isShow) := by
  -- The columns before and behind the one that is asked for have other names.
  obtain ⟨inside, found⟩ := List.getElem?_eq_some_iff.mp column.offered
  have split : page.titles = page.titles.take column.index ++
      ⟨column.href, some column.field⟩ :: page.titles.drop (column.index + 1) := by
    rw [← found, ← List.drop_eq_getElem_cons inside, List.take_append_drop]
  have distinct := labelled.distinct
  rw [split, List.pairwise_append, List.pairwise_cons] at distinct
  obtain ⟨_, ⟨after, _⟩, before⟩ := distinct
  have named : column.href ≠ "" :=
    labelled.named _ (List.mem_of_getElem? column.offered) rfl
  have sorts : ((ask uriParam column direction number).orderBy = 1 ∨
      (ask uriParam column direction number).orderBy = 2) ∧
        (ask uriParam column direction number).orderField ≠ "" := by
    cases direction with
    | asc => exact ⟨Or.inl rfl, named⟩
    | desc => exact ⟨Or.inr rfl, named⟩
  have one : ∀ vec, sortByTitle sort (ask uriParam column direction number) vec
      ⟨column.href, some column.field⟩ = sort.run (direction.less column.field) vec := by
    intro vec
    cases direction with
    | asc => simp [sortByTitle, ask, Direction.orderBy]; rfl
    | desc => simp [sortByTitle, ask, Direction.orderBy]; rfl
  rw [changeMap2vecSort, if_pos sorts, split, List.foldl_append, List.foldl_cons,
    foldl_sortByTitle_other (fun title member some_ =>
      before title member _ List.mem_cons_self some_ rfl), one,
    foldl_sortByTitle_other fun title member some_ => (after title member rfl some_).symm]

/-- A page is a part of the sorted entries. -/
theorem listed_eq (labelled : page.Labelled) (column : Column page) (direction : Direction)
    (k : Nat) (map : List ν) :
    page.listed sort (ask uriParam column direction (k + 1)) pageSize map =
      ((sort.run (direction.less column.field) ((page.entries
        (ask uriParam column direction (k + 1)) map).filter page.isShow)).take
          ((k + 1) * pageSize.size.toNat % 0x100000000)).drop
            (k * pageSize.size.toNat % 0x100000000) := by
  have start : (UInt32.ofNat (k + 1) - 1) * pageSize.size = UInt32.ofNat k * pageSize.size := by
    rw [UInt32.ofNat_add]
    congr 1
    exact UInt32.add_sub_cancel _ _
  have product : ∀ n, (UInt32.ofNat n * pageSize.size).toNat =
      n * pageSize.size.toNat % 0x100000000 := by
    intro n
    rw [UInt32.toNat_mul, UInt32.toNat_ofNat', Nat.mod_mul_mod]
  -- An end behind the last entry is moved to it.
  have cut : ∀ (vec : List ν) (stop : Nat),
      vec.take (if stop > vec.length then vec.length else stop) = vec.take stop := by
    intro vec stop
    by_cases beyond : stop > vec.length
    · rw [if_pos beyond, List.take_length, List.take_of_length_le (by omega)]
    · rw [if_neg beyond]
  rw [Page.listed, changeMap2vecSort_column labelled]
  simp only [cut]
  rw [← product, ← product, ← start]
  rfl

section Whole

variable {direction : Direction} {column : Column page} {map shown : List ν}

/-- The pages up to one number are the beginning of the sorted entries. -/
theorem flatMap_listed (labelled : page.Labelled)
    (selects : ∀ number,
      (page.entries (ask uriParam column direction number) map).filter page.isShow = shown)
    (count : Nat) (fits : count * pageSize.size.toNat < 0x100000000) :
    ((List.range count).flatMap fun k =>
      page.listed sort (ask uriParam column direction (k + 1)) pageSize map) =
        (sort.run (direction.less column.field) shown).take (count * pageSize.size.toNat) := by
  rw [← flatMap_pages, List.flatMap_def, List.flatMap_def]
  congr 1
  apply List.map_congr_left
  intro k member
  -- Up to the last of these pages no index is cut to 32 bits.
  have next : (k + 1) * pageSize.size.toNat ≤ count * pageSize.size.toNat :=
    Nat.mul_le_mul_right _ (List.mem_range.mp member)
  have here : k * pageSize.size.toNat ≤ (k + 1) * pageSize.size.toNat :=
    Nat.mul_le_mul_right _ (Nat.le_succ k)
  rw [listed_eq labelled, selects, Nat.mod_eq_of_lt (by omega), Nat.mod_eq_of_lt (by omega)]

/-- All the pages are the sorted entries, if their indices stay below 2 to the 32. -/
theorem listing_whole (labelled : page.Labelled)
    (selects : ∀ number,
      (page.entries (ask uriParam column direction number) map).filter page.isShow = shown)
    (fits : pageCount shown.length pageSize.size.toNat * pageSize.size.toNat < 0x100000000) :
    listing page sort uriParam column direction pageSize shown.length map =
      sort.run (direction.less column.field) shown := by
  have positive : 0 < pageSize.size.toNat := UInt32.lt_iff_toNat_lt.mp pageSize.positive
  have length := (sort.perm (direction.less column.field) shown).length_eq
  rw [listing, flatMap_listed labelled selects _ fits, List.take_of_length_le]
  rw [length]
  exact le_pageCount_mul positive

/-- Otherwise the last page is empty, and the listing is too short. -/
theorem listing_short (labelled : page.Labelled)
    (selects : ∀ number,
      (page.entries (ask uriParam column direction number) map).filter page.isShow = shown)
    (bounded : shown.length ≤ 0x100000000)
    (overflows : 0x100000000 ≤ pageCount shown.length pageSize.size.toNat * pageSize.size.toNat) :
    (listing page sort uriParam column direction pageSize shown.length map).length <
      shown.length := by
  have positive : 0 < pageSize.size.toNat := UInt32.lt_iff_toNat_lt.mp pageSize.positive
  have small : pageSize.size.toNat < 0x80000000 := UInt32.lt_iff_toNat_lt.mp pageSize.small
  have below := @pageCount_mul_lt shown.length pageSize.size.toNat
  rw [listing]
  cases pages : pageCount shown.length pageSize.size.toNat with
  | zero => simp [pages] at overflows
  | succ count =>
    have product : (count + 1) * pageSize.size.toNat =
        count * pageSize.size.toNat + pageSize.size.toNat := Nat.succ_mul _ _
    rw [pages] at overflows below
    have before : count * pageSize.size.toNat < 0x100000000 := by omega
    -- The end of the last page has wrapped around to before its start.
    have wraps : (count + 1) * pageSize.size.toNat % 0x100000000 ≤ count * pageSize.size.toNat := by
      omega
    rw [List.range_succ, List.flatMap_append, flatMap_listed labelled selects _ before,
      List.flatMap_singleton, listed_eq labelled, selects, Nat.mod_eq_of_lt before,
      List.drop_eq_nil_of_le, List.append_nil]
    · have most := List.length_take_le (count * pageSize.size.toNat)
        (sort.run (direction.less column.field) shown)
      omega
    · exact (List.length_take_le _ _).trans wraps

/-- A direction is followed by all pairs exactly if the stored values are in the displayed order. -/
theorem follows_iff_agrees : (∀ a ∈ shown, ∀ b ∈ shown, direction.less column.field b a = false →
    direction.Follows (page.value column.index a) (page.value column.index b)) ↔
      Agrees page column shown := by
  cases direction with
  | asc =>
    simp only [Direction.less, Direction.Follows, decide_eq_false_iff_not, Nat.not_lt]
    rfl
  | desc =>
    simp only [Direction.less, Direction.Follows, decide_eq_false_iff_not, gt_iff_lt, Nat.not_lt]
    exact ⟨fun follows a here b there => follows b there a here,
      fun agrees a here b there => agrees b there a here⟩

/--
A page lists its entries in the order of a column, whatever sort is used, exactly if what is stored
in the column is in the order of what it displays, and the indices do not overflow.
-/
theorem listing_iff (labelled : page.Labelled)
    (selects : ∀ number,
      (page.entries (ask uriParam column direction number) map).filter page.isShow = shown)
    (bounded : shown.length ≤ 0x100000000) :
    (∀ sort, Shows page column.index direction shown
      (listing page sort uriParam column direction pageSize shown.length map)) ↔
        pageCount shown.length pageSize.size.toNat * pageSize.size.toNat < 0x100000000 ∧
          Agrees page column shown := by
  have refl : ∀ a, direction.Follows (page.value column.index a) (page.value column.index a) := by
    intro a
    cases direction <;> exact Int.le_refl _
  have ordered := @ordered_iff _ _ (direction.weakOrder column.field)
    (fun a b => direction.Follows (page.value column.index a) (page.value column.index b)) refl
    shown
  rw [← follows_iff_agrees, ← ordered]
  constructor
  · intro shows
    have fits : pageCount shown.length pageSize.size.toNat * pageSize.size.toNat < 0x100000000 := by
      by_contra overflows
      have short : (listing page Sorting.stable uriParam column direction pageSize shown.length
          map).length < shown.length := listing_short labelled selects bounded (by omega)
      have whole := (shows Sorting.stable).complete.length_eq
      omega
    refine ⟨fits, ?_⟩
    -- The pages together are the sorted entries.
    intro sort
    have order := (shows sort).ordered
    rwa [listing_whole labelled selects fits] at order
  · rintro ⟨fits, follows⟩ sort
    rw [listing_whole labelled selects fits]
    exact ⟨sort.perm _ shown, follows sort⟩

end Whole

end Pages

/-! ## The entries of the pages -/

/-- The contents of a map, in the order of the keys. -/
structure MapEntries (ν : Type) where
  entries : List (Entry ν)
  sorted : entries.Pairwise fun a b => a.1 < b.1

/-- A map has at most one entry for each of its keys. -/
theorem MapEntries.length_le {ν : Type} (map : MapEntries ν) :
    map.entries.length ≤ 0x100000000 := by
  have keys : (map.entries.map fun info => info.1.toNat).Pairwise (· < ·) := by
    rw [List.pairwise_map]
    exact map.sorted.imp fun below => UInt32.lt_iff_toNat_lt.mp below
  have distinct : (map.entries.map fun info => info.1.toNat).Nodup :=
    keys.imp fun below => Nat.ne_of_lt below
  have within : (map.entries.map fun info => info.1.toNat) ⊆ List.range 0x100000000 := by
    intro key member
    obtain ⟨info, _, rfl⟩ := List.mem_map.mp member
    exact List.mem_range.mpr info.1.toNat_lt
  have counted := (distinct.subperm within).length_le
  rwa [List.length_map, List.length_range] at counted

/-- The clients that a request asks for. -/
def ClientSelected (uriParam : UriParam) (info : Entry ClientQueryInfo) : Prop :=
  info.2.isShow ∧ (uriParam.sqlhashcode = 0 ∨ uriParam.sqlhashcode ∈ info.2.sqlList)

instance (uriParam : UriParam) (info : Entry ClientQueryInfo) :
    Decidable (ClientSelected uriParam info) :=
  inferInstanceAs (Decidable (_ ∧ _))

/-- The statements that a request asks for: those of a client, of a table, of a user, or all. -/
def SqlSelected (users : StdMap UInt32 ClientUserAppInfo) (uriParam : UriParam)
    (info : Entry PageSqlInfo) : Prop :=
  info.2.isShow ∧
    if uriParam.clientHashCode ≠ 0 then
      uriParam.clientHashCode ∈ info.2.clientSet ∧ (uriParam.sqltype = 0 ∨ info.2.part.fail ≠ 0)
    else if uriParam.tableName ≠ [] then uriParam.tableName ∈ info.2.tableSet
    else if uriParam.clientuserappinfohashcode ≠ 0 then
      info.1 ∈ (users uriParam.clientuserappinfohashcode).elim ∅ ClientUserAppInfo.sqlList
    else True

instance (users : StdMap UInt32 ClientUserAppInfo) (uriParam : UriParam)
    (info : Entry PageSqlInfo) : Decidable (SqlSelected users uriParam info) :=
  inferInstanceAs (Decidable (_ ∧ _))

section Selected

variable (print : Printed) (now : UInt64) (users : StdMap UInt32 ClientUserAppInfo)
  (uriParam : UriParam)

/-- The page of the clients sorts the clients that are asked for. -/
theorem topclients_entries (map : List (Entry ClientQueryInfo)) :
    ((topclients print now).entries uriParam map).filter (topclients print now).isShow =
      map.filter fun info => decide (ClientSelected uriParam info) := by
  have none_ : uriParam.sqlhashcode ≤ 0 ↔ uriParam.sqlhashcode = 0 := UInt32.le_zero_iff
  simp only [topclients, none_]
  by_cases all : uriParam.sqlhashcode = 0
  · rw [if_pos all]
    apply List.filter_congr
    intro info _
    simp [ClientSelected, all]
  · rw [if_neg all, List.filter_filter]
    apply List.filter_congr
    intro info _
    rw [← Bool.decide_and, decide_eq_decide, ClientSelected]
    tauto

/-- The page of the users sorts all of them. -/
theorem topwho_entries (map : List (Entry ClientUserAppInfo)) :
    (topwho.entries uriParam map).filter topwho.isShow =
      map.filter fun info => decide info.2.isShow := rfl

/-- The page of the statements sorts the statements that are asked for. -/
theorem topsqls_entries (map : List (Entry PageSqlInfo)) :
    ((topsqls print users).entries uriParam map).filter (topsqls print users).isShow =
      map.filter fun info => decide (SqlSelected users uriParam info) := by
  have positive : ∀ n : UInt32, n > 0 ↔ n ≠ 0 := fun n => UInt32.pos_iff_ne_zero
  have named : uriParam.tableName.length > 0 ↔ uriParam.tableName ≠ [] := List.length_pos_iff
  have failed : ∀ n : UInt64, n > 0 ↔ n ≠ 0 := fun n => UInt64.pos_iff_ne_zero
  simp only [topsqls, positive, named, failed]
  by_cases client : uriParam.clientHashCode ≠ 0
  · -- The statements of a client, or those of them that have failed.
    rw [if_pos client, List.filter_filter]
    apply List.filter_congr
    intro info _
    rw [← Bool.decide_and, decide_eq_decide, SqlSelected, if_pos client]
    constructor
    · rintro ⟨shown, member, _, kind⟩
      exact ⟨shown, member, kind⟩
    · rintro ⟨shown, member, kind⟩
      exact ⟨shown, member, shown, kind⟩
  · rw [if_neg client]
    by_cases table : uriParam.tableName ≠ []
    · -- The statements on a table.
      rw [if_pos table, List.filter_filter]
      apply List.filter_congr
      intro info _
      rw [← Bool.decide_and, decide_eq_decide, SqlSelected, if_neg client, if_pos table]
      constructor
      · rintro ⟨shown, member, _⟩
        exact ⟨shown, member⟩
      · rintro ⟨shown, member⟩
        exact ⟨shown, member, shown⟩
    · rw [if_neg table]
      by_cases user : uriParam.clientuserappinfohashcode ≠ 0
      · rw [if_pos user]
        cases there : users uriParam.clientuserappinfohashcode with
        | none =>
          -- A user that is not known has no statements.
          symm
          rw [List.filter_nil, List.filter_eq_nil_iff]
          intro info _
          simp [SqlSelected, client, table, user, there]
        | some entry =>
          simp only [List.filter_filter]
          apply List.filter_congr
          intro info _
          rw [← Bool.decide_and, decide_eq_decide, SqlSelected, if_neg client, if_neg table,
            if_pos user, there]
          rfl
      · rw [if_neg user]
        apply List.filter_congr
        intro info _
        rw [decide_eq_decide, SqlSelected, if_neg client, if_neg table, if_neg user, and_true]

end Selected

/-- The titles of the clients are labelled. -/
theorem topclients_labelled (print : Printed) (now : UInt64) : (topclients print now).Labelled where
  named := by
    simp [topclients, Title.plain, Title.orderField, Title.orderFieldBool]
  distinct := by
    simp [topclients, Title.plain, Title.orderField, Title.orderFieldBool]

/-- The titles of the users are labelled. -/
theorem topwho_labelled : topwho.Labelled where
  named := by
    simp [topwho, Title.plain, Title.orderField]
  distinct := by
    simp [topwho, Title.plain, Title.orderField]

/-- The titles of the statements are labelled. -/
theorem topsqls_labelled (print : Printed) (users : StdMap UInt32 ClientUserAppInfo) :
    (topsqls print users).Labelled where
  named := by
    simp [topsqls, Title.plain, Title.orderField]
  distinct := by
    simp [topsqls, Title.plain, Title.orderField]

/-! ## What the columns store and display -/

section Displays

variable {ν : Type} {page : Page ν} {column : Column page} {shown : List ν} {f : UInt64 → Int}

/-- A column displays of some entries what it is sorted by, put into some form. -/
def Displays (page : Page ν) (column : Column page) (f : UInt64 → Int) (shown : List ν) : Prop :=
  ∀ info ∈ shown, ∃ n : UInt64, column.field info = n.toNat ∧ page.value column.index info = f n

/-- A form that keeps the order of the numbers keeps the order of the rows. -/
theorem Displays.agrees (displays : Displays page column f shown)
    (mono : ∀ a b, a ≤ b → f a ≤ f b) : Agrees page column shown := by
  intro a here b there below
  obtain ⟨m, fieldA, valueA⟩ := displays a here
  obtain ⟨n, fieldB, valueB⟩ := displays b there
  rw [valueA, valueB]
  apply mono
  rw [UInt64.le_iff_toNat_le, ← fieldA, ← fieldB]
  exact below

/--
Counters that are displayed as signed numbers keep the order of the rows exactly if none of them or
all of them have come to look negative.
-/
theorem Displays.agrees_iff (displays : Displays page column signed shown) :
    Agrees page column shown ↔ (∀ info ∈ shown, column.field info < 0x8000000000000000) ∨
      ∀ info ∈ shown, 0x8000000000000000 ≤ column.field info := by
  constructor
  · -- A counter that looks negative would have to come before a smaller one.
    intro agrees
    by_contra mixed
    simp only [not_or, not_forall, Nat.not_lt, Nat.not_le] at mixed
    obtain ⟨⟨b, there, large⟩, a, here, small⟩ := mixed
    have below := agrees a here b there (by omega)
    obtain ⟨m, fieldA, valueA⟩ := displays a here
    obtain ⟨n, fieldB, valueB⟩ := displays b there
    have bound := n.toNat_lt
    rw [valueA, valueB, signed, signed, if_pos (by omega), if_neg (by omega)] at below
    omega
  · intro alike a here b there below
    obtain ⟨m, fieldA, valueA⟩ := displays a here
    obtain ⟨n, fieldB, valueB⟩ := displays b there
    rw [valueA, valueB, signed, signed]
    cases alike with
    | inl small =>
      have first := small a here
      have second := small b there
      rw [if_pos (by omega), if_pos (by omega)]
      omega
    | inr large =>
      have first := large a here
      have second := large b there
      rw [if_neg (by omega), if_neg (by omega)]
      omega

end Displays

/-- The columns of a client that display the counters and the sizes that they are sorted by. -/
theorem topclients_displays {print : Printed} {now : UInt64}
    (column : Column (topclients print now)) (shown : List (Entry ClientQueryInfo)) :
    (column.index ∈ [2, 3, 5, 6, 7, 8, 9, 10] → Displays _ column signed shown) ∧
      (column.index ∈ [11, 12] → Displays _ column print.kilobytes shown) := by
  obtain ⟨index, href, field, offered⟩ := column
  constructor
  · intro member
    simp only [List.mem_cons, List.not_mem_nil, or_false] at member
    rcases member with rfl | rfl | rfl | rfl | rfl | rfl | rfl | rfl
    all_goals
      obtain ⟨_, rfl⟩ : _ ∧ _ = field := by simpa [topclients, Title.orderField] using offered
      exact fun info _ => ⟨_, rfl, rfl⟩
  · intro member
    simp only [List.mem_cons, List.not_mem_nil, or_false] at member
    rcases member with rfl | rfl
    all_goals
      obtain ⟨_, rfl⟩ : _ ∧ _ = field := by simpa [topclients, Title.orderField] using offered
      exact fun info _ => ⟨_, rfl, rfl⟩

/-- The status of a client is always in order. -/
theorem onLineStatus_agrees {print : Printed} {now : UInt64}
    (column : Column (topclients print now)) (status : column.index = 14)
    (shown : List (Entry ClientQueryInfo)) :
    Agrees _ column shown := by
  obtain ⟨index, href, field, offered⟩ := column
  subst status
  obtain ⟨_, rfl⟩ : _ ∧ _ = field := by simpa [topclients, Title.orderFieldBool] using offered
  intro a _ b _ below
  have value : ∀ info, (topclients print now).value 14 info =
      if info.2.part.onLineStatus then 1 else 0 := fun _ => rfl
  rw [value, value]
  simp only at below
  split at below <;> split at below <;> simp_all

/--
The logins of a user are displayed as they are sorted, and so is the number of statements of the
users whose rows have been displayed since.
-/
theorem topwho_displays (column : Column topwho) (shown : List (Entry ClientUserAppInfo)) :
    (column.index = 3 → Displays _ column signed shown) ∧
      (column.index = 4 → (∀ info ∈ shown, topwho.store info = info) →
        Displays _ column signed shown) := by
  obtain ⟨index, href, field, offered⟩ := column
  constructor
  · rintro rfl
    obtain ⟨_, rfl⟩ : _ ∧ _ = field := by simpa [topwho, Title.orderField] using offered
    exact fun info _ => ⟨_, rfl, rfl⟩
  · rintro rfl current info member
    obtain ⟨_, rfl⟩ : _ ∧ _ = field := by simpa [topwho, Title.orderField] using offered
    refine ⟨_, rfl, ?_⟩
    have value : topwho.value 4 info = signed (topwho.store info).2.part.sqlcount := rfl
    rw [value, current info member]

/-- The columns of a statement that display the counters and the size that they are sorted by. -/
theorem topsqls_displays {print : Printed} {users : StdMap UInt32 ClientUserAppInfo}
    (column : Column (topsqls print users)) (shown : List (Entry PageSqlInfo)) :
    (column.index ∈ [2, 3, 4, 5, 6, 7] → Displays _ column signed shown) ∧
      (column.index = 8 → Displays _ column print.kilobytes shown) := by
  obtain ⟨index, href, field, offered⟩ := column
  constructor
  · intro member
    simp only [List.mem_cons, List.not_mem_nil, or_false] at member
    rcases member with rfl | rfl | rfl | rfl | rfl | rfl
    all_goals
      obtain ⟨_, rfl⟩ : _ ∧ _ = field := by simpa [topsqls, Title.orderField] using offered
      exact fun info _ => ⟨_, rfl, rfl⟩
  · rintro rfl
    obtain ⟨_, rfl⟩ : _ ∧ _ = field := by simpa [topsqls, Title.orderField] using offered
    exact fun info _ => ⟨_, rfl, rfl⟩

/-! ## The order of the pages -/

/--
A page that is sorted by a column lists the entries that are asked for in the order of what it
displays in the column, whatever sort is used.
-/
def Sorted {ν : Type} (page : Page ν) (uriParam : UriParam) (column : Column page)
    (direction : Direction) (pageSize : PageSize) (map shown : List ν) : Prop :=
  ∀ sort, Shows page column.index direction shown
    (listing page sort uriParam column direction pageSize shown.length map)

/-- The indices of the last page of some entries are not cut to 32 bits. -/
def Fits (pageSize : PageSize) (size : Nat) : Prop :=
  pageCount size pageSize.size.toNat * pageSize.size.toNat < 0x100000000

/-- The clients that have a row. -/
def shownClients (uriParam : UriParam) (clients : MapEntries ClientQueryInfo) :
    List (Entry ClientQueryInfo) :=
  clients.entries.filter fun info => decide (ClientSelected uriParam info)

/-- The users that have a row. -/
def shownUsers (who : MapEntries ClientUserAppInfo) : List (Entry ClientUserAppInfo) :=
  who.entries.filter fun info => decide info.2.isShow

/-- The statements that have a row. -/
def shownSqls (users : StdMap UInt32 ClientUserAppInfo) (uriParam : UriParam)
    (sqls : MapEntries PageSqlInfo) : List (Entry PageSqlInfo) :=
  sqls.entries.filter fun info => decide (SqlSelected users uriParam info)

/-- A URI without parameters. -/
def plainUri : UriParam := ⟨"", 0, 0, 0, 0, [], 0, 0⟩

/-- The number of rows of a page that is not set otherwise. -/
def twentyRows : PageSize := ⟨20, by decide, by decide⟩

/--
Two users, of which only the row of the first one has been displayed since it ran its statement.
-/
def twoUsers : MapEntries ClientUserAppInfo where
  entries := [(1, ⟨⟨1, 1⟩, 1, [97], [], [], {7}⟩), (2, ⟨⟨1, 0⟩, 2, [98], [], [], {7, 8}⟩)]
  sorted := by decide

/-- The column of the statements of a user. -/
def sqlcount : Column topwho := ⟨4, "sqlcount", fun info => info.2.part.sqlcount.toNat, rfl⟩

end OneProxy.HttpResponse
