import OneProxy.Httpserver.PageLinks

/-! What the links from one page to the next lead through. -/

namespace OneProxy.HttpResponse

open Record SortedListing Tool HttpParse

/-! ## Following links -/

/-- The request of which a link is the URI. -/
def follow (http : Http) (link : Bytes) : Option Http :=
  if noNul : 0 ∉ link then
    match parseUri http ⟨link, noNul⟩ with
    | .ok http => some http
    | .error _ => none
  else none

/-- A page of which every number is a page of the same entries. -/
structure NumberedPage (ν : Type) extends Page ν where
  numbered : ∀ uriParam number map,
    entries { uriParam with currentPage := number } map = entries uriParam map

/-- `response_topclients`, all of whose pages are of the clients that are asked for. -/
def numberedClients (print : Printed) (now : UInt64) : NumberedPage (Entry ClientQueryInfo) :=
  { topclients print now with numbered := fun _ _ _ => rfl }

/-- `response_topwho`. -/
def numberedWho : NumberedPage (Entry ClientUserAppInfo) :=
  { topwho with numbered := fun _ _ _ => rfl }

/-- `response_topsqls`, all of whose pages are of the statements that are asked for. -/
def numberedSqls (print : Printed) (users : StdMap UInt32 ClientUserAppInfo) :
    NumberedPage (Entry PageSqlInfo) :=
  { topsqls print users with numbered := fun _ _ _ => rfl }

section Next

variable {ν : Type}

/-- All the entries that are asked for, sorted. -/
def Page.sorted (page : Page ν) (sort : Sorting ν) (uriParam : UriParam) (map : List ν) : List ν :=
  changeMap2vecSort sort page uriParam (page.entries uriParam map)

/-- The entries on one page after the other, from a request on, as long as there is a next page. -/
def followNext (page : Page ν) (sort : Sorting ν) (pageSize : PageSize) (map : List ν) :
    Nat → Http → List (List ν)
  | 0, _ => []
  | fuel + 1, http =>
    let uriParam := parseUriParam http
    let size := (page.sorted sort uriParam.toUriParam map).length
    let next := (genTableTitle http uriParam page.titles size pageSize).next
    page.listed sort uriParam.toUriParam pageSize map ::
      match next.bind (follow http) with
      | none => []
      | some http => followNext page sort pageSize map fuel http

variable {page : NumberedPage ν} {sort : Sorting ν} {pageSize : PageSize} {map : List ν}
  {uriParam : PageRequest} {http : Http}

theorem follow_of_parse {link : Bytes} {http' : Http} (noNul : 0 ∉ link)
    (read : parseUri http ⟨link, noNul⟩ = .ok http') : follow http link = some http' := by
  rw [follow, dif_pos noNul, read]

/-- A link of a request is read as a request again. -/
theorem follow_link {field : String} {orderby number : UInt32} (asked : Asked http)
    (table : Bare uriParam.tableName) (column : Bare (asBytes field))
    (text : asString (asBytes field) = field) (order : orderby = 1 ∨ orderby = 2)
    (small : number < 0x80000000) (positive : 0 < number) :
    ∃ http', follow http (link http uriParam field orderby number) = some http' ∧ Asked http' ∧
      parseUriParam http' =
        { uriParam.carried with
          orderField := field, orderBy := orderby, currentPage := number } := by
  obtain ⟨q, split, noNul, form⟩ := paramForm_link table column http orderby number
  have whole : 0 ∉ link http uriParam field orderby number := by
    rw [split]
    simp [asked.baseUri.2, noNul]
  have read := @parseUri_form _ _ http ⟨_, whole⟩ _ split asked.baseUri.1 form
  exact ⟨_, follow_of_parse whole read, asked_of_parseUri read,
    parseUriParam_link rfl order small positive text⟩

/-- What a request names has been read between two separators. -/
theorem bare_uriParam (asked : Asked http) (param : Param) : Bare (http.getUriParam param.name) := by
  unfold Http.getUriParam
  cases there : http.uriParamMap param.name with
  | none => exact ⟨by simp, by simp⟩
  | some value => exact asked.values _ _ there

/-- All pages are of the same entries. -/
theorem sorted_numbered (uriParam : UriParam) (number : UInt32) :
    page.sorted sort { uriParam with currentPage := number } map =
      page.sorted sort uriParam map := by
  rw [Page.sorted, page.numbered]
  rfl

/-- A page is the part of the sorted entries that its number stands for. -/
theorem listed_numbered {number : Nat} (uriParam : UriParam)
    (fits : (number + 1) * pageSize.size.toNat < 0x100000000) (here : number + 1 < 0x100000000) :
    page.listed sort { uriParam with currentPage := UInt32.ofNat (number + 1) } pageSize map =
      ((page.sorted sort uriParam map).take ((number + 1) * pageSize.size.toNat)).drop
        (number * pageSize.size.toNat) := by
  have same := @sorted_numbered _ page sort map uriParam (UInt32.ofNat (number + 1))
  rw [Page.sorted] at same
  have before : (UInt32.ofNat (number + 1) - 1) = UInt32.ofNat number := by
    rw [UInt32.ofNat_add]
    exact UInt32.add_sub_cancel _ _
  have less : number * pageSize.size.toNat ≤ (number + 1) * pageSize.size.toNat :=
    Nat.mul_le_mul_right _ (Nat.le_succ number)
  -- No index is cut to 32 bits.
  have product : ∀ n, n < 0x100000000 → n * pageSize.size.toNat < 0x100000000 →
      (UInt32.ofNat n * pageSize.size).toNat = n * pageSize.size.toNat := by
    intro n small fits
    rw [UInt32.toNat_mul, UInt32.toNat_ofNat', Nat.mod_mul_mod, Nat.mod_eq_of_lt fits]
  simp only [Page.listed, same, before]
  rw [product _ here fits, product number (by omega) (by omega)]
  split_ifs with beyond
  · rw [List.take_length, List.take_of_length_le (by omega)]
  · rfl

/-- The number of pages is the one that holds all the rows. -/
theorem totalPage_toNat {size : Nat} (small : size < 0x80000000) :
    (totalPage size pageSize).toNat = pageCount size pageSize.size.toNat := by
  have positive : 0 < pageSize.size.toNat := UInt32.lt_iff_toNat_lt.mp pageSize.positive
  have total : (UInt32.ofNat size).toInt32.toInt = (size : Int) := by
    rw [UInt32.toInt32_ofNat', Int32.toInt_ofNat']
    have whole : Int32.size = 0x100000000 := rfl
    rw [Int.bmod_eq_of_le] <;> omega
  have most := Nat.div_le_self size pageSize.size.toNat
  have division := Nat.div_add_mod size pageSize.size.toNat
  have rest := Nat.mod_lt size positive
  have quotient : (UInt32.ofInt ((size / pageSize.size.toNat : Nat) : Int)).toNat =
      size / pageSize.size.toNat := by
    have fits : size / pageSize.size.toNat < 0x100000000 := by omega
    generalize size / pageSize.size.toNat = pages at fits
    rw [UInt32.ofInt, UInt32.toNat_ofNat']
    omega
  simp only [totalPage, total, ← Int.ofNat_tdiv, ← Int.ofNat_tmod, Int.natCast_eq_zero]
  split_ifs with even
  · -- Every page is full.
    rw [quotient, pageCount]
    symm
    apply Nat.div_eq_of_lt_le <;> rw [Nat.mul_comm] <;> grind
  · rw [UInt32.toNat_add, quotient, UInt32.toNat_one, Nat.mod_eq_of_lt (by omega), pageCount]
    symm
    apply Nat.div_eq_of_lt_le <;> rw [Nat.mul_comm] <;> grind

/-- Behind a full page there is a link to the next one. -/
theorem next_eq {size : Nat} (small : size < 0x80000000) (titles : List (Title ν)) :
    (genTableTitle http uriParam titles size pageSize).next =
      if uriParam.currentPage.toNat * pageSize.size.toNat < size then
        some (link http uriParam uriParam.orderField uriParam.orderBy (uriParam.currentPage + 1))
      else none := by
  have positive : 0 < pageSize.size.toNat := UInt32.lt_iff_toNat_lt.mp pageSize.positive
  have enough : totalPage size pageSize > uriParam.currentPage ↔
      uriParam.currentPage.toNat * pageSize.size.toNat < size := by
    rw [gt_iff_lt, UInt32.lt_iff_toNat_lt, totalPage_toNat small, lt_pageCount positive]
  simp only [genTableTitle, enough]

/-- What is carried once is carried on. -/
theorem carried_carried (uriParam : PageRequest) : uriParam.carried.carried = uriParam.carried := by
  unfold PageRequest.carried
  split_ifs <;> rfl

/-- The next page of a request is a page of what the request carries. -/
theorem follow_next {number : Nat} (asked : Asked http)
    (here : parseUriParam http = { uriParam with currentPage := UInt32.ofNat number })
    (small : number + 1 < 0x80000000) :
    ∃ http', follow http (link http (parseUriParam http) (parseUriParam http).orderField
        (parseUriParam http).orderBy ((parseUriParam http).currentPage + 1)) = some http' ∧
      Asked http' ∧ parseUriParam http' =
        { uriParam.carried with currentPage := UInt32.ofNat (number + 1) } := by
  have order : (parseUriParam http).orderBy = 1 ∨ (parseUriParam http).orderBy = 2 := by
    simp only [parseUriParam]
    split_ifs
    · exact Or.inl rfl
    · exact Or.inr rfl
    · exact Or.inl rfl
  have field : asBytes (parseUriParam http).orderField = http.getUriParam Param.fd.name :=
    asBytes_asString _
  have text : asString (asBytes (parseUriParam http).orderField) =
      (parseUriParam http).orderField := by
    rw [field]
    rfl
  have next : (parseUriParam http).currentPage + 1 = UInt32.ofNat (number + 1) := by
    rw [here, UInt32.ofNat_add]
    rfl
  have number_ : (UInt32.ofNat (number + 1)).toNat = number + 1 := by
    rw [UInt32.toNat_ofNat']
    exact Nat.mod_eq_of_lt (by omega)
  have below : UInt32.ofNat (number + 1) < 0x80000000 := by
    rw [UInt32.lt_iff_toNat_lt, number_]
    exact small
  have positive : 0 < UInt32.ofNat (number + 1) := by
    rw [UInt32.lt_iff_toNat_lt, number_]
    exact Nat.succ_pos _
  rw [next]
  obtain ⟨http', there, asked', read⟩ := @follow_link (parseUriParam http) http _ _ _ asked
    (bare_uriParam asked .tablename) (field ▸ bare_uriParam asked .fd) text order below positive
  refine ⟨http', there, asked', read.trans ?_⟩
  rw [here]
  rfl

section Carried

variable {fuel number : Nat}

/-- One page, and those behind it if there are any. -/
theorem followNext_step (asked : Asked http)
    (here : parseUriParam http = { uriParam with currentPage := UInt32.ofNat (number + 1) })
    (small : (page.sorted sort uriParam.toUriParam map).length < 0x80000000)
    (inside : number * pageSize.size.toNat < 0x80000000) :
    (page.sorted sort uriParam.toUriParam map).length ≤ (number + 1) * pageSize.size.toNat ∧
        followNext page.toPage sort pageSize map (fuel + 1) http =
          [((page.sorted sort uriParam.toUriParam map).drop (number * pageSize.size.toNat)).take
            pageSize.size.toNat] ∨
      (number + 1) * pageSize.size.toNat < (page.sorted sort uriParam.toUriParam map).length ∧
        ∃ http', Asked http' ∧
          parseUriParam http' =
            { uriParam.carried with currentPage := UInt32.ofNat (number + 1 + 1) } ∧
          followNext page.toPage sort pageSize map (fuel + 1) http =
            ((page.sorted sort uriParam.toUriParam map).drop (number * pageSize.size.toNat)).take
              pageSize.size.toNat :: followNext page.toPage sort pageSize map fuel http' := by
  have positive : 0 < pageSize.size.toNat := UInt32.lt_iff_toNat_lt.mp pageSize.positive
  have most : pageSize.size.toNat < 0x80000000 := UInt32.lt_iff_toNat_lt.mp pageSize.small
  have split : (number + 1) * pageSize.size.toNat =
      number * pageSize.size.toNat + pageSize.size.toNat := Nat.succ_mul _ _
  have counted : number ≤ number * pageSize.size.toNat := Nat.le_mul_of_pos_right number positive
  have all : page.sorted sort (parseUriParam http).toUriParam map =
      page.sorted sort uriParam.toUriParam map := by
    rw [here]
    exact sorted_numbered _ _
  have current : (parseUriParam http).currentPage.toNat = number + 1 := by
    rw [here]
    exact UInt32.toNat_ofNat'.trans (Nat.mod_eq_of_lt (by omega))
  have listed : page.listed sort (parseUriParam http).toUriParam pageSize map =
      ((page.sorted sort uriParam.toUriParam map).drop (number * pageSize.size.toNat)).take
        pageSize.size.toNat := by
    rw [here]
    refine (listed_numbered _ (by omega) (by omega)).trans ?_
    rw [List.drop_take, split, Nat.add_sub_cancel_left]
  have next := @next_eq _ pageSize (parseUriParam http) http _ small page.titles
  rw [current] at next
  simp only [followNext, all, listed, next]
  by_cases more : (number + 1) * pageSize.size.toNat <
      (page.sorted sort uriParam.toUriParam map).length
  · obtain ⟨http', there, asked', read⟩ := follow_next asked here (by omega)
    refine Or.inr ⟨more, http', asked', read, ?_⟩
    rw [if_pos more, Option.bind_some, there]
  · refine Or.inl ⟨Nat.not_lt.mp more, ?_⟩
    rw [if_neg more, Option.bind_none]

/-- From the second page on all pages are those of what the links carry. -/
theorem followNext_carried (asked : Asked http) (here : parseUriParam http =
      { uriParam.carried with currentPage := UInt32.ofNat (number + 1) })
    (small : (page.sorted sort uriParam.carried.toUriParam map).length < 0x80000000)
    (inside : number * pageSize.size.toNat < 0x80000000)
    (enough : (page.sorted sort uriParam.carried.toUriParam map).length < fuel + number) :
    (followNext page.toPage sort pageSize map fuel http).flatten =
      (page.sorted sort uriParam.carried.toUriParam map).drop (number * pageSize.size.toNat) := by
  -- The induction is on the rounds that are left.
  induction fuel generalizing number http with
  | zero =>
    have positive : 0 < pageSize.size.toNat := UInt32.lt_iff_toNat_lt.mp pageSize.positive
    have less := Nat.le_mul_of_pos_right number positive
    rw [List.drop_eq_nil_of_le (by omega)]
    rfl
  | succ fuel ih =>
    rcases @followNext_step _ page sort pageSize map _ _ fuel _ asked here small inside with
      ⟨last, rows⟩ | ⟨more, http', asked', read, rows⟩
    · rw [rows, List.flatten_singleton, List.take_of_length_le]
      rw [Nat.succ_mul] at last
      rw [List.length_drop]
      omega
    · rw [carried_carried] at read
      rw [rows, List.flatten_cons, ih asked' read (by omega) (by omega), Nat.succ_mul,
        ← List.drop_drop, List.take_append_drop]

end Carried

/--
The links lead through the first page of what is asked for, and through the further pages of what
they carry of it.
-/
theorem followNext_flatten {fuel : Nat} (asked : Asked http) (here : parseUriParam http = uriParam)
    (first : uriParam.currentPage = 1)
    (small : (page.sorted sort uriParam.toUriParam map).length < 0x80000000)
    (small' : (page.sorted sort uriParam.carried.toUriParam map).length < 0x80000000)
    (enough : (page.sorted sort uriParam.carried.toUriParam map).length ≤ fuel) :
    (followNext page.toPage sort pageSize map (fuel + 1) http).flatten =
      (page.sorted sort uriParam.toUriParam map).take pageSize.size.toNat ++
        if pageSize.size.toNat < (page.sorted sort uriParam.toUriParam map).length then
          (page.sorted sort uriParam.carried.toUriParam map).drop pageSize.size.toNat
        else [] := by
  have most : pageSize.size.toNat < 0x80000000 := UInt32.lt_iff_toNat_lt.mp pageSize.small
  have one : parseUriParam http = { uriParam with currentPage := UInt32.ofNat (0 + 1) } := by
    rw [here]
    exact congrArg (fun number => { uriParam with currentPage := number }) first
  rcases @followNext_step _ page sort pageSize map _ _ fuel _ asked one small (by omega) with
    ⟨last, rows⟩ | ⟨more, http', asked', read, rows⟩
  · rw [rows, if_neg (by omega)]
    simp
  · rw [rows, if_pos (by omega), List.flatten_cons,
      followNext_carried asked' read small' (by omega) (by omega)]
    simp

/-- A filter that the links carry is kept on every page. -/
theorem nextPages_kept {fuel : Nat} (asked : Asked http) (here : parseUriParam http = uriParam)
    (first : uriParam.currentPage = 1)
    (kept : page.sorted sort uriParam.carried.toUriParam map =
      page.sorted sort uriParam.toUriParam map)
    (small : (page.sorted sort uriParam.toUriParam map).length < 0x80000000)
    (enough : (page.sorted sort uriParam.toUriParam map).length ≤ fuel) :
    (followNext page.toPage sort pageSize map (fuel + 1) http).flatten =
      page.sorted sort uriParam.toUriParam map := by
  rw [followNext_flatten asked here first small (kept ▸ small) (kept ▸ enough), kept]
  split_ifs with more
  · exact List.take_append_drop _ _
  · rw [List.append_nil, List.take_of_length_le (Nat.not_lt.mp more)]

/-- Sorting neither adds entries nor takes any away. -/
theorem sorted_perm (page : Page ν) (sort : Sorting ν) (uriParam : UriParam) (map : List ν) :
    (page.sorted sort uriParam map).Perm ((page.entries uriParam map).filter page.isShow) := by
  have titles : ∀ (titles : List (Title ν)) (vec : List ν),
      (titles.foldl (sortByTitle sort uriParam) vec).Perm vec := by
    intro titles
    induction titles with
    | nil => exact List.Perm.refl
    | cons title titles ih =>
      intro vec
      refine (ih _).trans ?_
      unfold sortByTitle
      split
      · exact List.Perm.refl vec
      · split_ifs
        · exact sort.perm _ vec
        · exact sort.perm _ vec
        · exact List.Perm.refl vec
        · exact List.Perm.refl vec
  rw [Page.sorted, changeMap2vecSort]
  split_ifs
  · exact titles _ _
  · exact List.Perm.refl _

/-- The pages of a map that is shown as a whole list each of its entries once. -/
theorem nextPages_perm {fuel : Nat} {uriText : UriText} {http₀ : Http}
    (all : ∀ uriParam map, page.entries uriParam map = map) (shown : ∀ info, page.isShow info = true)
    (parsed : parseUri http₀ uriText = .ok http) (first : (parseUriParam http).currentPage = 1)
    (small : map.length < 0x80000000) (enough : map.length ≤ fuel) :
    (followNext page.toPage sort pageSize map (fuel + 1) http).flatten.Perm map := by
  have perm : (page.sorted sort (parseUriParam http).toUriParam map).Perm map := by
    refine (sorted_perm _ _ _ _).trans (List.Perm.of_eq ?_)
    rw [all]
    exact List.filter_eq_self.mpr fun info _ => shown info
  have kept : page.sorted sort (parseUriParam http).carried.toUriParam map =
      page.sorted sort (parseUriParam http).toUriParam map := by
    rw [Page.sorted, Page.sorted, all, all]
    rfl
  have length := perm.length_eq
  rw [nextPages_kept (asked_of_parseUri parsed) rfl first kept (by omega) (by omega)]
  exact perm

end Next

/-- `/topwho`. -/
def whoUri : UriText := ⟨[47, 116, 111, 112, 119, 104, 111], by decide⟩

/-- The request with this URI. -/
def whoRequest : Http :=
  { Http.fresh .get 0 0 with
    uri := whoUri.chars, baseUri := whoUri.chars, uriParamMap := lastWins [] }

end OneProxy.HttpResponse
