import OneProxy.Httpserver.SortedPages
import OneProxy.Httpserver.UriPairs
import OneProxy.Util.Digits

/-! The links from one page of the monitor to the next one, and the requests that follow them. -/

namespace OneProxy

namespace Tool

/-- `strtoul`, of a base of ten: a number that is too large becomes the largest one. -/
def strtoul (text : Bytes) : UInt64 :=
  let (negative, text) := signed (text.dropWhile isSpace)
  let value := ofDigits (text.takeWhile isDigit)
  if value > 0xFFFFFFFFFFFFFFFF then 0xFFFFFFFFFFFFFFFF
  else if negative then -UInt64.ofNat value
  else UInt64.ofNat value

/-- A text of bytes is read back from its characters. -/
theorem asBytes_asString (text : Bytes) : asBytes (asString text) = text := by
  simp only [asBytes, asString, String.toList_ofList, List.map_map]
  refine (List.map_congr_left fun c _ => ?_).trans (List.map_id text)
  have small : c.toNat < 256 := c.toNat_lt
  have valid : (Char.ofNat c.toNat).toNat = c.toNat := by
    rw [Char.toNat_ofNat, if_pos (Or.inl (by omega))]
  simp [valid]

end Tool

open HttpParse Tool

/-- `get_uriParam`. -/
def HttpParse.Http.getUriParam (http : Http) (key : Bytes) : Bytes :=
  (http.uriParamMap key).getD []

/-- The names of the parameters. -/
inductive Param
  | orderby | page | fd | clienthashcode | sqlhashcode | tablename | sqltype | transhashcode
  | realtime | clientuserappinfohashcode
  deriving DecidableEq

/-- A name as it is written. -/
def Param.name : Param → Bytes
  | orderby => [111, 114, 100, 101, 114, 98, 121]
  | page => [112, 97, 103, 101]
  | fd => [102, 100]
  | clienthashcode => [99, 108, 105, 101, 110, 116, 104, 97, 115, 104, 99, 111, 100, 101]
  | sqlhashcode => [115, 113, 108, 104, 97, 115, 104, 99, 111, 100, 101]
  | tablename => [116, 97, 98, 108, 101, 110, 97, 109, 101]
  | sqltype => [115, 113, 108, 116, 121, 112, 101]
  | transhashcode => [116, 114, 97, 110, 115, 104, 97, 115, 104, 99, 111, 100, 101]
  | realtime => [114, 101, 97, 108, 116, 105, 109, 101]
  | clientuserappinfohashcode =>
    [99, 108, 105, 101, 110, 116, 117, 115, 101, 114, 97, 112, 112, 105, 110, 102, 111, 104, 97,
      115, 104, 99, 111, 100, 101]

/-- `name=value`. -/
def Param.text (param : Param) (value : Bytes) : Bytes := param.name ++ 61 :: value

namespace HttpResponse

open Record

/-! ## What a URI asks for -/

/-- `UriParam`, with what the sorted pages do not read. -/
structure PageRequest extends UriParam where
  isRealTime : Bool
  transhashcode : UInt32

/-- `parse_uriParam`. -/
def parseUriParam (http : Http) : PageRequest :=
  let get (param : Param) : Bytes := http.getUriParam param.name
  let currentPage := (atoi (get .page)).toUInt32
  let sqltype := (atoi (get .sqltype)).toInt
  { orderField := asString (get .fd)
    orderBy := if get .orderby = [49] then 1 else if get .orderby = [50] then 2 else 1
    currentPage := if currentPage ≤ 0 then 1 else currentPage
    clientHashCode := (strtoul (get .clienthashcode)).toUInt32
    sqlhashcode := (strtoul (get .sqlhashcode)).toUInt32
    tableName := get .tablename
    sqltype := if sqltype ≠ 0 ∧ sqltype ≠ 1 then -1 else sqltype
    clientuserappinfohashcode := (strtoul (get .clientuserappinfohashcode)).toUInt32
    isRealTime := decide ((get .realtime).length > 0)
    transhashcode := (strtoul (get .transhashcode)).toUInt32 }

/-! ## The links of a page -/

/-- What stands before the column, the order and the page in every link. -/
def linkBase (http : Http) (uriParam : PageRequest) : Bytes :=
  let ss := http.baseUri ++ [63]
  let baseUri := ss
  let ss :=
    if uriParam.isRealTime then ss ++ Param.realtime.text [116, 114, 117, 101] ++ [38] else ss
  let baseUri := if uriParam.isRealTime then ss else baseUri
  let client := uriParam.clientHashCode
  let ss :=
    if client > 0 then ss ++ Param.clienthashcode.text (digits client.toNat) ++ [38] else ss
  let baseUri := if client > 0 then ss else baseUri
  let sql := uriParam.sqlhashcode
  -- `baseUri == ss.str()` assigns nothing.
  let ss := if sql > 0 then ss ++ Param.sqlhashcode.text (digits sql.toNat) ++ [38] else ss
  let table := uriParam.tableName
  let ss := if table.length > 0 then ss ++ Param.tablename.text table ++ [38] else ss
  if table.length > 0 then ss else baseUri

/-- A link to a page that is sorted by a column. -/
def link (http : Http) (uriParam : PageRequest) (field : String) (orderby page : UInt32) : Bytes :=
  linkBase http uriParam ++ Param.fd.text (asBytes field) ++
    38 :: Param.orderby.text (decimal orderby) ++ 38 :: Param.page.text (decimal page)

/-- The links of a page. -/
structure Links where
  previous : Option Bytes
  next : Option Bytes
  /-- One for each column that can be sorted by. -/
  columns : List (Option Bytes)

/-- The number of pages, which `gen_tableTitle` computes from an `int`. -/
def totalPage (size : Nat) (pageSize : PageSize) : UInt32 :=
  let totalItem : Int := (UInt32.ofNat size).toInt32.toInt
  let tpage := UInt32.ofInt (totalItem.tdiv pageSize.size.toNat)
  if totalItem.tmod pageSize.size.toNat = 0 then tpage else tpage + 1

/-- `gen_tableTitle` of some rows; the page is not the home page. -/
def genTableTitle {ν : Type} (http : Http) (uriParam : PageRequest) (titleInfo : List (Title ν))
    (size : Nat) (pageSize : PageSize) : Links :=
  let orderby := if uriParam.orderBy > 2 then 0 else uriParam.orderBy
  let orderby :=
    if uriParam.currentPage ≤ 1 then if uriParam.orderBy = 1 then 2 else 1 else orderby
  let page := uriParam.currentPage
  { previous :=
      if page > 1 then some (link http uriParam uriParam.orderField uriParam.orderBy (page - 1))
      else none
    next :=
      if totalPage size pageSize > page then
        some (link http uriParam uriParam.orderField uriParam.orderBy (page + 1))
      else none
    columns := titleInfo.map fun title =>
      if title.field.isNone then none
      else if uriParam.orderField ≠ "" ∧ title.href = uriParam.orderField then
        some (link http uriParam title.href orderby page)
      else some (link http uriParam title.href 2 1) }

/-! ## Numbers in links -/

end HttpResponse

namespace Tool

/-- The digits of a number stand for it. -/
theorem ofDigits_digits (n : Nat) : ofDigits (digits n) = n := by
  have chars : ∀ l : List Char, (∀ c ∈ l, c.toNat < 256) → ∀ start : Nat,
      (l.map fun c => UInt8.ofNat c.toNat).foldl (fun n c => 10 * n + (c.toNat - 48)) start =
        l.foldl (fun n c => 10 * n + (c.toNat - 48)) start := by
    intro l small start
    induction l generalizing start with
    | nil => rfl
    | cons c l ih =>
      have byte : (UInt8.ofNat c.toNat).toNat = c.toNat := by
        rw [UInt8.toNat_ofNat']
        exact Nat.mod_eq_of_lt (small c List.mem_cons_self)
      simp only [List.map_cons, List.foldl_cons, byte]
      exact ih (fun c inside => small c (List.mem_cons_of_mem _ inside)) _
  have written := @Nat.ofDigitChars_ten_toDigits n
  rw [ofDigits, digits, chars]
  · exact written
  · intro c inside
    have isDigit := Nat.isDigit_of_mem_toDigits (by decide) (by decide) inside
    simp only [Char.isDigit, ge_iff_le, Bool.and_eq_true, decide_eq_true_eq] at isDigit
    have high : c.toNat ≤ 57 := isDigit.2
    omega

theorem isDigit_digits (n : Nat) : ∀ c ∈ digits n, isDigit c := by
  intro c inside
  obtain ⟨low, high⟩ := mem_digits inside
  simp only [isDigit, Bool.and_eq_true, decide_eq_true_eq, UInt8.le_iff_toNat_le]
  exact ⟨low, high⟩

/-- A number that is written is read again. -/
theorem atoi_digits {n : Nat} (small : n < 0x80000000) : atoi (digits n) = Int32.ofInt n := by
  have read := @atoi_number _ [] false (digits_ne_nil n) (isDigit_digits n) (by simp)
  simp only [Bool.false_eq_true, if_false, List.nil_append, List.append_nil,
    ofDigits_digits] at read
  rw [read]
  congr 1
  omega

/-- Digits begin with neither a blank nor a sign. -/
theorem signed_digits (n : Nat) :
    (digits n).dropWhile isSpace = digits n ∧ signed (digits n) = (false, digits n) := by
  obtain ⟨first, more, written⟩ := List.exists_cons_of_ne_nil (digits_ne_nil n)
  have digit := isDigit_digits n first (written ▸ List.mem_cons_self)
  have space : isSpace first = false := by
    simp only [isDigit, isSpace] at digit ⊢
    grind
  have minus : first ≠ 45 := by
    rintro rfl
    exact absurd digit (by decide)
  have plus : first ≠ 43 := by
    rintro rfl
    exact absurd digit (by decide)
  rw [written]
  exact ⟨by simp [space], by simp [signed, minus, plus]⟩

theorem strtoul_digits (n : UInt32) : (strtoul (digits n.toNat)).toUInt32 = n := by
  obtain ⟨front, read⟩ := signed_digits n.toNat
  have whole : (digits n.toNat).takeWhile isDigit = digits n.toNat :=
    List.takeWhile_eq_self_iff.mpr (isDigit_digits _)
  have small := n.toNat_lt
  have fits : ¬ n.toNat > 0xFFFFFFFFFFFFFFFF := by omega
  simp only [strtoul, front, read, whole, ofDigits_digits, fits, if_false, Bool.false_eq_true]
  apply UInt32.toNat_inj.mp
  rw [UInt64.toNat_toUInt32, UInt64.toNat_ofNat']
  omega

end Tool

namespace HttpResponse

/-! ## Links that are read -/

/-- What a link keeps of a request. -/
def PageRequest.carried (uriParam : PageRequest) : PageRequest :=
  { uriParam with
    sqlhashcode := if uriParam.tableName = [] then 0 else uriParam.sqlhashcode
    sqltype := 0
    clientuserappinfohashcode := 0
    transhashcode := 0 }

/-- A parameter that is in a link only where it is asked for. -/
def optional (asked : Prop) [Decidable asked] (param : Param) (value : Bytes) :
    List (Bytes × Bytes) :=
  if asked then [(param.name, value)] else []

/-- The parameters of a link before its column. -/
def frontPairs (uriParam : PageRequest) : List (Bytes × Bytes) :=
  optional (uriParam.isRealTime = true) .realtime [116, 114, 117, 101] ++
    optional (uriParam.clientHashCode > 0) .clienthashcode (digits uriParam.clientHashCode.toNat) ++
    optional (uriParam.carried.sqlhashcode > 0) .sqlhashcode
      (digits uriParam.carried.sqlhashcode.toNat) ++
    optional (uriParam.tableName.length > 0) .tablename uriParam.tableName

/-- The parameters of a link. -/
def linkPairs (uriParam : PageRequest) (field : String) (orderby page : UInt32) :
    List (Bytes × Bytes) :=
  frontPairs uriParam ++ [(Param.fd.name, asBytes field), (Param.orderby.name, decimal orderby),
    (Param.page.name, decimal page)]

/-- Pairs that all end in a separator. -/
def ended (pairs : List (Bytes × Bytes)) : Bytes :=
  pairs.flatMap fun pair => pair.1 ++ 61 :: pair.2 ++ [38]

/-- The statement is in a link only behind which the table is. -/
theorem linkBase_eq (http : Http) (uriParam : PageRequest) :
    linkBase http uriParam = http.baseUri ++ 63 :: ended (frontPairs uriParam) := by
  have named : uriParam.tableName.length > 0 ↔ uriParam.tableName ≠ [] := List.length_pos_iff
  simp only [linkBase, frontPairs, ended, optional, Param.text, named, PageRequest.carried,
    List.flatMap_append]
  by_cases table : uriParam.tableName = []
  · have zero : ¬ (0 : UInt32) > 0 := by decide
    simp only [table, ne_eq, not_true_eq_false, if_false, if_true, zero, List.flatMap_nil,
      List.append_nil]
    split_ifs <;> simp
  · simp only [table, ne_eq, not_false_eq_true, if_true, if_false]
    split_ifs <;> simp

/-- Pairs before others are pairs. -/
theorem paramForm_ended {front pairs : List (Bytes × Bytes)} {q : Bytes}
    (named : ∀ pair ∈ front, KeyValue pair.1 pair.2) (form : ParamForm q pairs) :
    ParamForm (ended front ++ q) (front ++ pairs) := by
  induction front with
  | nil => exact form
  | cons pair front ih =>
    obtain ⟨first, later⟩ := List.forall_mem_cons.mp named
    have behind := ParamForm.next first (ih later)
    have parts : ended (pair :: front) ++ q =
        pair.1 ++ 61 :: pair.2 ++ 38 :: (ended front ++ q) := by simp [ended]
    rw [parts]
    exact behind

/-- The names are names. -/
theorem keyValue {param : Param} {value : Bytes} (whole : 38 ∉ value) :
    KeyValue param.name value := by
  have name : param.name ≠ [] ∧ 61 ∉ param.name ∧ 38 ∉ param.name := by
    cases param <;> decide
  exact ⟨name.1, name.2.1, name.2.2, whole⟩

/-- A value with neither a separator nor a NUL. -/
def Bare (value : Bytes) : Prop := 38 ∉ value ∧ 0 ∉ value

theorem bare_digits (n : Nat) : Bare (digits n) :=
  ⟨fun inside => absurd (mem_digits inside).1 (by decide),
    fun inside => absurd (mem_digits inside).1 (by decide)⟩

theorem bare_decimal (x : UInt32) : Bare (decimal x) := by
  unfold decimal
  split_ifs
  · exact bare_digits _
  · -- Only the sign is added.
    obtain ⟨separator, nul⟩ := bare_digits (0x100000000 - x.toNat)
    exact ⟨by simpa using separator, by simpa using nul⟩

/-- All that a link names are parameters with bare values. -/
theorem mem_frontPairs {uriParam : PageRequest} (table : Bare uriParam.tableName) :
    ∀ pair ∈ frontPairs uriParam,
      ∃ param value, pair = (Param.name param, value) ∧ Bare value := by
  intro pair inside
  simp only [frontPairs, optional, List.mem_append, List.mem_ite_nil_right, List.mem_singleton]
    at inside
  rcases inside with ((⟨_, rfl⟩ | ⟨_, rfl⟩) | ⟨_, rfl⟩) | ⟨_, rfl⟩
  · exact ⟨.realtime, _, rfl, by decide, by decide⟩
  · exact ⟨.clienthashcode, _, rfl, bare_digits _⟩
  · exact ⟨.sqlhashcode, _, rfl, bare_digits _⟩
  · exact ⟨.tablename, _, rfl, table⟩

/-- A link is of the form that is read. -/
theorem paramForm_link {uriParam : PageRequest} {field : String} (table : Bare uriParam.tableName)
    (column : Bare (asBytes field)) (http : Http) (orderby page : UInt32) :
    ∃ q, link http uriParam field orderby page = http.baseUri ++ 63 :: q ∧ 0 ∉ q ∧
      ParamForm q (linkPairs uriParam field orderby page) := by
  have noNul : ∀ param : Param, 0 ∉ param.name := by
    intro param
    cases param <;> decide
  refine ⟨_, ?_, ?_, paramForm_ended ?_ (.next (keyValue column.1) (.next
    (keyValue (bare_decimal orderby).1) (.last (keyValue (bare_decimal page).1))))⟩
  · simp [link, linkBase_eq, Param.text]
  · have front : 0 ∉ ended (frontPairs uriParam) := by
      intro inside
      obtain ⟨pair, member, inside⟩ := List.mem_flatMap.mp inside
      obtain ⟨param, value, rfl, bare⟩ := mem_frontPairs table pair member
      simp [noNul, bare.2] at inside
    simp [front, noNul, column.2, (bare_decimal _).2]
  · intro pair member
    obtain ⟨param, value, rfl, bare⟩ := mem_frontPairs table pair member
    exact keyValue bare.1

/-- Different parameters have different names. -/
theorem name_inj {param other : Param} : param.name = other.name ↔ param = other := by
  refine ⟨?_, congrArg Param.name⟩
  cases param <;> cases other <;>
    first | exact fun _ => rfl | exact fun same => absurd same (by decide)

theorem lookup_name (param other : Param) (value : Bytes) (rest : List (Bytes × Bytes)) :
    ((param.name, value) :: rest).lookup other.name =
      if param = other then some value else rest.lookup other.name := by
  by_cases same : param = other
  · rw [same, List.lookup_cons_self, if_pos rfl]
  · have differ : (other.name == param.name) = false :=
      beq_false_of_ne fun equal => same (name_inj.mp equal).symm
    rw [List.lookup_cons, differ, if_neg same]

theorem lookup_optional (asked : Prop) [Decidable asked] (param other : Param) (value : Bytes) :
    (optional asked param value).reverse.lookup other.name =
      if asked ∧ param = other then some value else none := by
  unfold optional
  split_ifs with here both both
  · rw [List.reverse_singleton, lookup_name, if_pos both.2]
  · rw [List.reverse_singleton, lookup_name, if_neg fun same => both ⟨here, same⟩,
      List.lookup_nil]
  · exact absurd both.1 here
  · rfl

/-- What the map of a link has of each name. -/
theorem lastWins_linkPairs (uriParam : PageRequest) (field : String) (orderby page : UInt32)
    (param : Param) : lastWins (linkPairs uriParam field orderby page) param.name =
      match param with
      | .page => some (decimal page)
      | .orderby => some (decimal orderby)
      | .fd => some (asBytes field)
      | .tablename => if uriParam.tableName.length > 0 then some uriParam.tableName else none
      | .sqlhashcode => if uriParam.carried.sqlhashcode > 0 then
          some (digits uriParam.carried.sqlhashcode.toNat) else none
      | .clienthashcode => if uriParam.clientHashCode > 0 then
          some (digits uriParam.clientHashCode.toNat) else none
      | .realtime => if uriParam.isRealTime = true then some [116, 114, 117, 101] else none
      | _ => none := by
  simp only [lastWins, linkPairs, frontPairs, List.reverse_append, List.reverse_cons,
    List.reverse_nil, List.nil_append, List.cons_append, List.lookup_append, lookup_name,
    lookup_optional]
  cases param <;> simp

/-- What a link is read as. -/
theorem parseUriParam_link {uriParam : PageRequest} {field : String} {orderby page : UInt32}
    {http : Http} (pairs : http.uriParamMap = lastWins (linkPairs uriParam field orderby page))
    (order : orderby = 1 ∨ orderby = 2) (small : page < 0x80000000) (positive : 0 < page)
    (column : asString (asBytes field) = field) :
    parseUriParam http =
      { uriParam.carried with orderField := field, orderBy := orderby, currentPage := page } := by
  have get : ∀ param : Param, http.getUriParam param.name =
      (lastWins (linkPairs uriParam field orderby page) param.name).getD [] := by
    intro param
    rw [Http.getUriParam, pairs]
  have zero : (strtoul []).toUInt32 = 0 := by decide
  have hash : ∀ n : UInt32,
      (strtoul ((if n > 0 then some (digits n.toNat) else none).getD [])).toUInt32 = n := by
    intro n
    split_ifs with some_
    · exact strtoul_digits n
    · rw [Option.getD_none, zero]
      exact (UInt32.le_zero_iff.mp (UInt32.not_lt.mp some_)).symm
  have number : (atoi (decimal page)).toUInt32 = page := by
    have below := UInt32.lt_iff_toNat_lt.mp small
    rw [decimal, if_pos small, atoi_digits below]
    have cut : (Int32.ofInt (page.toNat : Int)).toUInt32 = UInt32.ofNat page.toNat := by
      apply UInt32.toBitVec_inj.mp
      simp
    rw [cut, UInt32.ofNat_toNat]
  have order' : (if decimal orderby = [49] then (1 : UInt32)
      else if decimal orderby = [50] then 2 else 1) = orderby := by
    rcases order with rfl | rfl <;> decide
  have named : ¬ page ≤ 0 := UInt32.not_le.mpr positive
  have table : (if uriParam.tableName.length > 0 then some uriParam.tableName else none).getD [] =
      uriParam.tableName := by
    split_ifs with some_
    · rfl
    · exact (List.length_eq_zero_iff.mp (by omega)).symm
  have real : decide (((if uriParam.isRealTime = true then some ([116, 114, 117, 101] : Bytes)
      else none).getD []).length > 0) = uriParam.isRealTime := by
    cases uriParam.isRealTime <;> rfl
  have none_ : (strtoul (none.getD [])).toUInt32 = 0 := zero
  have noType : (atoi (none.getD [])).toInt = 0 := by decide
  simp only [parseUriParam, get, lastWins_linkPairs, hash, number, table, real, none_, noType,
    Option.getD_some, column, order', named, if_false, ne_eq, not_true_eq_false, false_and]
  rfl

end HttpResponse

namespace HttpParse

/-! ## What requests hold -/

/-- The address has no question mark, no value has a separator, and nothing has a NUL. -/
structure Asked (http : Http) : Prop where
  baseUri : 63 ∉ http.baseUri ∧ 0 ∉ http.baseUri
  values : ∀ key value, http.uriParamMap key = some value → HttpResponse.Bare value

variable {uri q : Bytes} {pos fuel : Nat} {http http' : Http}

/-- What stands behind a place stands behind an earlier one. -/
theorem mem_text {a stop : Nat} {c : UInt8} (later : pos ≤ a) (inside : c ∈ text uri a stop) :
    c ∈ text uri pos stop := by
  unfold text at inside ⊢
  obtain ⟨skip, rfl⟩ := Nat.exists_eq_add_of_le later
  have parts : ((uri.drop (pos + skip)).take (stop - (pos + skip))) =
      ((uri.drop pos).take (stop - pos)).drop skip := by
    rw [List.drop_take, List.drop_drop, Nat.sub_sub]
  rw [parts] at inside
  exact List.mem_of_mem_drop inside

/-- One round puts a value between two separators into the map, and then ends or goes on. -/
theorem uriParamLoop_round {stop : Nat} (noNul : 0 ∉ uri) (param : 38 ∉ text uri pos stop)
    (asked : Asked http) (done : uriParamLoop uri (fuel + 1) pos stop http = .ok http') :
    Asked http' ∨ stop + 1 < uri.length ∧ ∃ next, Asked next ∧
      uriParamLoop uri fuel (stop + 1)
        ((strstr uri (stop + 1) [38]).getD uri.length) next = .ok http' := by
  rw [uriParamLoop] at done
  split at done
  · cases found : strstr uri pos [61] with
    | none => simp [found, used, Bind.bind, Except.bind] at done
    | some keyEnd =>
      have later : pos ≤ keyEnd := by
        obtain ⟨skip, _, rfl⟩ := Option.map_eq_some_iff.mp found
        exact Nat.le_add_right pos skip
      simp only [found, used, Bind.bind, Except.bind] at done
      split at done
      · exact absurd done (by simp)
      · have put : Asked { http with
            uriParamMap := Function.update http.uriParamMap (text uri pos keyEnd)
              (some (text uri (keyEnd + 1) stop)) } := by
          refine ⟨asked.baseUri, fun key value there => ?_⟩
          by_cases self : key = text uri pos keyEnd
          · simp only [self, Function.update_self, Option.some.injEq] at there
            subst there
            -- The value is a part of its parameter.
            refine ⟨fun inside => param (mem_text (by omega) inside), fun inside => noNul ?_⟩
            exact List.mem_of_mem_drop (List.mem_of_mem_take inside)
          · exact asked.values key value (by simpa [self] using there)
        split at done
        · obtain rfl := Except.ok.inj done
          exact Or.inl put
        · exact Or.inr ⟨by omega, _, put, done⟩
  · obtain rfl := Except.ok.inj done
    exact Or.inl asked

/-- Every value is read between two separators. -/
theorem asked_uriParamLoop (here : At uri pos q) (whole : uri.length = pos + q.length)
    (noNul : 0 ∉ uri) (asked : Asked http)
    (done : uriParamLoop uri fuel pos ((strstr uri pos [38]).getD uri.length) http = .ok http') :
    Asked http' := by
  -- The induction is on the rounds of the loop.
  induction fuel generalizing q pos http with
  | zero => simp [uriParamLoop] at done
  | succ fuel ih =>
    rcases paramEnd here whole with ⟨single, stop⟩ | ⟨param, rest, rfl, fresh, stop⟩
    · rw [stop] at done
      rw [← List.append_nil q] at here
      rcases uriParamLoop_round noNul (here.text.symm ▸ single) asked done with
        ended | ⟨inside, _⟩
      · exact ended
      · omega
    · rw [stop] at done
      rcases uriParamLoop_round noNul (here.text.symm ▸ fresh) asked done with
        ended | ⟨_, next, put, further⟩
      · exact ended
      · obtain ⟨behind, length⟩ := At.next here whole
        exact ih behind length put further

/-- Every request with a parsed URI is of this kind. -/
theorem asked_of_parseUri {uriText : UriText} (done : parseUri http uriText = .ok http') :
    Asked http' := by
  have noNul := uriText.noNul
  by_cases question : 63 ∈ uriText.chars
  · obtain ⟨base, q, split, first⟩ := List.eq_append_cons_of_mem question
    obtain ⟨here, length, same⟩ := @parseUri_params _ http uriText _ split first
    rw [same] at done
    have plain : 0 ∉ base := fun inside => noNul (split ▸ List.mem_append_left _ inside)
    refine asked_uriParamLoop here length noNul ⟨⟨first, plain⟩, ?_⟩ done
    exact fun key value there => absurd there (by simp)
  · rw [parseUri_plain http uriText question] at done
    obtain rfl := Except.ok.inj done
    exact ⟨⟨question, noNul⟩, fun key value there => by simp [lastWins] at there⟩

end HttpParse

end OneProxy
