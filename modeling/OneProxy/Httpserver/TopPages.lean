import OneProxy.Lib.SortedListing
import OneProxy.Stats.Clearing

/-! The sorted pages of the monitor: its clients, its users and its statements. -/

namespace OneProxy

/-- `format_string`: a long text is cut and ends with three points. -/
def Tool.formatString (str : Bytes) (strLen length : Nat) : Bytes :=
  if strLen > length then str.take (length - 3) ++ [46, 46, 46] else str.take strLen

namespace HttpResponse

open Record SortedListing Tool

/-! ## Tables -/

/-- What the URI of a page asks for. -/
structure UriParam where
  orderField : String
  /-- 1: ascending order, 2: descending order. -/
  orderBy : UInt32
  currentPage : UInt32
  clientHashCode : UInt32
  sqlhashcode : UInt32
  tableName : Bytes
  sqltype : Int
  clientuserappinfohashcode : UInt32

/-- The value that a cell of a row displays. -/
inductive Cell
  | text (value : Bytes)
  | number (value : Int)
  /-- `%.2f`, in hundredths. -/
  | hundredths (value : Int)
  /-- `OnLine` or `OffLine`. -/
  | status (onLine : Bool)
  /-- A time, in seconds. -/
  | time (seconds : Int)
  deriving DecidableEq

/-- What the rows are ordered by. -/
def Cell.order : Cell → Int
  | text _ => 0
  | number value => value
  | hundredths value => value
  | status onLine => if onLine then 1 else 0
  | time seconds => seconds

/--
`TableTitleInfo`: what a link to the column asks for, and the field that `ascFunc` and `descFunc`
compare.
-/
structure Title (ν : Type) where
  href : String
  field : Option (ν → Nat)

/-- `init_tableTitle`: a column that cannot be sorted by. -/
def Title.plain {ν : Type} : Title ν := ⟨"", none⟩

/-- `order_field`: a column with the field that it is sorted by. -/
def Title.orderField {ν : Type} (href : String) (field : ν → UInt64) : Title ν :=
  ⟨href, some fun info => (field info).toNat⟩

/-- `order_field_bool`. -/
def Title.orderFieldBool {ν : Type} (href : String) (field : ν → Bool) : Title ν :=
  ⟨href, some fun info => if field info then 1 else 0⟩

/--
A page: its columns, the entries that it is about, and the row of an entry, before which some
figures are stored in the entry.
-/
structure Page (ν : Type) where
  titles : List (Title ν)
  isShow : ν → Bool
  /-- The entries to sort: those of the map, or a copy of some of them. -/
  entries : UriParam → List ν → List ν
  store : ν → ν
  cells : ν → List Cell

section Listing

variable {ν : Type}

/-- One round of the loop over the columns. -/
def sortByTitle (sort : Sorting ν) (uriParam : UriParam) (vec : List ν) (title : Title ν) :
    List ν :=
  match title.field with
  | none => vec
  | some field =>
    if title.href = uriParam.orderField then
      if uriParam.orderBy = 1 then sort.run (fun a b => decide (field a < field b)) vec
      else if uriParam.orderBy = 2 then sort.run (fun a b => decide (field a > field b)) vec
      else vec
    else vec

/-- `change_map2vecSort`. -/
def changeMap2vecSort (sort : Sorting ν) (page : Page ν) (uriParam : UriParam)
    (mapobject : List ν) : List ν :=
  let vec := mapobject.filter page.isShow
  if (uriParam.orderBy = 1 ∨ uriParam.orderBy = 2) ∧ uriParam.orderField ≠ "" then
    page.titles.foldl (sortByTitle sort uriParam) vec
  else vec

/-- The number of rows of a page, an `int` that is positive. -/
structure PageSize where
  size : UInt32
  positive : 0 < size
  small : size < 0x80000000

/-- The entries that a page has rows of. -/
def Page.listed (page : Page ν) (sort : Sorting ν) (uriParam : UriParam) (pageSize : PageSize)
    (map : List ν) : List ν :=
  let vec := changeMap2vecSort sort page uriParam (page.entries uriParam map)
  let startIndex := (uriParam.currentPage - 1) * pageSize.size
  let endIndex := uriParam.currentPage * pageSize.size
  let endIndex := if endIndex.toNat > vec.length then vec.length else endIndex.toNat
  (vec.take endIndex).drop startIndex.toNat

/-- The row of an entry. -/
def Page.row (page : Page ν) (info : ν) : List Cell := page.cells (page.store info)

/-- The rows of a page. -/
def Page.respond (page : Page ν) (sort : Sorting ν) (uriParam : UriParam) (pageSize : PageSize)
    (map : List ν) : List (List Cell) :=
  (page.listed sort uriParam pageSize map).map page.row

end Listing

/-! ## The three pages -/

/-- What is printed of a number divided by 1024 or by 1000, in hundredths. -/
structure Printed where
  kilobytes : UInt64 → Int
  seconds : UInt64 → Int
  kilobytes_mono : ∀ a b, a ≤ b → kilobytes a ≤ kilobytes b
  seconds_mono : ∀ a b, a ≤ b → seconds a ≤ seconds b

/-- An unsigned number taken as a signed one. -/
def signed (n : UInt64) : Int :=
  if n.toNat < 0x8000000000000000 then n.toNat else n.toNat - 0x10000000000000000

/-- `%lld`. -/
def lld (n : UInt64) : Cell := .number (signed n)

/-- `%u` of a size. -/
def u (size : Nat) : Cell := .number (size % 0x100000000 : Nat)

/-- An entry of a map, under its key. -/
abbrev Entry (ν : Type) := UInt32 × ν

instance (info : ClientQueryInfo) : Decidable info.isShow :=
  inferInstanceAs (Decidable (_ ≠ _))

instance (info : ClientUserAppInfo) : Decidable info.isShow :=
  inferInstanceAs (Decidable (¬ _))

instance (info : Record.SqlInfo) : Decidable info.isShow :=
  inferInstanceAs (Decidable (_ ≠ _))

/-- `response_topclients`, at a time. -/
def topclients (print : Printed) (now : UInt64) : Page (Entry ClientQueryInfo) where
  titles := [
    .plain,
    .plain,
    .orderField "Connect" (·.2.part.connectNum),
    .orderField "ConnectServerFail" (·.2.part.connServerFail),
    .orderField "SQLs" (·.2.part.sqlSize),
    .orderField "Query" (·.2.part.queryNum),
    .orderField "QueryFailed" (·.2.part.queryFailNum),
    .orderField "Trans" (·.2.part.trxNum),
    .orderField "Select" (·.2.part.selectNum),
    .orderField "Insert" (·.2.part.insertNum),
    .orderField "Update" (·.2.part.updateNum),
    .orderField "NetSend" (·.2.part.upDataSize),
    .orderField "NetRecv" (·.2.part.downDataSize),
    .orderField "OnLineTime" (·.2.part.onLineTime),
    .orderFieldBool "OnLineStatus" (·.2.part.onLineStatus),
    .orderField "LatestConnectTime" (·.2.part.startConnectTime)]
  isShow info := decide info.2.isShow
  entries uriParam map :=
    if uriParam.sqlhashcode ≤ 0 then map
    else map.filter fun info => decide (uriParam.sqlhashcode ∈ info.2.sqlList ∧ info.2.isShow)
  store info := (info.1, { info.2 with
    part := { info.2.part with sqlSize := UInt64.ofNat info.2.sqlList.card } })
  cells info :=
    let part := info.2.part
    let onLineTime :=
      if part.onLineStatus then part.onLineTime + (now - part.startConnectTime)
      else part.onLineTime
    [u part.hashCode.toNat, .text (cStr info.2.ipAddr), lld part.connectNum,
      lld part.connServerFail, u info.2.sqlList.card, lld part.queryNum, lld part.queryFailNum,
        lld part.trxNum,
      lld part.selectNum, lld part.insertNum, lld part.updateNum,
      .hundredths (print.kilobytes part.upDataSize),
      .hundredths (print.kilobytes part.downDataSize),
      .hundredths (print.seconds onLineTime), .status part.onLineStatus,
      .time (signed info.2.latestConnectTime)]

/-- `response_topwho`. -/
def topwho : Page (Entry ClientUserAppInfo) where
  titles := [
    .plain,
    .plain,
    .plain,
    .orderField "loginTimes" (·.2.part.loginTimes),
    .orderField "sqlcount" (·.2.part.sqlcount)]
  isShow info := decide info.2.isShow
  entries _ map := map
  store info := (info.1, { info.2 with
    part := { info.2.part with sqlcount := UInt64.ofNat info.2.sqlList.card } })
  cells info := [.text (cStr info.2.hostName), .text (cStr info.2.userName),
    .text (cStr info.2.appName), lld info.2.part.loginTimes, lld info.2.part.sqlcount]

/-- `SqlInfo`, with the figures that only the page of the statements stores. -/
structure PageSqlInfo extends Record.SqlInfo where
  clientSetSize : UInt64
  sqlSize : UInt64

/-- `response_topsqls`, with the map of the users. -/
def topsqls (print : Printed) (clientUserAppMap : StdMap UInt32 ClientUserAppInfo) :
    Page (Entry PageSqlInfo) where
  titles := [
    .plain,
    .plain,
    .orderField "Tabs" (·.2.part.tabs),
    .orderField "Exec" (·.2.part.exec),
    .orderField "Trans" (·.2.part.trans),
    .orderField "Fails" (·.2.part.fail),
    .orderField "Execute" (·.2.part.execTime),
    .orderField "TotalRow" (·.2.part.totalRow),
    .orderField "RecvSize" (·.2.part.recvSize),
    .orderField "ClientNum" (·.2.clientSetSize),
    .orderField "SqlSize" (·.2.sqlSize)]
  isShow info := decide info.2.isShow
  entries uriParam map :=
    if uriParam.clientHashCode > 0 then
      map.filter fun info => decide (uriParam.clientHashCode ∈ info.2.clientSet ∧ info.2.isShow ∧
        (uriParam.sqltype = 0 ∨ info.2.part.fail > 0))
    else if uriParam.tableName.length > 0 then
      map.filter fun info => decide (uriParam.tableName ∈ info.2.tableSet ∧ info.2.isShow)
    else if uriParam.clientuserappinfohashcode > 0 then
      match clientUserAppMap uriParam.clientuserappinfohashcode with
      | none => []
      | some user => map.filter fun info => decide (info.1 ∈ user.sqlList)
    else map
  store info := (info.1, { info.2 with
    clientSetSize := UInt64.ofNat info.2.clientSet.card
    sqlSize := UInt64.ofNat info.2.sqlText.length })
  cells info :=
    let part := info.2.part
    let sqlText := info.2.sqlText
    [u part.hashCode.toNat,
      .text (cStr (formatString sqlText (sqlText.length % 0x100000000) 64)),
      lld part.tabs, lld part.exec, lld part.trans, lld part.fail, lld part.execTime,
      lld part.totalRow, .hundredths (print.kilobytes part.recvSize), u info.2.clientSet.card,
      lld info.2.sqlSize]

end HttpResponse

end OneProxy
