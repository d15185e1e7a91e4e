import OneProxy.Lib.OrderedMap
import OneProxy.Httpserver.NextPages

/-! The tables of the monitor: what their rows add up, and what the links in them lead to. -/

namespace OneProxy

/-- `std::string`, in the order of its bytes. -/
structure StdString where
  chars : Bytes

/-- Different strings have different numbers. -/
theorem StdString.numbers_injective :
    Function.Injective fun s : StdString => s.chars.map UInt8.toNat := by
  intro s t same
  cases s
  cases t
  exact congrArg StdString.mk (List.map_injective_iff.mpr (fun _ _ => UInt8.toNat_inj.mp) same)

instance : LinearOrder StdString :=
  LinearOrder.lift' (fun s => s.chars.map UInt8.toNat) StdString.numbers_injective

namespace HttpResponse

open Record SortedListing Tool HttpParse

/-! ## The tables of the statements -/

/-- `TableInfoPart`. -/
structure TableInfoPart where
  sqls : UInt64
  selectExec : UInt64
  selectRows : UInt64
  selectTime : UInt64
  insertExec : UInt64
  insertRows : UInt64
  insertTime : UInt64
  updateExec : UInt64
  updateRows : UInt64
  updateTime : UInt64
  deleteExec : UInt64
  deleteRows : UInt64
  deleteTime : UInt64

/-- `clear`, all bytes zero. -/
def TableInfoPart.zero : TableInfoPart := ⟨0, 0, 0, 0, 0, 0, 0, 0, 0, 0, 0, 0, 0⟩

/-- `TableInfo`. -/
structure TableInfo where
  part : TableInfoPart
  tableName : Bytes

/-- The constructor. -/
def TableInfo.new : TableInfo := ⟨.zero, []⟩

/-- The tables of a statement, in the order of the set. -/
def tables (info : Record.SqlInfo) : List StdString := (info.tableSet.image StdString.mk).sort

/-- What a statement adds to one of its tables. -/
def countSql (info : Record.SqlInfo) (name : StdString) (table : TableInfo) : TableInfo :=
  let part := { table.part with sqls := table.part.sqls + 1 }
  let exec := info.part.exec
  let rows := info.part.totalRow
  let time := info.part.execTime
  let type := info.part.type
  let part :=
    if type = SqlOp.select.code then
      { part with
        selectExec := part.selectExec + exec
        selectRows := part.selectRows + rows
        selectTime := part.selectTime + time }
    else if type = SqlOp.insert.code then
      { part with
        insertExec := part.insertExec + exec
        insertRows := part.insertRows + rows
        insertTime := part.insertTime + time }
    else if type = SqlOp.update.code then
      { part with
        updateExec := part.updateExec + exec
        updateRows := part.updateRows + rows
        updateTime := part.updateTime + time }
    else if type = SqlOp.delete.code then
      { part with
        deleteExec := part.deleteExec + exec
        deleteRows := part.deleteRows + rows
        deleteTime := part.deleteTime + time }
    else part
  ⟨part, name.chars⟩

/-- `tableInfoMap`: what `response_toptables` collects of the statements. -/
def tableInfoMap (sqlInfoMap : List (Entry PageSqlInfo)) : OrderedMap StdString TableInfo :=
  OrderedMap.group .new (fun info => tables info.2.toSqlInfo)
    (fun info name table => countSql info.2.toSqlInfo name table)
    (sqlInfoMap.filter fun info => decide info.2.isShow)

/-- `response_toptables`, with the columns of both lines of titles. -/
def toptables : NumberedPage (StdString × TableInfo) where
  titles := [
    .plain,
    .orderField "Sqls" (·.2.part.sqls),
    .plain,
    .plain,
    .plain,
    .plain,
    .orderField "SelectExec" (·.2.part.selectExec),
    .orderField "SelectRows" (·.2.part.selectRows),
    .orderField "SelectTime" (·.2.part.selectTime),
    .orderField "InsertExec" (·.2.part.insertExec),
    .orderField "InsertRows" (·.2.part.insertRows),
    .orderField "InsertTime" (·.2.part.insertTime),
    .orderField "UpdateExec" (·.2.part.updateExec),
    .orderField "UpdateRows" (·.2.part.updateRows),
    .orderField "UpdateTime" (·.2.part.updateTime),
    .orderField "DeleteExec" (·.2.part.deleteExec),
    .orderField "DeleteRows" (·.2.part.deleteRows),
    .orderField "DeleteTime" (·.2.part.deleteTime)]
  isShow _ := true
  entries _ map := map
  store info := info
  cells info :=
    let part := info.2.part
    [.text (cStr info.2.tableName), lld part.sqls,
      lld part.selectExec, lld part.selectRows, lld part.selectTime,
      lld part.insertExec, lld part.insertRows, lld part.insertTime,
      lld part.updateExec, lld part.updateRows, lld part.updateTime,
      lld part.deleteExec, lld part.deleteRows, lld part.deleteTime]
  numbered _ _ _ := rfl

/-- The link in the row of a table, from the root of the server. -/
def tableLink (tableName : Bytes) : Bytes :=
  [47, 116, 111, 112, 115, 113, 108, 115, 63] ++ Param.tablename.text tableName

/-! ## What the rows add up -/

/-- The statements that a table distinguishes. -/
inductive TableOp
  | select | insert | update | delete

/-- The kind of the statements. -/
def TableOp.kind : TableOp → SqlOp
  | select => .select
  | insert => .insert
  | update => .update
  | delete => .delete

/-- The figures that are added up. -/
inductive Figure
  | exec | rows | time

/-- The figure of a statement. -/
def Figure.of : Figure → SqlInfoPart → UInt64
  | exec => SqlInfoPart.exec
  | rows => SqlInfoPart.totalRow
  | time => SqlInfoPart.execTime

/-- The figure of a table for one kind of statements. -/
def TableInfoPart.figure (part : TableInfoPart) : TableOp → Figure → UInt64
  | .select, .exec => part.selectExec
  | .select, .rows => part.selectRows
  | .select, .time => part.selectTime
  | .insert, .exec => part.insertExec
  | .insert, .rows => part.insertRows
  | .insert, .time => part.insertTime
  | .update, .exec => part.updateExec
  | .update, .rows => part.updateRows
  | .update, .time => part.updateTime
  | .delete, .exec => part.deleteExec
  | .delete, .rows => part.deleteRows
  | .delete, .time => part.deleteTime

/-- The sum of a figure over the statements of a kind. -/
def total (op : TableOp) (figure : Figure) (sqls : List (Entry PageSqlInfo)) : UInt64 :=
  ((sqls.filter fun info => info.2.part.type = op.kind.code).map fun info =>
    figure.of info.2.part).sum

variable {name : StdString} {table : TableInfo} {sqls : List (Entry PageSqlInfo)}

/-- A statement counts once, and only for its kind. -/
theorem countSql_spec (info : Record.SqlInfo) (name : StdString) (table : TableInfo) :
    (countSql info name table).tableName = name.chars ∧
      (countSql info name table).part.sqls = table.part.sqls + 1 ∧
      ∀ op figure, (countSql info name table).part.figure op figure =
        table.part.figure op figure +
          if info.part.type = op.kind.code then figure.of info.part else 0 := by
  refine ⟨rfl, ?_, ?_⟩
  · simp only [countSql]
    split_ifs <;> rfl
  · -- The codes of the four kinds differ.
    have codes : SqlOp.select.code ≠ SqlOp.insert.code ∧ SqlOp.select.code ≠ SqlOp.update.code ∧
        SqlOp.select.code ≠ SqlOp.delete.code ∧ SqlOp.insert.code ≠ SqlOp.update.code ∧
        SqlOp.insert.code ≠ SqlOp.delete.code ∧ SqlOp.update.code ≠ SqlOp.delete.code := by decide
    intro op figure
    simp only [countSql]
    split_ifs with select insert update delete <;>
      cases op <;> cases figure <;>
        simp_all [TableInfoPart.figure, TableOp.kind, Figure.of]

/-- The shown statements on a table. -/
def statementsOn (tableName : Bytes) (sqls : List (Entry PageSqlInfo)) :
    List (Entry PageSqlInfo) :=
  sqls.filter fun info => decide (info.2.isShow ∧ tableName ∈ info.2.tableSet)

/-- A row of a table counts some statements, and adds up the figures of each kind of them. -/
structure AddsUp (table : TableInfo) (sqls : List (Entry PageSqlInfo)) : Prop where
  counted : table.part.sqls = UInt64.ofNat sqls.length
  figures : ∀ op figure, table.part.figure op figure = total op figure sqls

theorem mem_tables {info : Record.SqlInfo} : name ∈ tables info ↔ name.chars ∈ info.tableSet := by
  rw [tables, Finset.mem_sort, Finset.mem_image]
  constructor
  · rintro ⟨chars, member, rfl⟩
    exact member
  · exact fun member => ⟨_, member, rfl⟩

/-- What some statements make of a table. -/
theorem foldl_countSql (table : TableInfo) :
    (sqls.foldl (fun table info => countSql info.2.toSqlInfo name table) table).part.sqls =
        table.part.sqls + UInt64.ofNat sqls.length ∧
      ∀ op figure, (sqls.foldl (fun table info => countSql info.2.toSqlInfo name table)
        table).part.figure op figure = table.part.figure op figure + total op figure sqls := by
  -- The induction is on the statements, with what the first of them leaves.
  induction sqls generalizing table with
  | nil => simp [total]
  | cons info sqls ih =>
    obtain ⟨_, counted, figures⟩ := countSql_spec info.2.toSqlInfo name table
    obtain ⟨counted', figures'⟩ := ih (countSql info.2.toSqlInfo name table)
    refine ⟨?_, fun op figure => ?_⟩
    · rw [List.foldl_cons, counted', counted, List.length_cons, UInt64.ofNat_add, add_assoc,
        add_comm 1]
      rfl
    · rw [List.foldl_cons, figures', figures, add_assoc, total, total, List.filter_cons]
      by_cases kind : info.2.part.type = op.kind.code
      · simp [kind]
      · simp [kind]

theorem nodup_tables (info : Record.SqlInfo) : (tables info).Nodup := Finset.sort_nodup _ _

/-- What is kept of a table comes from the shown statements on it. -/
theorem get?_tableInfoMap (name : StdString) (sqls : List (Entry PageSqlInfo)) :
    (tableInfoMap sqls).get? name =
      if statementsOn name.chars sqls = [] then none
      else some ((statementsOn name.chars sqls).foldl
        (fun table info => countSql info.2.toSqlInfo name table) .new) := by
  have shown : (sqls.filter fun info => decide info.2.isShow).filter
      (fun info => decide (name ∈ tables info.2.toSqlInfo)) = statementsOn name.chars sqls := by
    rw [List.filter_filter, statementsOn]
    refine List.filter_congr fun info _ => ?_
    simp only [mem_tables, ← Bool.decide_and, and_comm]
  rw [tableInfoMap, OrderedMap.get?_group fun info _ => nodup_tables info.2.toSqlInfo, shown]

/-- The row of a table adds up the shown statements on the table. -/
theorem tableInfoMap_spec (member : (name, table) ∈ (tableInfoMap sqls).entries) :
    table.tableName = name.chars ∧ statementsOn name.chars sqls ≠ [] ∧
      AddsUp table (statementsOn name.chars sqls) := by
  have found := (get?_tableInfoMap name sqls).symm.trans (OrderedMap.get?_of_mem member)
  split_ifs at found with none
  obtain ⟨counted, figures⟩ := @foldl_countSql name (statementsOn name.chars sqls) TableInfo.new
  have fresh : ∀ op figure, TableInfo.new.part.figure op figure = 0 := by
    intro op figure
    cases op <;> cases figure <;> rfl
  obtain rfl := Option.some.inj found
  refine ⟨?_, none, ⟨counted.trans (zero_add _), fun op figure => ?_⟩⟩
  · -- The last statement has written the name.
    obtain ⟨front, last, split⟩ :=
      (List.eq_nil_or_concat (statementsOn name.chars sqls)).resolve_left none
    rw [split, List.concat_eq_append, List.foldl_append]
    rfl
  · rw [figures, fresh, zero_add]

/-- Every table of a shown statement has a row. -/
theorem exists_table {tableName : Bytes} {info : Entry PageSqlInfo} (there : info ∈ sqls)
    (shown : info.2.isShow) (on : tableName ∈ info.2.tableSet) :
    ∃ table, (⟨tableName⟩, table) ∈ (tableInfoMap sqls).entries := by
  have some_ : statementsOn tableName sqls ≠ [] :=
    List.ne_nil_of_mem (List.mem_filter.mpr ⟨there, decide_eq_true ⟨shown, on⟩⟩)
  have found := get?_tableInfoMap ⟨tableName⟩ sqls
  rw [if_neg some_] at found
  exact ⟨_, OrderedMap.mem_of_get? found⟩

/-! ## What the links in the rows lead to -/

variable {tableName : Bytes} {http http' : Http}

/-- What the link of a table asks for. -/
theorem follow_tableLink (bare : Bare tableName) (http : Http) :
    ∃ http', follow http (tableLink tableName) = some http' ∧ Asked http' ∧
      parseUriParam http' =
        { orderField := "", orderBy := 1, currentPage := 1, clientHashCode := 0, sqlhashcode := 0,
          tableName := tableName, sqltype := 0, clientuserappinfohashcode := 0,
          isRealTime := false, transhashcode := 0 } := by
  have noNul : 0 ∉ tableLink tableName := by
    have name : 0 ∉ Param.tablename.name := by decide
    simp [tableLink, Param.text, name, bare.2]
  have read := @parseUri_form _ _ http ⟨_, noNul⟩ [47, 116, 111, 112, 115, 113, 108, 115] rfl
    (by decide) (ParamForm.last (@keyValue .tablename _ bare.1))
  refine ⟨_, follow_of_parse noNul read, asked_of_parseUri read, ?_⟩
  have get : ∀ param : Param, (lastWins [(Param.tablename.name, tableName)] param.name).getD [] =
      if Param.tablename = param then tableName else [] := by
    intro param
    rw [lastWins, List.reverse_singleton, lookup_name]
    split_ifs <;> rfl
  simp only [parseUriParam, Http.getUriParam, get, reduceCtorEq, if_false, if_true]
  rfl

/-- The entries that a link and the ones to the next pages lead through. -/
def linked {ν : Type} (page : Page ν) (sort : Sorting ν) (pageSize : PageSize) (map : List ν)
    (fuel : Nat) (http : Http) (link : Bytes) : List ν :=
  match follow http link with
  | none => []
  | some http => (followNext page sort pageSize map fuel http).flatten

/-- The link of a table leads through the shown statements on it. -/
theorem linked_tableLink {fuel : Nat} (print : Printed) (users : StdMap UInt32 ClientUserAppInfo)
    (sort : Sorting (Entry PageSqlInfo)) (pageSize : PageSize) (http : Http)
    (named : tableName ≠ []) (bare : Bare tableName) (few : sqls.length < 0x80000000)
    (rounds : sqls.length ≤ fuel) :
    linked (topsqls print users) sort pageSize sqls (fuel + 1) http (tableLink tableName) =
      statementsOn tableName sqls := by
  obtain ⟨http', there, asked, read⟩ := follow_tableLink bare http
  -- No column is asked for, so that the statements stay as they are in the map.
  have sorted : (topsqls print users).sorted sort (parseUriParam http').toUriParam sqls =
      statementsOn tableName sqls := by
    have selects := topsqls_entries print users (parseUriParam http').toUriParam sqls
    rw [Page.sorted, changeMap2vecSort, selects, if_neg (by simp [read]), statementsOn]
    refine List.filter_congr fun info _ => ?_
    simp [SqlSelected, read, named]
  have carried : (parseUriParam http').carried = parseUriParam http' := by
    rw [read]
    simp [PageRequest.carried]
  have fewer : (statementsOn tableName sqls).length ≤ sqls.length := List.length_filter_le _ _
  have all := @nextPages_kept _ (numberedSqls print users) sort pageSize sqls _ _ fuel asked rfl
    (by rw [read]) (by rw [carried]) ((congrArg List.length sorted).trans_lt (by omega))
    ((congrArg List.length sorted).trans_le (by omega))
  rw [linked, there]
  exact all.trans sorted

/-- The rows of the tables for some statements, and what their links list. -/
structure TableRows (rows : List (StdString × TableInfo)) (sqls : List (Entry PageSqlInfo))
    (listed : Bytes → List (Entry PageSqlInfo)) : Prop where
  once : (rows.map fun row => row.2.tableName).Nodup
  complete : ∀ tableName, (∃ row ∈ rows, row.2.tableName = tableName) ↔
    ∃ info ∈ sqls, info.2.isShow ∧ tableName ∈ info.2.tableSet
  lists : ∀ row ∈ rows, row.2.tableName ≠ [] → Bare row.2.tableName →
    listed row.2.tableName = statementsOn row.2.tableName sqls ∧
      AddsUp row.2 (listed row.2.tableName)

/-- `/toptables`. -/
def tablesUri : UriText := ⟨[47, 116, 111, 112, 116, 97, 98, 108, 101, 115], by decide⟩

/-- The request with this URI. -/
def tablesRequest : Http :=
  { Http.fresh .get 0 0 with
    uri := tablesUri.chars, baseUri := tablesUri.chars, uriParamMap := lastWins [] }

/-- A statement on the table `t` that has been executed once. -/
def oneSql : MapEntries PageSqlInfo where
  entries := [(1, ⟨⟨⟨1, 0, 1, 1, 0, 0, 0, 0, 0, 1⟩, [], {[116]}, ∅⟩, 0, 0⟩)]
  sorted := List.pairwise_singleton _ _

/-- The only table is the one of the only statement. -/
theorem length_oneSql : (tableInfoMap oneSql.entries).entries.length = 1 := by
  have tables_ : ∀ part, tables ⟨part, [], {[116]}, ∅⟩ = [⟨[116]⟩] := by
    intro part
    simp [tables]
  simp [tableInfoMap, oneSql, OrderedMap.group, OrderedMap.upsert, OrderedMap.modify,
    OrderedMap.insertNew, OrderedMap.has, OrderedMap.empty, OrderedMap.insertIn, tables_,
    Record.SqlInfo.isShow]

end HttpResponse

end OneProxy
