import OneProxy.Httpserver.TopTables

/-! The sets of tables that statements use together, and the page that finds a statement. -/

namespace OneProxy.HttpResponse

open Record SortedListing Tool HttpParse

/-! ## The sets of tables -/

/-- `TableMapInfo`, with the figure of its part. -/
structure TableMapInfo where
  exec : UInt64
  tablesName : Bytes
  sqlHashCode : Finset UInt32

/-- The constructor. -/
def TableMapInfo.new : TableMapInfo := ⟨0, [], ∅⟩

/-- The text under which a statement is counted: its kind, and the names of its tables. -/
def tablesKey (info : Record.SqlInfo) : Bytes :=
  (if info.part.trans > 0 then [116, 114, 120, 58] else [113, 114, 121, 58]) ++
    [44].intercalate ((tables info).map fun name => cStr name.chars)

/-- What a statement adds to the tables that it uses. -/
def countTables (info : Entry PageSqlInfo) (key : StdString) (tableMap : TableMapInfo) :
    TableMapInfo where
  exec := tableMap.exec + info.2.part.exec
  tablesName := key.chars
  sqlHashCode := insert info.1 tableMap.sqlHashCode

/-- `tableMapInfoMap`: what `response_toptablesMap` collects of the statements. -/
def tableMapInfoMap (sqlInfoMap : List (Entry PageSqlInfo)) : OrderedMap StdString TableMapInfo :=
  OrderedMap.group .new
    (fun info => if info.2.tableSet = ∅ then [] else [⟨tablesKey info.2.toSqlInfo⟩]) countTables
    (sqlInfoMap.filter fun info => decide info.2.isShow)

/-- `response_toptablesMap`. -/
def toptablesMap : NumberedPage (StdString × TableMapInfo) where
  titles := [
    .plain,
    .orderField "exec" (·.2.exec),
    .plain]
  isShow _ := true
  entries _ map := map
  store info := info
  cells info := [.text (cStr info.2.tablesName), lld info.2.exec]
  numbered _ _ _ := rfl

/-- The link to a statement in a row, from the root of the server. -/
def sqlLink (sqlHashCode : UInt32) : Bytes :=
  [47, 102, 105, 110, 100, 115, 113, 108, 63] ++ Param.sqlhashcode.text (digits sqlHashCode.toNat)

/-! ## Finding a statement -/

/-- `find` of a map. -/
def findEntry {ν : Type} (map : List (Entry ν)) (key : UInt32) : Option ν :=
  (map.find? (·.1 = key)).map (·.2)

/-- The rows of `response_findsql` about a statement. -/
def sqlFields (print : Printed) (info : Record.SqlInfo) : List (String × Cell) :=
  [("Hashcode", u info.part.hashCode.toNat),
    ("SQL Text", .text (cStr info.sqlText)),
    ("Exec", lld info.part.exec),
    ("Total Time", .hundredths (print.seconds info.part.execTime)),
    ("Rows", lld info.part.totalRow),
    ("TableNum", lld info.part.tabs),
    ("ClientNum", .number info.clientSet.card)]

/-- The links to the statements of a transaction. -/
def transLinks (info : TransInfo) : Bytes :=
  info.sqlHashCode.sort.flatMap fun sqlHashCode =>
    -- `<a href='findsql?sqlhashcode=%u'>%u;</a>`
    [60, 97, 32, 104, 114, 101, 102, 61, 39, 102, 105, 110, 100, 115, 113, 108, 63] ++
      Param.sqlhashcode.text (digits sqlHashCode.toNat) ++ [39, 62] ++
      digits sqlHashCode.toNat ++ [59, 60, 47, 97, 62]

/-- The texts of the statements of a transaction, as far as they are known. -/
def transTexts (sqlInfoMap : List (Entry PageSqlInfo)) (info : TransInfo) : Bytes :=
  info.sqlHashCode.sort.flatMap fun sqlHashCode =>
    match findEntry sqlInfoMap sqlHashCode with
    | none => []
    | some sql => cStr sql.sqlText ++ [59]

/-- The rows of `response_findsql` about a transaction. -/
def transFields (sqlInfoMap : List (Entry PageSqlInfo)) (info : TransInfo) :
    List (String × Cell) :=
  [("Hashcode", u info.part.transHashCode.toNat),
    ("SQL HashCodes", .text (transLinks info)),
    ("SQL Texts", .text (transTexts sqlInfoMap info))]

/-- `response_findsql`: its rows, each a field and a value. -/
def findsql (print : Printed) (sqlInfoMap : List (Entry PageSqlInfo))
    (transInfoMap : List (Entry TransInfo)) (uriParam : PageRequest) : List (String × Cell) :=
  let sql := if uriParam.sqlhashcode ≠ 0 then findEntry sqlInfoMap uriParam.sqlhashcode else none
  let trans :=
    if uriParam.transhashcode ≠ 0 then findEntry transInfoMap uriParam.transhashcode else none
  let rows := (sql.elim [] fun info => sqlFields print info.toSqlInfo) ++
    trans.elim [] (transFields sqlInfoMap)
  if (uriParam.sqlhashcode ≠ 0 ∨ uriParam.transhashcode ≠ 0) ∧ sql.isNone ∧ trans.isNone then
    [("Hashcode", u (if uriParam.sqlhashcode ≠ 0 then uriParam.sqlhashcode
        else uriParam.transhashcode).toNat),
      ("SQL Text", .text [])]
  else rows

/-- What the page of a link that finds a statement displays as a field. -/
def linkedField (print : Printed) (sqlInfoMap : List (Entry PageSqlInfo))
    (transInfoMap : List (Entry TransInfo)) (http : Http) (field : String) (link : Bytes) :
    Option Cell :=
  (follow http link).bind fun http =>
    (findsql print sqlInfoMap transInfoMap (parseUriParam http)).lookup field

/-! ## The texts of the sets -/

/-- The names of the tables of a statement have neither a comma nor a NUL. -/
def PlainTables (info : Record.SqlInfo) : Prop := ∀ name ∈ info.tableSet, 44 ∉ name ∧ 0 ∉ name

variable {info info' : Record.SqlInfo}

/-- Plain names are read back from the text. -/
theorem splitOn_names (plain : PlainTables info) (some_ : info.tableSet ≠ ∅) :
    ([44].intercalate ((tables info).map fun name => cStr name.chars)).splitOn 44 =
      (tables info).map StdString.chars := by
  have whole : (tables info).map (fun name => cStr name.chars) =
      (tables info).map StdString.chars := by
    refine List.map_congr_left fun name member => ?_
    exact Separator.takeWhile_fresh (plain _ (mem_tables.mp member)).2
  obtain ⟨name, member⟩ := Finset.nonempty_iff_ne_empty.mpr some_
  have listed : (⟨name⟩ : StdString) ∈ tables info := mem_tables.mpr member
  rw [whole]
  refine List.splitOn_intercalate 44 ?_ (List.ne_nil_of_mem (List.mem_map_of_mem listed))
  intro text inside
  obtain ⟨name, member, rfl⟩ := List.mem_map.mp inside
  exact (plain _ (mem_tables.mp member)).1

/-- Statements are counted together exactly if they are of one kind and use the same tables. -/
theorem tablesKey_inj (plain : PlainTables info) (plain' : PlainTables info')
    (some_ : info.tableSet ≠ ∅) (some' : info'.tableSet ≠ ∅) :
    tablesKey info = tablesKey info' ↔
      (info.part.trans > 0 ↔ info'.part.trans > 0) ∧ info.tableSet = info'.tableSet := by
  constructor
  · intro same
    have parts := List.append_inj same (by split_ifs <;> rfl)
    refine ⟨?_, ?_⟩
    · have first := parts.1
      by_cases trx : info.part.trans > 0 <;> by_cases trx' : info'.part.trans > 0 <;>
        simp_all
    · -- The names are the same in the same order.
      have names := congrArg (List.splitOn 44) parts.2
      rw [splitOn_names plain some_, splitOn_names plain' some'] at names
      ext name
      have member : ∀ info : Record.SqlInfo, name ∈ info.tableSet ↔
          name ∈ (tables info).map StdString.chars := by
        intro info
        rw [List.mem_map]
        constructor
        · exact fun inside => ⟨⟨name⟩, mem_tables.mpr inside, rfl⟩
        · rintro ⟨name, inside, rfl⟩
          exact mem_tables.mp inside
      rw [member, member, names]
  · rintro ⟨kind, same⟩
    rw [tablesKey, tablesKey, tables, tables, same]
    simp only [kind]

/-! ## The rows -/

variable {name : StdString} {tableMap : TableMapInfo} {sqls : List (Entry PageSqlInfo)}

/-- The shown statements that are counted under a text. -/
def statementsUnder (key : Bytes) (sqls : List (Entry PageSqlInfo)) : List (Entry PageSqlInfo) :=
  sqls.filter fun info =>
    decide (info.2.isShow ∧ info.2.tableSet ≠ ∅ ∧ tablesKey info.2.toSqlInfo = key)

/-- What some statements make of a row. -/
theorem foldl_countTables (tableMap : TableMapInfo) :
    (sqls.foldl (fun row info => countTables info name row) tableMap).exec =
        tableMap.exec + (sqls.map fun info => info.2.part.exec).sum ∧
      ∀ key, key ∈ (sqls.foldl (fun row info => countTables info name row) tableMap).sqlHashCode ↔
        key ∈ tableMap.sqlHashCode ∨ key ∈ sqls.map (·.1) := by
  -- The induction is on the statements, with what the first of them leaves.
  induction sqls generalizing tableMap with
  | nil => simp
  | cons info sqls ih =>
    obtain ⟨exec, keys⟩ := ih (countTables info name tableMap)
    refine ⟨?_, fun key => ?_⟩
    · rw [List.foldl_cons, exec, countTables, List.map_cons, List.sum_cons, add_assoc]
    · rw [List.foldl_cons, keys, countTables, Finset.mem_insert, List.map_cons, List.mem_cons,
        or_comm (a := key = info.1), or_assoc]

/-- What is kept under a text comes from the shown statements under it. -/
theorem get?_tableMapInfoMap (name : StdString) (sqls : List (Entry PageSqlInfo)) :
    (tableMapInfoMap sqls).get? name =
      if statementsUnder name.chars sqls = [] then none
      else some ((statementsUnder name.chars sqls).foldl
        (fun row info => countTables info name row) .new) := by
  have one : ∀ info ∈ sqls.filter fun info => decide info.2.isShow,
      (if info.2.tableSet = ∅ then [] else
        [(⟨tablesKey info.2.toSqlInfo⟩ : StdString)]).Nodup := by
    intro info _
    split_ifs
    · exact List.nodup_nil
    · exact List.nodup_singleton _
  have shown : (sqls.filter fun info => decide info.2.isShow).filter (fun info =>
      decide (name ∈ if info.2.tableSet = ∅ then [] else
        [(⟨tablesKey info.2.toSqlInfo⟩ : StdString)])) = statementsUnder name.chars sqls := by
    rw [List.filter_filter, statementsUnder]
    refine List.filter_congr fun info _ => ?_
    have same : name = ⟨tablesKey info.2.toSqlInfo⟩ ↔ tablesKey info.2.toSqlInfo = name.chars := by
      constructor
      · rintro rfl
        rfl
      · intro key
        rw [key]
    by_cases none : info.2.tableSet = ∅
    · simp [none]
    · simp [none, same, and_comm]
  rw [tableMapInfoMap, OrderedMap.get?_group one, shown]

/-- A row is of the shown statements under its text. -/
theorem tableMapInfoMap_spec (member : (name, tableMap) ∈ (tableMapInfoMap sqls).entries) :
    tableMap.tablesName = name.chars ∧
      tableMap.exec = ((statementsUnder name.chars sqls).map fun info => info.2.part.exec).sum ∧
      tableMap.sqlHashCode = ((statementsUnder name.chars sqls).map (·.1)).toFinset := by
  have found := (get?_tableMapInfoMap name sqls).symm.trans (OrderedMap.get?_of_mem member)
  split_ifs at found with none
  obtain ⟨exec, keys⟩ :=
    @foldl_countTables name (statementsUnder name.chars sqls) TableMapInfo.new
  obtain rfl := Option.some.inj found
  refine ⟨?_, exec.trans (zero_add _), ?_⟩
  · -- The last statement has written the text.
    obtain ⟨front, last, split⟩ :=
      (List.eq_nil_or_concat (statementsUnder name.chars sqls)).resolve_left none
    rw [split, List.concat_eq_append, List.foldl_append]
    rfl
  · ext key
    rw [keys, List.mem_toFinset]
    exact or_iff_right (Finset.notMem_empty key)

/-- Every shown statement that uses a table has a row. -/
theorem exists_tableMap {info : Entry PageSqlInfo} (there : info ∈ sqls)
    (shown : info.2.isShow) (some_ : info.2.tableSet ≠ ∅) :
    ∃ tableMap, (⟨tablesKey info.2.toSqlInfo⟩, tableMap) ∈ (tableMapInfoMap sqls).entries := by
  have under : statementsUnder (tablesKey info.2.toSqlInfo) sqls ≠ [] :=
    List.ne_nil_of_mem (List.mem_filter.mpr ⟨there, decide_eq_true ⟨shown, some_, rfl⟩⟩)
  have found := get?_tableMapInfoMap ⟨tablesKey info.2.toSqlInfo⟩ sqls
  rw [if_neg under] at found
  exact ⟨_, OrderedMap.mem_of_get? found⟩

/-! ## What the links in the rows find -/

/-- An entry of a map is found under its key. -/
theorem findEntry_of_mem {ν : Type} {map : MapEntries ν} {info : Entry ν}
    (there : info ∈ map.entries) : findEntry map.entries info.1 = some info.2 := by
  obtain ⟨front, back, split⟩ := List.append_of_mem there
  have sorted := map.sorted
  rw [split, List.pairwise_append] at sorted
  -- The entries before it have smaller keys.
  have none : front.find? (·.1 = info.1) = none := by
    refine List.find?_eq_none.mpr fun other early => ?_
    have less := sorted.2.2 other early info List.mem_cons_self
    simpa using UInt32.ne_of_lt less
  simp [findEntry, split, List.find?_append, none]

/-- What the link of a statement asks for. -/
theorem follow_sqlLink (sqlHashCode : UInt32) (http : Http) :
    ∃ http', follow http (sqlLink sqlHashCode) = some http' ∧
      (parseUriParam http').sqlhashcode = sqlHashCode ∧ (parseUriParam http').transhashcode = 0 := by
  have noNul : 0 ∉ sqlLink sqlHashCode := by
    have name : 0 ∉ Param.sqlhashcode.name := by decide
    simp [sqlLink, Param.text, name, (bare_digits _).2]
  have read := @parseUri_form _ _ http ⟨_, noNul⟩ [47, 102, 105, 110, 100, 115, 113, 108] rfl
    (by decide) (ParamForm.last (@keyValue .sqlhashcode _ (bare_digits _).1))
  refine ⟨_, follow_of_parse noNul read, ?_, ?_⟩
  · have number : (lastWins [(Param.sqlhashcode.name, digits sqlHashCode.toNat)]
        Param.sqlhashcode.name) = some (digits sqlHashCode.toNat) := by
      rw [lastWins, List.reverse_singleton, lookup_name, if_pos rfl]
    simp only [parseUriParam, Http.getUriParam, number, Option.getD_some, strtoul_digits]
  · have none : (lastWins [(Param.sqlhashcode.name, digits sqlHashCode.toNat)]
        Param.transhashcode.name) = none := by
      rw [lastWins, List.reverse_singleton, lookup_name, if_neg (by decide), List.lookup_nil]
    simp only [parseUriParam, Http.getUriParam, none, Option.getD_none]
    rfl

/-- The link of a statement finds its executions. -/
theorem linkedField_exec {map : MapEntries PageSqlInfo} {info : Entry PageSqlInfo}
    (there : info ∈ map.entries) (some_ : info.1 ≠ 0) (print : Printed)
    (transInfoMap : List (Entry TransInfo)) (http : Http) :
    linkedField print map.entries transInfoMap http "Exec" (sqlLink info.1) =
      some (lld info.2.part.exec) := by
  obtain ⟨http', opened, sql, trans⟩ := follow_sqlLink info.1 http
  have fields : findsql print map.entries transInfoMap (parseUriParam http') =
      sqlFields print info.2.toSqlInfo := by
    simp [findsql, sql, trans, some_, findEntry_of_mem there]
  rw [linkedField, opened, Option.bind_some, fields]
  rfl

/-! ## The page -/

/-- The rows of the sets of tables for some statements, and what their links find. -/
structure TableMapRows (rows : List (StdString × TableMapInfo)) (sqls : List (Entry PageSqlInfo))
    (found : UInt32 → Option Cell) : Prop where
  distinct : (rows.map fun row => row.2.tablesName).Nodup
  once : ∀ info ∈ sqls, info.2.isShow → info.2.tableSet ≠ ∅ →
    ∃! row, row ∈ rows ∧ info.1 ∈ row.2.sqlHashCode
  only : ∀ row ∈ rows, ∀ key ∈ row.2.sqlHashCode,
    ∃ info ∈ sqls, info.1 = key ∧ info.2.isShow ∧ info.2.tableSet ≠ ∅
  together : ∀ row ∈ rows, ∀ info ∈ sqls, ∀ info' ∈ sqls, info.1 ∈ row.2.sqlHashCode →
    info'.2.isShow → info'.2.tableSet ≠ ∅ →
    PlainTables info.2.toSqlInfo → PlainTables info'.2.toSqlInfo →
      (info'.1 ∈ row.2.sqlHashCode ↔
        (info.2.part.trans > 0 ↔ info'.2.part.trans > 0) ∧ info.2.tableSet = info'.2.tableSet)
  addsUp : ∀ row ∈ rows, 0 ∉ row.2.sqlHashCode → ∃ exec : UInt32 → UInt64,
    (∀ key ∈ row.2.sqlHashCode, found key = some (lld (exec key))) ∧
      row.2.exec = ∑ key ∈ row.2.sqlHashCode, exec key

/-- An entry is known by its key. -/
theorem eq_of_key {ν : Type} {map : MapEntries ν} {info info' : Entry ν}
    (there : info ∈ map.entries) (there' : info' ∈ map.entries) (same : info.1 = info'.1) :
    info = info' := by
  have found := findEntry_of_mem there
  rw [same, findEntry_of_mem there'] at found
  exact Prod.ext same (Option.some.inj found).symm

/-- The statements of a row are those under its text. -/
theorem mem_sqlHashCode {map : MapEntries PageSqlInfo} {info : Entry PageSqlInfo}
    {row : StdString × TableMapInfo} (member : row ∈ (tableMapInfoMap map.entries).entries)
    (there : info ∈ map.entries) : info.1 ∈ row.2.sqlHashCode ↔
      info.2.isShow ∧ info.2.tableSet ≠ ∅ ∧ tablesKey info.2.toSqlInfo = row.1.chars := by
  rw [(tableMapInfoMap_spec member).2.2, List.mem_toFinset, List.mem_map]
  constructor
  · rintro ⟨other, under, same⟩
    obtain ⟨there', counted⟩ := List.mem_filter.mp under
    exact eq_of_key there' there same ▸ of_decide_eq_true counted
  · exact fun counted => ⟨info, List.mem_filter.mpr ⟨there, decide_eq_true counted⟩, rfl⟩

/-- A row adds up the executions that the links in it find. -/
theorem exec_eq_sum {map : MapEntries PageSqlInfo} {row : StdString × TableMapInfo}
    (member : row ∈ (tableMapInfoMap map.entries).entries) :
    row.2.exec = ∑ key ∈ row.2.sqlHashCode,
      (findEntry map.entries key).elim 0 fun info => info.part.exec := by
  obtain ⟨_, exec, keys⟩ := tableMapInfoMap_spec member
  -- No key stands for two statements.
  have distinct : ((statementsUnder row.1.chars map.entries).map (·.1)).Nodup := by
    refine List.pairwise_map.mpr ((map.sorted.sublist List.filter_sublist).imp ?_)
    exact fun less => UInt32.ne_of_lt less
  rw [exec, keys, List.sum_toFinset _ distinct, List.map_map]
  refine congrArg List.sum (List.map_congr_left fun info under => ?_)
  rw [Function.comp_apply, findEntry_of_mem (List.mem_filter.mp under).1, Option.elim_some]

/-- The only set of tables is the one of the only statement. -/
theorem length_oneSql_map : (tableMapInfoMap oneSql.entries).entries.length = 1 := by
  simp [tableMapInfoMap, oneSql, OrderedMap.group, OrderedMap.upsert, OrderedMap.modify,
    OrderedMap.insertNew, OrderedMap.has, OrderedMap.empty, OrderedMap.insertIn,
    Record.SqlInfo.isShow]

end OneProxy.HttpResponse
