import OneProxy.Sql.Token

/-! Which names are keywords. -/

namespace OneProxy.Sql

/-- `tokenInfos`, from `TK_SQL_ACCESSIBLE` up to before `TK_SQL_ZEROFILL`. -/
def tokenInfos : List (Bytes × SqlTokenId) :=
  [([65, 67, 67, 69, 83, 83, 73, 66, 76, 69], .sqlAccessible),
    ([65, 67, 84, 73, 79, 78], .sqlAction), ([65, 76, 76], .sqlAll),
    ([65, 76, 84, 69, 82], .sqlAlter), ([65, 83], .sqlAs), ([66, 69, 71, 73, 78], .sqlBegin),
    ([67, 79, 76, 85, 77, 78], .sqlColumn), ([67, 79, 76, 85, 77, 78, 83], .sqlColumns),
    ([67, 79, 77, 77, 73, 84], .sqlCommit), ([67, 82, 69, 65, 84, 69], .sqlCreate),
    ([67, 82, 79, 83, 83], .sqlCross), ([68, 69, 67], .sqlDec),
    ([68, 69, 67, 76, 65, 82, 69], .sqlDeclare), ([68, 69, 76, 69, 84, 69], .sqlDelete),
    ([68, 69, 83, 67], .sqlDesc), ([68, 69, 83, 67, 82, 73, 66, 69], .sqlDescribe),
    ([68, 82, 79, 80], .sqlDrop), ([69, 88, 73, 83, 84, 83], .sqlExists),
    ([69, 88, 80, 76, 65, 73, 78], .sqlExplain), ([70, 79, 82], .sqlFor),
    ([70, 79, 82, 67, 69], .sqlForce), ([70, 82, 79, 77], .sqlFrom),
    ([71, 82, 65, 78, 84], .sqlGrant), ([71, 82, 79, 85, 80], .sqlGroup),
    ([72, 65, 78, 68, 76, 69, 82], .sqlHandler), ([72, 65, 86, 73, 78, 71], .sqlHaving),
    ([73, 70], .sqlIf), ([73, 71, 78, 79, 82, 69], .sqlIgnore), ([73, 78], .sqlIn),
    ([73, 78, 78, 69, 82], .sqlInner), ([73, 78, 83, 69, 82, 84], .sqlInsert),
    ([73, 78, 84, 79], .sqlInto), ([74, 79, 73, 78], .sqlJoin), ([76, 69, 70, 84], .sqlLeft),
    ([76, 73, 77, 73, 84], .sqlLimit), ([76, 79, 67, 75], .sqlLock),
    ([77, 65, 84, 67, 72], .sqlMatch), ([78, 65, 84, 85, 82, 65, 76], .sqlNatural),
    ([78, 79], .sqlNo), ([78, 79, 84], .sqlNot), ([79, 78], .sqlOn), ([79, 82], .sqlOr),
    ([79, 82, 68, 69, 82], .sqlOrder), ([79, 70, 70], .sqlOff),
    ([80, 82, 79, 67, 69, 68, 85, 82, 69], .sqlProcedure),
    ([82, 69, 80, 76, 65, 67, 69], .sqlReplace), ([82, 73, 71, 72, 84], .sqlRight),
    ([82, 79, 76, 76, 66, 65, 67, 75], .sqlRollback), ([83, 69, 76, 69, 67, 84], .sqlSelect),
    ([83, 69, 84], .sqlSet), ([83, 72, 79, 87], .sqlShow), ([83, 84, 65, 82, 84], .sqlStart),
    ([83, 84, 82, 65, 73, 71, 72, 84, 95, 74, 79, 73, 78], .sqlStraightJoin),
    ([84, 65, 66, 76, 69], .sqlTable),
    ([84, 82, 65, 78, 83, 65, 67, 84, 73, 79, 78], .sqlTransaction), ([84, 82, 65, 78], .sqlTran),
    ([84, 82, 85, 78, 67, 65, 84, 69], .sqlTruncate), ([85, 78, 73, 79, 78], .sqlUnion),
    ([85, 80, 68, 65, 84, 69], .sqlUpdate), ([85, 83, 69], .sqlUse),
    ([85, 83, 73, 78, 71], .sqlUsing), ([86, 65, 76, 85, 69], .sqlValue),
    ([86, 65, 76, 85, 69, 83], .sqlValues), ([86, 65, 67, 85, 85, 77], .sqlVacuum),
    ([87, 72, 69, 82, 69], .sqlWhere),
    ([65, 67, 84, 73, 79, 78, 83, 67, 79, 80, 69], .sqlActionscope),
    ([77, 65, 84, 67, 72, 82, 69, 71, 69, 88, 67, 65, 83, 69], .sqlMatchregexcase),
    ([77, 65, 84, 67, 72, 82, 69, 71, 69, 88, 78, 79, 67, 65, 83, 69], .sqlMatchregexnocase),
    ([78, 79, 77, 65, 84, 67, 72, 82, 69, 71, 69, 88, 67, 65, 83, 69], .sqlNomatchregexcase),
    ([78, 79, 77, 65, 84, 67, 72, 82, 69, 71, 69, 88, 78, 79, 67, 65, 83, 69],
      .sqlNomatchregexnocase),
    ([73, 77, 80, 76, 73, 67, 73, 84, 95, 84, 82, 65, 78, 83, 65, 67, 84, 73, 79, 78, 83],
      .sqlImplicitTransactions)]

/-- `tolower`. -/
def toLower (c : UInt8) : UInt8 := if 65 ≤ c ∧ c ≤ 90 then c + 32 else c

/-- The names are equal for `strcasecmp`. -/
def sameName (a b : Bytes) : Bool := a.map toLower = b.map toLower

/-- `HitCache::is_hit` of a cache with two levels: some name has such a character there. -/
def isHit (name : Bytes) : Bool :=
  (List.range (min 2 name.length)).all fun i =>
    tokenInfos.any fun info => (info.1[i]?.map toLower) = name[i]?.map toLower

/-- `tokenIdByName`. -/
def tokenIdByName (name : Bytes) : SqlTokenId :=
  if isHit name then
    match tokenInfos.find? fun info => sameName info.1 name with
    | some info => info.2
    | none => .literal
  else .literal

/-- A name is looked up exactly if its first characters are those of some names. -/
theorem tokenIdByName_eq (name : Bytes) : tokenIdByName name =
    ((tokenInfos.find? fun info => sameName info.1 name).map (·.2)).getD .literal := by
  rw [tokenIdByName]
  cases found : tokenInfos.find? fun info => sameName info.1 name with
  | none => split <;> rfl
  | some info =>
    -- A name that is found is a hit.
    have member := List.mem_of_find?_eq_some found
    have same : info.1.map toLower = name.map toLower := by
      simpa [sameName] using List.find?_some found
    have hit : isHit name = true := by
      rw [isHit, List.all_eq_true]
      intro i _
      rw [List.any_eq_true]
      refine ⟨info, member, ?_⟩
      have there := congrArg (·[i]?) same
      simpa using there
    rw [if_pos hit]
    rfl

end OneProxy.Sql
