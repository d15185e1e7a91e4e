import OneProxy.Util.StringBuf

/-! The tokens of an SQL statement. -/

namespace OneProxy.Sql

/-- `sql_token_id`: the ids that the scanner gives, in the order of the source. -/
inductive SqlTokenId
  | unknown
  | le
  | ge
  | lt
  | gt
  | eq
  | ne
  | string
  | comment
  | literal
  | integer
  | float
  | dot
  | comma
  | assign
  | obrace
  | cbrace
  | semicolon
  | star
  | plus
  | minus
  | div
  | bitwiseAnd
  | bitwiseOr
  | bitwiseXor
  | logicalAnd
  | logicalOr
  | sqlAccessible
  | sqlAction
  | sqlAll
  | sqlAlter
  | sqlAs
  | sqlBegin
  | sqlColumn
  | sqlColumns
  | sqlCommit
  | sqlCreate
  | sqlCross
  | sqlDec
  | sqlDeclare
  | sqlDelete
  | sqlDesc
  | sqlDescribe
  | sqlDrop
  | sqlExists
  | sqlExplain
  | sqlFor
  | sqlForce
  | sqlFrom
  | sqlGrant
  | sqlGroup
  | sqlHandler
  | sqlHaving
  | sqlIf
  | sqlIgnore
  | sqlIn
  | sqlInner
  | sqlInsert
  | sqlInto
  | sqlJoin
  | sqlLeft
  | sqlLimit
  | sqlLock
  | sqlMatch
  | sqlNatural
  | sqlNo
  | sqlNot
  | sqlOn
  | sqlOr
  | sqlOrder
  | sqlOff
  | sqlProcedure
  | sqlReplace
  | sqlRight
  | sqlRollback
  | sqlSelect
  | sqlSet
  | sqlShow
  | sqlStart
  | sqlStraightJoin
  | sqlTable
  | sqlTransaction
  | sqlTran
  | sqlTruncate
  | sqlUnion
  | sqlUpdate
  | sqlUse
  | sqlUsing
  | sqlValue
  | sqlValues
  | sqlVacuum
  | sqlWhere
  | sqlActionscope
  | sqlMatchregexcase
  | sqlMatchregexnocase
  | sqlNomatchregexcase
  | sqlNomatchregexnocase
  | sqlImplicitTransactions
  | sqlZerofill
  | commentMysql
  deriving DecidableEq

/-- `sql_token`. -/
structure SqlToken where
  tokenId : SqlTokenId
  text : Bytes
  deriving DecidableEq

end OneProxy.Sql
