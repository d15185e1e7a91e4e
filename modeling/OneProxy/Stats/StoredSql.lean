import Mathlib.Data.List.TakeWhile
import OneProxy.Lib.DoubledQuotes
import OneProxy.Sql.Tokenizer
import OneProxy.Util.Digits

/-! The pattern of a statement, as it is stored in the statistics. -/

namespace OneProxy.Stats

open Sql

/-- `SqlTabT`. The numbers with a sign are 32-bit words. -/
structure SqlTab where
  hashcode : UInt32
  sql : Bytes
  tabs : UInt32
  sqlType : UInt32

namespace SqlTab

/-- `insert into sql(hashcode, sql, tabs, sqltype) values(`. -/
def insertInto : Bytes :=
  [105, 110, 115, 101, 114, 116, 32, 105, 110, 116, 111, 32, 115, 113, 108, 40, 104, 97, 115, 104,
    99, 111, 100, 101, 44, 32, 115, 113, 108, 44, 32, 116, 97, 98, 115, 44, 32, 115, 113, 108, 116,
    121, 112, 101, 41, 32, 118, 97, 108, 117, 101, 115, 40]

/-- What is written up to the quote before the statement's text. -/
def head (tab : SqlTab) : Bytes := insertInto ++ Tool.digits tab.hashcode.toNat ++ [44, 39]

/-- What is written behind the quote that follows the statement's text. -/
def tail (tab : SqlTab) : Bytes :=
  [44] ++ Tool.decimal tab.tabs ++ [44] ++ Tool.decimal tab.sqlType ++ [41, 59]

/-- `insertDataSql`. -/
def insertDataSql (tab : SqlTab) : Bytes := tab.head ++ tab.sql ++ [39] ++ tab.tail

/-- What `EXEC_SQL` executes of a text. -/
def executed (sql : Bytes) : Bytes := Tool.cStr sql

/--
The text is data in the statement that is executed.

Its literal denotes the text, and behind it stand the other columns and the end of the statement.
-/
def StoredAsData (tab : SqlTab) : Prop :=
  ∃ text, executed tab.insertDataSql = tab.head ++ text ∧
    DoubledQuotes.read 39 text = some (tab.sql, tab.tail)

/-- Digits, signs and punctuation are no NULs. -/
theorem notMem_decimal (x : UInt32) : 0 ∉ Tool.decimal x := by
  intro member
  rw [Tool.decimal] at member
  split at member
  · exact absurd (Tool.mem_digits member).1 (by decide)
  · rcases List.mem_cons.mp member with same | member
    · exact absurd same (by decide)
    · exact absurd (Tool.mem_digits member).1 (by decide)

theorem notMem_head (tab : SqlTab) : 0 ∉ tab.head := by
  intro member
  rw [head, List.mem_append, List.mem_append] at member
  rcases member with (member | member) | member
  · exact absurd member (by decide)
  · exact absurd (Tool.mem_digits member).1 (by decide)
  · exact absurd member (by decide)

theorem notMem_tail (tab : SqlTab) : 0 ∉ tab.tail := by
  intro member
  simp only [tail, List.mem_append] at member
  rcases member with (((member | member) | member) | member) | member
  · exact absurd member (by decide)
  · exact notMem_decimal _ member
  · exact absurd member (by decide)
  · exact notMem_decimal _ member
  · exact absurd member (by decide)

/-- A text is data exactly if it has no quote and no NUL. -/
theorem storedAsData_iff_text (tab : SqlTab) : tab.StoredAsData ↔ 39 ∉ tab.sql ∧ 0 ∉ tab.sql := by
  constructor
  · intro stored
    obtain ⟨text, same, read⟩ := stored
    obtain ⟨written, _⟩ := DoubledQuotes.read_eq_some_iff.mp read
    -- As long as the literal is, nothing of the statement can be cut off.
    have cut : (executed tab.insertDataSql).length ≤ tab.insertDataSql.length :=
      (List.takeWhile_prefix _).length_le
    have long := @DoubledQuotes.length_le_double _ _ 39 tab.sql
    have whole : executed tab.insertDataSql = tab.insertDataSql := by
      refine (List.takeWhile_prefix _).eq_of_length ?_
      refine Nat.le_antisymm cut ?_
      change _ ≤ (executed tab.insertDataSql).length
      rw [same, written, insertDataSql]
      simp only [List.length_append, List.length_cons, List.length_nil]
      omega
    have noNul : 0 ∉ tab.insertDataSql := by
      intro member
      have kept := List.takeWhile_eq_self_iff.mp whole 0 member
      simp at kept
    refine ⟨?_, fun member => noNul ?_⟩
    · rw [whole, insertDataSql, written] at same
      simp only [List.append_assoc, List.append_cancel_left_eq] at same
      have equal : tab.sql ++ ([39] ++ tab.tail) =
          DoubledQuotes.double 39 tab.sql ++ ([39] ++ tab.tail) := same
      exact DoubledQuotes.double_eq_self_iff.mp (List.append_cancel_right equal).symm
    · rw [insertDataSql]
      simp [member]
  · rintro ⟨noQuote, noNul⟩
    have noNulAtAll : 0 ∉ tab.insertDataSql := by
      simp [insertDataSql, notMem_head, notMem_tail, noNul]
    have whole : executed tab.insertDataSql = tab.insertDataSql := by
      refine List.takeWhile_eq_self_iff.mpr fun c member => ?_
      have differ : c ≠ 0 := fun same => noNulAtAll (same ▸ member)
      simpa using differ
    refine ⟨tab.sql ++ 39 :: tab.tail, ?_, ?_⟩
    · rw [whole, insertDataSql]
      simp
    · refine DoubledQuotes.read_eq_some_iff.mpr ⟨?_, by simp [tail]⟩
      rw [DoubledQuotes.double_eq_self_iff.mpr noQuote]

end SqlTab

/-- A character other than a space is in the pattern exactly if some token is printed with it. -/
theorem mem_toPatternQuery {ts : List SqlToken} {c : UInt8} (notSpace : c ≠ 32) :
    c ∈ toPatternQuery ts ↔ ∃ t ∈ ts, c ∈ t.printed := by
  have general : ∀ (ts : List SqlToken) (prev : Option SqlTokenId),
      c ∈ toPatternQueryFrom prev ts ↔ ∃ t ∈ ts, c ∈ t.printed := by
    intro ts
    induction ts with
    | nil => simp [toPatternQueryFrom]
    | cons t ts ih =>
      intro prev
      cases prev with
      | none => simp [toPatternQueryFrom, ih]
      | some prev =>
        rw [toPatternQueryFrom]
        split
        · simp [ih, notSpace]
        · simp [ih]
  exact general ts none

/-- The tokens that something else is printed for. -/
def maskedIds : List SqlTokenId := [.string, .integer, .float, .comment, .commentMysql]

/-- Neither a quote nor a NUL is printed for these, and all others are printed as they are. -/
theorem mem_printed {t : SqlToken} {c : UInt8} (special : c = 39 ∨ c = 0) :
    c ∈ t.printed ↔ t.tokenId ∉ maskedIds ∧ c ∈ t.text := by
  obtain ⟨id, text⟩ := t
  cases id <;> rcases special with rfl | rfl <;> simp [SqlToken.printed, maskedIds]

/--
A statement is stored as data exactly if it has no quote and no NUL where it is printed.

Numbers, strings in single quotes and comments are not printed.
-/
theorem storedAsData_iff (s : Bytes) (hashcode tabs sqlType : UInt32) :
    (SqlTab.mk hashcode (toPatternQuery (tokenize s)) tabs sqlType).StoredAsData ↔
      ∀ t ∈ tokenize s, t.tokenId ∉ maskedIds → 39 ∉ t.text ∧ 0 ∉ t.text := by
  rw [SqlTab.storedAsData_iff_text, mem_toPatternQuery (by decide), mem_toPatternQuery (by decide)]
  constructor
  · rintro ⟨noQuote, noNul⟩ t member shown
    exact ⟨fun quote => noQuote ⟨t, member, (mem_printed (.inl rfl)).mpr ⟨shown, quote⟩⟩,
      fun nul => noNul ⟨t, member, (mem_printed (.inr rfl)).mpr ⟨shown, nul⟩⟩⟩
  · intro none_
    refine ⟨?_, ?_⟩
    · rintro ⟨t, member, printed⟩
      obtain ⟨shown, quote⟩ := (mem_printed (.inl rfl)).mp printed
      exact (none_ t member shown).1 quote
    · rintro ⟨t, member, printed⟩
      obtain ⟨shown, nul⟩ := (mem_printed (.inr rfl)).mp printed
      exact (none_ t member shown).2 nul

/-- `select "',0,1);drop table sql;--"`. -/
def dropTable : Bytes :=
  [115, 101, 108, 101, 99, 116, 32, 34, 39, 44, 48, 44, 49, 41, 59, 100, 114, 111, 112, 32, 116, 97,
    98, 108, 101, 32, 115, 113, 108, 59, 45, 45, 34]

/-- Storing it executes `insert into sql(...) values(1,'select ',0,1);drop table sql;--',0,1);`. -/
theorem dropTable_executed :
    let tab := SqlTab.mk 1 (toPatternQuery (tokenize dropTable)) 0 1
    ¬ tab.StoredAsData ∧ SqlTab.executed tab.insertDataSql = SqlTab.insertInto ++
      [49, 44, 39, 115, 101, 108, 101, 99, 116, 32, 39, 44, 48, 44, 49, 41, 59, 100, 114, 111, 112,
        32, 116, 97, 98, 108, 101, 32, 115, 113, 108, 59, 45, 45, 39, 44, 48, 44, 49, 41, 59] := by
  refine ⟨fun stored => ?_, by decide +kernel⟩
  have noQuote := ((SqlTab.storedAsData_iff_text _).mp stored).1
  exact absurd noQuote (by decide +kernel)

end OneProxy.Stats
