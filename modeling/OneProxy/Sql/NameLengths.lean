import OneProxy.Sql.ParserKeeps
import OneProxy.Sql.Tokenizer

/-! How long the names of tables may be that `addTableInfo` copies. -/

namespace OneProxy.Sql

open Parsing

variable {ts : List SqlToken}

/-- A token that may be taken as a name. -/
def MayName (ts : List SqlToken) (t : SqlToken) : Prop :=
  ∃ i, ts[i]? = some t ∧ (t.tokenId = .literal ∨ tokenBefore ts i = some .dot)

/-- No name is longer, up to its first NUL. -/
def NamesWithin (n : Nat) (ts : List SqlToken) : Prop :=
  ∀ t, MayName ts t → (cString t.text).length ≤ n

/-- The names of a range are among the names. -/
theorem simpleTable_within {n start stop : Nat} {tableName aliasName : Bytes} {place : Nat}
    (within : NamesWithin n ts)
    (found : simpleTable ((ts.drop start).take (stop - start)) =
      some (tableName, aliasName, place)) :
    (cString tableName).length ≤ n ∧ (cString aliasName).length ≤ n := by
  obtain ⟨⟨t, there, rfl, kind⟩, alias_⟩ := simpleTable_spec found
  have inside : ∀ i u, ((ts.drop start).take (stop - start))[i]? = some u →
      ts[start + i]? = some u := by
    intro i u there
    rw [List.getElem?_take] at there
    split at there
    · rwa [List.getElem?_drop] at there
    · exact absurd there (by simp)
  constructor
  · refine within t ⟨start + place, inside place t there, ?_⟩
    -- A name is a literal, or stands behind a point.
    rcases kind with literal | behind
    · exact .inl literal
    · cases place with
      | zero => exact absurd behind (by simp [tokenBefore])
      | succ place =>
        obtain ⟨dot, before, isDot⟩ := Option.map_eq_some_iff.mp behind
        refine .inr ?_
        change tokenId ts (start + place) = _
        rw [tokenId, inside place dot before, Option.map_some, isDot]
  · rcases alias_ with rfl | ⟨u, member, rfl, literal⟩
    · exact Nat.zero_le _
    · obtain ⟨i, there⟩ := List.mem_iff_getElem?.mp member
      exact within u ⟨start + i, inside i u there, .inl literal⟩

/-- The names that are copied have room, and the NUL behind them. -/
def NamesFit (ts : List SqlToken) : Prop :=
  ∀ s, parse ts = some s → ∀ t ∈ s.tablelist, t.table.length ≤ 1023 ∧ t.aliasName.length ≤ 1023

/-- Names of up to 1023 characters have room. -/
theorem NamesWithin.fit (within : NamesWithin 1023 ts) : NamesFit ts := by
  refine @yields_parse ts (fun s => ∀ t ∈ s.tablelist,
    t.table.length ≤ 1023 ∧ t.aliasName.length ≤ 1023) ⟨?_, ?_, ?_⟩ ?_ ?_
  · exact fun s query holds => holds
  · exact fun s holds => holds
  · exact fun s holds => holds
  · intro s query start stop tableName aliasName place found holds t member
    rcases List.mem_append.mp member with before | new
    · exact holds t before
    · rw [List.mem_singleton.mp new]
      exact simpleTable_within within found
  · exact fun t member => absurd member List.not_mem_nil

/-- A statement that deletes from a table whose quoted name has 1024 characters. -/
def longName : Bytes :=
  [100, 101, 108, 101, 116, 101, 32, 102, 114, 111, 109, 32, 96] ++ List.replicate 1024 97 ++ [96]

theorem longName_tokens : tokenize longName = [⟨.sqlDelete, [100, 101, 108, 101, 116, 101]⟩,
    ⟨.sqlFrom, [102, 114, 111, 109]⟩, ⟨.literal, List.replicate 1024 97⟩] := by
  decide +kernel

/-- Its name is copied as a whole. -/
theorem longName_parsed : (parse (tokenize longName)).map (fun s =>
    s.tablelist.map fun t => t.table.length) = some [1024] := by
  rw [longName_tokens]
  decide +kernel

theorem not_namesFit_longName : ¬ NamesFit (tokenize longName) := by
  intro fit
  obtain ⟨s, parsed, lengths⟩ := Option.map_eq_some_iff.mp longName_parsed
  have all : ∀ n ∈ s.tablelist.map fun t => t.table.length, n ≤ 1023 := by
    intro n member
    obtain ⟨t, inside, rfl⟩ := List.mem_map.mp member
    exact (fit s parsed t inside).1
  rw [lengths] at all
  exact absurd (all 1024 List.mem_cons_self) (by decide)

/-- None of its tokens is longer than the name. -/
theorem namesWithin_longName : NamesWithin 1024 (tokenize longName) := by
  rintro t ⟨i, there, _⟩
  have member := List.mem_of_getElem? there
  rw [longName_tokens] at member
  have each : ∀ u ∈
    ([⟨.sqlDelete, [100, 101, 108, 101, 116, 101]⟩, ⟨.sqlFrom, [102, 114, 111, 109]⟩,
      ⟨.literal, List.replicate 1024 97⟩] : List SqlToken),
        u.text.length ≤ 1024 := by decide +kernel
  exact Nat.le_trans (List.takeWhile_prefix _).length_le (each t member)

end OneProxy.Sql
