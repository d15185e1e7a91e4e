import OneProxy.Sql.Overrun
import OneProxy.Sql.StatementKind

/-! What is behind the header of a statement, which is all that the classifiers look at. -/

namespace OneProxy.Sql

/-- The tokens that `skipExternTokensInHeader` is about, and the comments that it is not. -/
def headerIds : List SqlTokenId := [.comment, .commentMysql, .sqlExplain]

/-- Without the plain comments that go before. -/
def dropComments (ts : List SqlToken) : List SqlToken := ts.dropWhile (·.tokenId = .comment)

/-- The statement behind its header. -/
def body (ts : List SqlToken) : List SqlToken :=
  (dropComments ts).dropWhile (·.tokenId = .sqlExplain)

/-- The kind of the first token. -/
def firstId (ts : List SqlToken) : Option SqlTokenId := ts.head?.map (·.tokenId)

variable {ts : List SqlToken}

/-! ## The header -/

/-- The token behind a part of the statement. -/
theorem tokenId_behind {before rest : List SqlToken} {t : SqlToken}
    (split : ts = before ++ t :: rest) : tokenId ts before.length = some t.tokenId := by
  rw [split, tokenId, List.getElem?_append_right (Nat.le_refl _), Nat.sub_self]
  rfl

/-- Tokens of one kind are skipped, up to the first of another. -/
theorem skipSomeHeaderTokens_eq (tokId : SqlTokenId) (count : Nat) : ∀ before rest,
    ts = before ++ rest → rest.length = count →
      ∃ skipped, rest = skipped ++ rest.dropWhile (·.tokenId = tokId) ∧
        (∀ t ∈ skipped, t.tokenId = tokId) ∧
        skipSomeHeaderTokens ts tokId count before.length = some (before ++ skipped).length := by
  -- The induction is on the tokens that are left, while the position moves on.
  induction count with
  | zero =>
    intro before rest _ empty
    rw [List.length_eq_zero_iff] at empty
    subst empty
    exact ⟨[], rfl, by simp, by simp [skipSomeHeaderTokens]⟩
  | succ count ih =>
    intro before rest split length
    obtain ⟨t, rest, rfl⟩ := List.exists_cons_of_length_eq_add_one length
    have there := tokenId_behind split
    rw [skipSomeHeaderTokens, there]
    simp only [Option.bind_eq_bind, Option.bind_some]
    by_cases kind : t.tokenId = tokId
    · obtain ⟨skipped, parts, same, done⟩ := ih (before ++ [t]) rest (by simp [split])
        (Nat.succ.inj length)
      rw [List.length_append, List.length_singleton] at done
      refine ⟨t :: skipped, ?_, ?_, ?_⟩
      · rw [List.dropWhile_cons_of_pos (by simpa using kind), List.cons_append, ← parts]
      · exact List.forall_mem_cons.mpr ⟨kind, same⟩
      · rw [if_pos kind, done]
        simp
    · refine ⟨[], ?_, by simp, ?_⟩
      · rw [List.dropWhile_cons_of_neg (by simpa using kind), List.nil_append]
      · rw [if_neg kind, List.append_nil]

/-- What is skipped are comments and then EXPLAINs, and the rest is the body. -/
theorem skipExternTokensInHeader_eq (ts : List SqlToken) : ∃ header, ts = header ++ body ts ∧
    (∀ t ∈ header, t.tokenId ∈ headerIds) ∧
    skipExternTokensInHeader ts 0 ts.length = some header.length := by
  -- The comments are skipped first, and the EXPLAINs among what is left.
  obtain ⟨comments, first, areComments, skipped⟩ :=
    @skipSomeHeaderTokens_eq ts .comment ts.length [] ts rfl rfl
  have lengths := congrArg List.length first
  rw [List.length_append] at lengths
  obtain ⟨explains, second, areExplains, skipped'⟩ :=
    skipSomeHeaderTokens_eq .sqlExplain (ts.length - comments.length) comments
      (dropComments ts) first
      (by rw [dropComments]; omega)
  refine ⟨comments ++ explains, ?_, ?_, ?_⟩
  · rw [List.append_assoc, body, ← second]
    exact first
  · intro t member
    obtain comment | explain := List.mem_append.mp member
    · simp [headerIds, areComments t comment]
    · simp [headerIds, areExplains t explain]
  · rw [List.length_nil] at skipped
    rw [skipExternTokensInHeader, Nat.sub_zero, skipped]
    exact skipped'

/-- Where the body begins is its first token. -/
theorem tokenId_body {header : List SqlToken} (split : ts = header ++ body ts) :
    tokenId ts header.length = firstId (body ts) := by
  have same : tokenId ts header.length = tokenId (header ++ body ts) header.length :=
    congrArg (tokenId · header.length) split
  rw [same, tokenId, List.getElem?_append_right (Nat.le_refl _), Nat.sub_self, firstId,
    List.head?_eq_getElem?]

/-- A header is all there is exactly if the body is empty. -/
theorem header_length_eq_iff {header : List SqlToken} (split : ts = header ++ body ts) :
    header.length = ts.length ↔ body ts = [] := by
  have lengths := congrArg List.length split
  rw [List.length_append] at lengths
  rw [← List.length_eq_zero_iff]
  omega

/-! ## The kind of a statement -/

/-- A statement begins with the first token of its body. -/
theorem headId_eq (ts : List SqlToken) : headId ts = some (firstId (body ts)) := by
  obtain ⟨header, split, _, skipped⟩ := skipExternTokensInHeader_eq ts
  have begins := tokenId_body split
  rw [headId, skipped]
  simp only [Option.bind_eq_bind, Option.bind_some, header_length_eq_iff split, begins]
  cases body ts <;> simp [firstId]

/-- The type is that of the first token of the body. -/
theorem queryType_eq (ts : List SqlToken) :
    queryType ts = some ((firstId (body ts)).elim .unknown .ofId) := by
  rw [queryType, headId_eq]
  cases firstId (body ts) <;> rfl

theorem isDDLQuery_eq (ts : List SqlToken) :
    isDDLQuery ts = some ((firstId (body ts)).elim false (decide <| · ∈ ddlIds)) := by
  rw [isDDLQuery, headId_eq]
  cases firstId (body ts) <;> rfl

/-! ## Transactions -/

/-- A START and a TRANSACTION, with nothing but comments before each. -/
def OpensByStart (b : List SqlToken) : Prop :=
  firstId (dropComments b) = some .sqlStart ∧
    firstId (dropComments (dropComments b).tail) = some .sqlTransaction

/-- A body that opens a transaction. -/
def OpensTrans (b : List SqlToken) : Prop := firstId b = some .sqlBegin ∨ OpensByStart b

instance (b : List SqlToken) : Decidable (OpensByStart b) := inferInstanceAs (Decidable (_ ∧ _))

instance (b : List SqlToken) : Decidable (OpensTrans b) := inferInstanceAs (Decidable (_ ∨ _))

theorem dropComments_comment {t : SqlToken} {rest : List SqlToken}
    (comment : t.tokenId = .comment) :
    dropComments (t :: rest) = dropComments rest :=
  List.dropWhile_cons_of_pos (by simpa using comment)

theorem dropComments_other {t : SqlToken} {rest : List SqlToken} (other : t.tokenId ≠ .comment) :
    dropComments (t :: rest) = t :: rest :=
  List.dropWhile_cons_of_neg (by simpa using other)

/-- With both tokens found, the loop goes on to nothing more. -/
theorem startTransFrom_both (first second : SqlTokenId) (count : Nat) : ∀ i, i + count ≤ ts.length →
    startTransFrom ts count i (some first) (some second) = some (some first, some second) := by
  induction count with
  | zero => exact fun i _ => rfl
  | succ count ih =>
    intro i inside
    obtain ⟨t, _, there⟩ := @tokenId_lt ts i (by omega)
    simp only [startTransFrom, there, Option.bind_eq_bind, Option.bind_some, reduceCtorEq, if_false,
      ih (i + 1) (by omega), ite_self]

/-- After the first token, the loop looks for the second one. -/
theorem startTransFrom_first (first : SqlTokenId) (count : Nat) :
    ∀ before rest, ts = before ++ rest →
    rest.length = count → ∃ second,
      startTransFrom ts count before.length (some first) none = some (some first, second) ∧
        (second = some .sqlTransaction ↔ firstId (dropComments rest) = some .sqlTransaction) := by
  induction count with
  | zero =>
    intro before rest _ empty
    rw [List.length_eq_zero_iff] at empty
    exact ⟨none, rfl, by simp [empty, dropComments, firstId]⟩
  | succ count ih =>
    intro before rest split length
    obtain ⟨t, rest, rfl⟩ := List.exists_cons_of_length_eq_add_one length
    have there := tokenId_behind split
    have length' := Nat.succ.inj length
    have inside : before.length + 1 + count ≤ ts.length := by
      rw [split, List.length_append, List.length_cons]
      omega
    simp only [startTransFrom, there, Option.bind_eq_bind, Option.bind_some, reduceCtorEq, if_false,
      if_true]
    -- Comments are passed over; anything else ends the loop.
    by_cases kind : t.tokenId = .sqlStart ∨ t.tokenId = .sqlTransaction
    · have other : t.tokenId ≠ .comment := by
        obtain kind | kind := kind <;> simp [kind]
      rw [if_pos kind, startTransFrom_both _ _ _ _ inside, dropComments_other other]
      exact ⟨_, rfl, by simp [firstId]⟩
    · rw [if_neg kind]
      by_cases comment : t.tokenId = .comment
      · obtain ⟨second, found, same⟩ := ih (before ++ [t]) rest (by simp [split]) length'
        rw [List.length_append, List.length_singleton] at found
        rw [if_neg (not_not.mpr comment), dropComments_comment comment]
        exact ⟨second, found, same⟩
      · rw [if_pos comment, dropComments_other comment]
        exact ⟨none, rfl, by simpa [firstId] using fun last => kind (Or.inr last)⟩

/-- The loop finds both tokens exactly if the tokens open a transaction. -/
theorem startTransFrom_none (count : Nat) : ∀ before rest, ts = before ++ rest →
    rest.length = count → ∃ first second,
      startTransFrom ts count before.length none none = some (first, second) ∧
        (first = some .sqlStart ∧ second = some .sqlTransaction ↔ OpensByStart rest) := by
  induction count with
  | zero =>
    intro before rest _ empty
    rw [List.length_eq_zero_iff] at empty
    exact ⟨none, none, rfl, by simp [empty, OpensByStart, dropComments, firstId]⟩
  | succ count ih =>
    intro before rest split length
    obtain ⟨t, rest, rfl⟩ := List.exists_cons_of_length_eq_add_one length
    have there := tokenId_behind split
    have length' := Nat.succ.inj length
    have split' : ts = (before ++ [t]) ++ rest := by simp [split]
    simp only [startTransFrom, there, Option.bind_eq_bind, Option.bind_some, if_true]
    -- TRANSACTION counts as a first token too, but then nothing is opened.
    by_cases kind : t.tokenId = .sqlStart ∨ t.tokenId = .sqlTransaction
    · have other : t.tokenId ≠ .comment := by
        obtain kind | kind := kind <;> simp [kind]
      obtain ⟨second, found, same⟩ := startTransFrom_first t.tokenId count _ _ split' length'
      rw [List.length_append, List.length_singleton] at found
      rw [if_pos kind, found]
      refine ⟨_, _, rfl, ?_⟩
      rw [OpensByStart, dropComments_other other, List.tail_cons, same]
      rfl
    · rw [if_neg kind]
      by_cases comment : t.tokenId = .comment
      · obtain ⟨first, second, found, same⟩ := ih _ _ split' length'
        rw [List.length_append, List.length_singleton] at found
        rw [if_neg (not_not.mpr comment), OpensByStart, dropComments_comment comment]
        exact ⟨first, second, found, same⟩
      · rw [if_pos comment, OpensByStart, dropComments_other comment]
        refine ⟨none, none, rfl, ?_⟩
        simp only [reduceCtorEq, false_and, false_iff, not_and]
        intro start
        exact absurd (Or.inl (Option.some.inj start)) kind

/-- A transaction is seen exactly if the body opens one. -/
theorem isStartTrans_eq (ts : List SqlToken) : isStartTrans ts =
      some (decide (OpensTrans (body ts))) := by
  obtain ⟨header, split, _, skipped⟩ := skipExternTokensInHeader_eq ts
  have begins := tokenId_body split
  have lengths := congrArg List.length split
  rw [List.length_append] at lengths
  rw [isStartTrans, skipped]
  simp only [Option.bind_eq_bind, Option.bind_some, begins]
  cases there : body ts with
  | nil =>
    rw [there, List.length_nil] at lengths
    rw [if_pos (by omega)]
    simp [OpensTrans, OpensByStart, firstId, dropComments]
  | cons t rest =>
    rw [there, List.length_cons] at lengths
    rw [if_neg (by omega)]
    simp only [firstId, List.head?_cons, Option.map_some, Option.bind_some]
    -- BEGIN opens a transaction by itself.
    by_cases begin_ : t.tokenId = .sqlBegin
    · simp [begin_, OpensTrans, firstId]
    · obtain ⟨first, second, found, same⟩ := startTransFrom_none (ts.length - header.length) header
        (body ts) split (by rw [there, List.length_cons]; omega)
      rw [if_neg begin_, found]
      simp only [Option.bind_some, same, there, OpensTrans, firstId, List.head?_cons,
        Option.map_some,
        Option.some.injEq, begin_, false_or]

end OneProxy.Sql
