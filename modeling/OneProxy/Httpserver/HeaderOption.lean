import OneProxy.Httpserver.FirstLine

/-! What becomes of the header lines of a request. -/

namespace OneProxy.HttpParse

open Tool Search

/-- Header lines that are read, up to an empty one or to the end of the bytes. -/
inductive HeadersRead (p : Platform) : Bytes → List (Bytes × Bytes) → Prop
  | stop {bytes rest : Bytes} : First p.crlf (cStr bytes) [] rest → HeadersRead p bytes []
  | last {bytes key value line rest : Bytes} : First p.crlf (cStr bytes) line rest →
      First [58, 32] line key value → bytes.length ≤ line.length + 2 →
      HeadersRead p bytes [(key, value)]
  | next {bytes key value line rest : Bytes} {lines : List (Bytes × Bytes)} :
      First p.crlf (cStr bytes) line rest → First [58, 32] line key value →
      line.length + 2 < bytes.length → HeadersRead p (bytes.drop (line.length + 2)) lines →
      HeadersRead p bytes ((key, value) :: lines)

/-- Header lines that come to one from which on there is no colon with a space. -/
inductive HeadersFault (p : Platform) : Bytes → Prop
  | noColon {bytes line rest : Bytes} : First p.crlf (cStr bytes) line rest → line ≠ [] →
      ¬ [58, 32] <:+: cStr bytes → HeadersFault p bytes
  | next {bytes line rest : Bytes} : First p.crlf (cStr bytes) line rest → line ≠ [] →
      [58, 32] <:+: line → line.length + 2 < bytes.length →
      HeadersFault p (bytes.drop (line.length + 2)) → HeadersFault p bytes

/-- Writes header lines into a map, a later one over an earlier one. -/
def addLines (map : StdMap Bytes Bytes) (lines : List (Bytes × Bytes)) : StdMap Bytes Bytes :=
  lines.foldl (fun map line => Function.update map line.1 (some line.2)) map

variable {p : Platform} {data line rest key value : Bytes} {pos fuel : Nat} {http : Http}

/-- A line end is none of a colon and a space. -/
theorem crlf_lacks (p : Platform) : ∃ c more, p.crlf = c :: more ∧ c ∉ ([58, 32] : Bytes) := by
  cases win : p.win32 with
  | true => exact ⟨13, [10], by simp [Platform.crlf, win], by decide⟩
  | false => exact ⟨10, [], by simp [Platform.crlf, win], by decide⟩

/-- A line with a key and a value is written into the map, and the next line follows. -/
theorem headerOptionLoop_line (one : First p.crlf (cStr (data.drop pos)) line rest)
    (parts : First [58, 32] line key value) :
    headerOptionLoop p data (fuel + 1) pos (pos + line.length) http =
      let http :=
        { http with headerOptionMap := Function.update http.headerOptionMap key (some value) }
      if (data.drop pos).length ≤ line.length + 2 then .ok http
      else
        match strstr data (pos + line.length + 2) p.crlf with
        | none => .error .returned
        | some endPos => headerOptionLoop p data fuel (pos + line.length + 2) endPos http := by
  obtain ⟨c, more, crlf, lacks⟩ := crlf_lacks p
  have whole : cStr (data.drop pos) = line ++ c :: (more ++ rest) := by
    rw [one.text_eq, crlf, List.append_assoc, List.cons_append]
  have here : At data pos (line ++ c :: (more ++ rest)) := whole
  have found := strstr_first here (parts.append lacks (by simp))
  have length : line.length = key.length + 2 + value.length := by
    rw [parts.text_eq, List.length_append, List.length_append]
    rfl
  have inside : pos < pos + line.length := by omega
  have within : ¬ pos + key.length > pos + line.length := by omega
  -- Key and value are cut out of the line at the colon.
  have keyText : text data pos (pos + key.length) = key := by
    refine At.text (?_ : At data pos (key ++ ([58, 32] ++ value ++ c :: (more ++ rest))))
    rw [At, whole, parts.text_eq]
    simp
  have valueText : text data (pos + key.length + 2) (pos + line.length) = value := by
    have behind : At data (pos + key.length + 2) (value ++ c :: (more ++ rest)) := by
      have front : At data pos ((key ++ [58, 32]) ++ (value ++ c :: (more ++ rest))) := by
        rw [At, whole, parts.text_eq]
        simp
      have next := front.drop
      rwa [List.length_append, ← Nat.add_assoc] at next
    have stop : pos + line.length = pos + key.length + 2 + value.length := by omega
    rw [stop]
    exact behind.text
  have last : pos + line.length + 2 ≥ data.length ↔ (data.drop pos).length ≤ line.length + 2 := by
    rw [List.length_drop]
    omega
  rw [headerOptionLoop, if_pos inside, found]
  simp only [used, Bind.bind, Except.bind, if_neg within, keyText, valueText]
  exact if_congr last rfl rfl

/-- Header lines that are read go into the map. -/
theorem headerOptionLoop_read {bytes : Bytes} {lines : List (Bytes × Bytes)}
    (reads : HeadersRead p bytes lines) (here : data.drop pos = bytes)
    (rounds : bytes.length < fuel) {line rest : Bytes}
    (one : First p.crlf (cStr bytes) line rest) :
    headerOptionLoop p data fuel pos (pos + line.length) http =
      .ok { http with headerOptionMap := addLines http.headerOptionMap lines } := by
  induction reads generalizing pos fuel http line rest with
  | stop empty =>
    obtain ⟨rfl, _⟩ := one.unique empty
    obtain ⟨fuel, rfl⟩ : ∃ n, fuel = n + 1 := ⟨fuel - 1, by omega⟩
    rw [headerOptionLoop, if_neg (by simp)]
    rfl
  | last first parts last =>
    obtain ⟨rfl, _⟩ := one.unique first
    obtain ⟨fuel, rfl⟩ : ∃ n, fuel = n + 1 := ⟨fuel - 1, by omega⟩
    subst here
    rw [headerOptionLoop_line first parts, if_pos last]
    rfl
  | @next bytes key value line' rest' lines first parts further later ih =>
    obtain ⟨rfl, _⟩ := one.unique first
    obtain ⟨fuel, rfl⟩ : ∃ n, fuel = n + 1 := ⟨fuel - 1, by omega⟩
    subst here
    rw [headerOptionLoop_line first parts, if_neg (by omega)]
    have next : data.drop (pos + line.length + 2) = (data.drop pos).drop (line.length + 2) := by
      rw [List.drop_drop, Nat.add_assoc]
    -- A list of read lines begins with a line.
    obtain ⟨line', rest', one'⟩ : ∃ line' rest',
        First p.crlf (cStr ((data.drop pos).drop (line.length + 2))) line' rest' := by
      cases later with
      | stop one' => exact ⟨_, _, one'⟩
      | last one' => exact ⟨_, _, one'⟩
      | next one' => exact ⟨_, _, one'⟩
    have here : At data (pos + line.length + 2)
        (cStr ((data.drop pos).drop (line.length + 2))) := congrArg cStr next
    have shorter : ((data.drop pos).drop (line.length + 2)).length < fuel := by
      rw [List.length_drop]
      omega
    rw [strstr_first here one']
    exact ih next shorter one'

section

variable {bytes : Bytes}

theorem headersFault_blank (one : First p.crlf (cStr bytes) [] rest) : ¬ HeadersFault p bytes := by
  rintro (⟨one', some_, _⟩ | ⟨one', some_, _⟩)
  · exact some_ (one'.unique one).1
  · exact some_ (one'.unique one).1

theorem headersFault_unended (ends : ¬ p.crlf <:+: cStr bytes) : ¬ HeadersFault p bytes := by
  rintro (⟨one', _, _⟩ | ⟨one', _, _⟩)
  · exact ends ⟨_, _, one'.text_eq.symm⟩
  · exact ends ⟨_, _, one'.text_eq.symm⟩

/-- A line without a key is a fault if nothing behind it has one either. -/
theorem headersFault_keyless (one : First p.crlf (cStr bytes) line rest) (some_ : line ≠ [])
    (colon : ¬ [58, 32] <:+: line) : HeadersFault p bytes ↔ ¬ [58, 32] <:+: cStr bytes := by
  constructor
  · rintro (⟨_, _, none_⟩ | ⟨one', _, colon', _⟩)
    · exact none_
    · rw [(one'.unique one).1] at colon'
      exact absurd colon' colon
  · exact .noColon one some_

/-- A line with a key is no fault itself. -/
theorem headersFault_keyed (one : First p.crlf (cStr bytes) line rest) (some_ : line ≠ [])
    (colon : [58, 32] <:+: line) : HeadersFault p bytes ↔
      line.length + 2 < bytes.length ∧ HeadersFault p (bytes.drop (line.length + 2)) := by
  constructor
  · rintro (⟨_, _, none_⟩ | ⟨one', _, _, further, later⟩)
    · have inside : line <:+: cStr bytes := ⟨[], p.crlf ++ rest, by simp [one.text_eq]⟩
      exact absurd (colon.trans inside) none_
    · rw [(one'.unique one).1] at further later
      exact ⟨further, later⟩
  · rintro ⟨further, later⟩
    exact .next one some_ colon further later

end

/-- When the header lines come to a fault. -/
theorem headerOptionLoop_fault (rounds : (data.drop pos).length < fuel)
    (one : First p.crlf (cStr (data.drop pos)) line rest) :
    headerOptionLoop p data fuel pos (pos + line.length) http = .error .fault ↔
      HeadersFault p (data.drop pos) := by
  -- The induction is on the rounds; each line that is read leaves less to read.
  induction fuel generalizing pos http line rest with
  | zero => omega
  | succ fuel ih =>
    by_cases empty : line = []
    · subst empty
      rw [headerOptionLoop, if_neg (by simp)]
      exact iff_of_false (by simp) (headersFault_blank one)
    by_cases colon : [58, 32] <:+: line
    · obtain ⟨key, value, parts⟩ := exists_first colon
      rw [headerOptionLoop_line one parts, headersFault_keyed one empty colon]
      by_cases last : (data.drop pos).length ≤ line.length + 2
      · rw [if_pos last]
        exact iff_of_false (by simp) fun fault => Nat.not_lt.mpr last fault.1
      · have next : data.drop (pos + line.length + 2) = (data.drop pos).drop (line.length + 2) := by
          rw [List.drop_drop, Nat.add_assoc]
        have there : At data (pos + line.length + 2) _ := rfl
        rw [if_neg last, and_iff_right (Nat.not_le.mp last), ← next]
        by_cases ends : p.crlf <:+: cStr (data.drop (pos + line.length + 2))
        · obtain ⟨line', rest', one'⟩ := exists_first ends
          have shorter : (data.drop (pos + line.length + 2)).length < fuel := by
            rw [next, List.length_drop]
            omega
          rw [strstr_first there one']
          exact ih shorter one'
        · rw [strstr_absent there ends]
          exact iff_of_false (by simp) (headersFault_unended ends)
    · -- The search for the colon may still find one, but behind the line.
      obtain ⟨c, more, crlf, lacks⟩ := crlf_lacks p
      have whole : cStr (data.drop pos) = line ++ c :: (more ++ rest) := by
        rw [one.text_eq, crlf, List.append_assoc, List.cons_append]
      have here : At data pos (line ++ c :: (more ++ rest)) := whole
      have inside : pos < pos + line.length := by
        have positive := List.length_pos_of_ne_nil empty
        omega
      rw [headersFault_keyless one empty colon, whole, headerOptionLoop, if_pos inside]
      rcases search_cases here lacks (by simp) with ⟨absent, found⟩ | ⟨at_, found, named, beyond⟩
      · rw [found]
        exact iff_of_true rfl absent
      · rw [found]
        simp only [used, Bind.bind, Except.bind, if_pos (beyond.mpr colon)]
        exact iff_of_false (by simp) (not_not_intro named)

/-- When the header lines come to a fault, from the offset on. -/
theorem parseHttpHeaderOption_fault : parseHttpHeaderOption p data pos http = .error .fault ↔
    ¬ p.crlf <:+: cStr (data.drop pos) ∨ HeadersFault p (data.drop pos) := by
  have here : At data pos _ := rfl
  have rounds : (data.drop pos).length < data.length + 1 := by
    rw [List.length_drop]
    omega
  by_cases ends : p.crlf <:+: cStr (data.drop pos)
  · obtain ⟨line, rest, one⟩ := exists_first ends
    rw [parseHttpHeaderOption, strstr_first here one]
    exact (headerOptionLoop_fault rounds one).trans (or_iff_right (not_not_intro ends)).symm
  · rw [parseHttpHeaderOption, strstr_absent here ends]
    exact iff_of_true rfl (Or.inl ends)

/-- Header lines that are read go into the map, from the offset on. -/
theorem parseHttpHeaderOption_read {lines : List (Bytes × Bytes)}
    (reads : HeadersRead p (data.drop pos) lines) : parseHttpHeaderOption p data pos http =
      .ok { http with headerOptionMap := addLines http.headerOptionMap lines } := by
  have here : At data pos _ := rfl
  have rounds : (data.drop pos).length < data.length + 1 := by
    rw [List.length_drop]
    omega
  obtain ⟨line, rest, one⟩ : ∃ line rest, First p.crlf (cStr (data.drop pos)) line rest := by
    cases reads with
    | stop one => exact ⟨_, _, one⟩
    | last one => exact ⟨_, _, one⟩
    | next one => exact ⟨_, _, one⟩
  rw [parseHttpHeaderOption, strstr_first here one]
  exact headerOptionLoop_read reads rfl rounds one

/-- The header lines leave the version as it is. -/
theorem httpversion_headerOptionLoop {endPos : Nat} {http' : Http}
    (done : headerOptionLoop p data fuel pos endPos http = .ok http') :
    http'.httpversion = http.httpversion := by
  -- The induction is on the rounds; what is written is the map.
  induction fuel generalizing pos endPos http with
  | zero => exact absurd done (by simp [headerOptionLoop])
  | succ fuel ih =>
    rw [headerOptionLoop] at done
    split at done
    · cases found : strstr data pos [58, 32] with
      | none =>
        rw [found] at done
        exact absurd done (by simp [used, Bind.bind, Except.bind])
      | some keyEndPos =>
        rw [found] at done
        simp only [used, Bind.bind, Except.bind] at done
        split at done
        · exact absurd done (by simp)
        · split at done
          · obtain rfl := Except.ok.inj done
            rfl
          · split at done
            · exact absurd done (by simp)
            · have later := ih done
              exact later
    · obtain rfl := Except.ok.inj done
      rfl

theorem httpversion_parseHttpHeaderOption {http' : Http}
    (done : parseHttpHeaderOption p data pos http = .ok http') :
    http'.httpversion = http.httpversion := by
  rw [parseHttpHeaderOption] at done
  cases found : strstr data pos p.crlf with
  | none =>
    rw [found] at done
    exact absurd done (by simp [used, Bind.bind, Except.bind])
  | some endPos =>
    rw [found] at done
    exact httpversion_headerOptionLoop done

end OneProxy.HttpParse
