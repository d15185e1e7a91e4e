import OneProxy.Conf.PortScan

/-! Which values the loop over classes comes to an end on. -/

namespace OneProxy.Config

open Tool

variable {value : Bytes} {pos pPos fuel : Nat} {map result : PortMap}

/-! ## One class -/

/-- What stands before the first semicolon, and what follows it. -/
structure Segment (text seg tail : Bytes) (segs : List Bytes) : Prop where
  text_eq : text = seg ++ tail
  split : text.splitOn semicolon = seg :: segs
  fresh : semicolon ∉ seg
  follows : tail = [] ∧ segs = [] ∨ ∃ rest, tail = semicolon :: rest ∧ segs = rest.splitOn semicolon

/-- Every text begins with one. -/
theorem exists_segment (text : Bytes) : ∃ seg tail segs, Segment text seg tail segs := by
  rcases Separator.split_cases semicolon text with ⟨fresh, split⟩ | ⟨seg, rest, same, fresh, split⟩
  · exact ⟨text, [], [], (List.append_nil text).symm, split, fresh, Or.inl ⟨rfl, rfl⟩⟩
  · exact ⟨seg, semicolon :: rest, rest.splitOn semicolon, same, split, fresh,
      Or.inr ⟨rest, rfl, rfl⟩⟩

variable {seg tail name ports : Bytes} {segs : List Bytes}

/-- The end of a class. -/
theorem Segment.curPos_eq (segment : Segment (value.drop pos) seg tail segs)
    (le : pos ≤ value.length) :
    (findFirstOf value semicolon pos).getD value.length = pos + seg.length := by
  rcases segment.follows with ⟨none_, _⟩ | ⟨rest, some_, _⟩
  · have whole : value.drop pos = seg := by rw [segment.text_eq, none_, List.append_nil]
    have absent : findFirstOf value semicolon pos = none :=
      findFirstOf_of_notMem (whole ▸ segment.fresh)
    have length := congrArg List.length whole
    rw [List.length_drop] at length
    rw [absent, Option.getD_none]
    omega
  · have there := findFirstOf_of_mem (segment.text_eq.trans (by rw [some_])) segment.fresh
    rw [there]
    rfl

/-- There is another class if there is anything behind the semicolon. -/
theorem Segment.next_iff (segment : Segment (value.drop pos) seg tail segs)
    (le : pos ≤ value.length) :
    pos + seg.length + 1 < value.length ↔ 1 < tail.length := by
  have length := congrArg List.length segment.text_eq
  rw [List.length_drop, List.length_append] at length
  omega

theorem Segment.drop_next (segment : Segment (value.drop pos) seg tail segs) :
    value.drop (pos + seg.length + 1) = tail.tail := by
  rw [Nat.add_assoc, ← List.drop_drop, segment.text_eq, ← List.drop_drop, List.drop_left,
    List.drop_one]

/-- A class that names no class ends the scan. -/
theorem classesEnd_bad (segment : Segment (value.drop pos) seg tail segs) (le : pos ≤ value.length)
    (bad : colon ∈ seg → ∃ ports, seg = colon :: ports) : ClassesEnd value pos map map := by
  refine ⟨1, ?_⟩
  simp only [scanClasses, segment.curPos_eq le]
  by_cases colons : colon ∈ value.drop pos
  · obtain ⟨before, after, same, fresh⟩ := List.eq_append_cons_of_mem colons
    rw [findFirstOf_of_mem same fresh]
    by_cases outside : pos + before.length ≥ pos + seg.length
    · simp only [if_pos outside]
    · simp only [if_neg outside]
      -- The colon is in the class, which it begins then.
      obtain ⟨ports, rfl⟩ : ∃ ports, seg = colon :: ports := by
        apply bad
        have both := segment.text_eq.symm.trans same
        have first : (seg ++ tail)[before.length]? = (before ++ colon :: after)[before.length]? :=
          congrArg (·[before.length]?) both
        rw [List.getElem?_append_left (by omega), List.getElem?_append_right (by omega),
          Nat.sub_self, List.getElem?_cons_zero] at first
        exact List.mem_of_getElem? first
      have none_ : before = [] := by
        have both := segment.text_eq.symm.trans same
        cases before with
        | nil => rfl
        | cons x before =>
          obtain ⟨rfl, _⟩ := List.cons.inj both
          exact absurd List.mem_cons_self fresh
      subst none_
      simp [substr]
  · rw [findFirstOf_of_notMem colons]

/-- The name of a class, and its ports. -/
structure Header (seg name ports : Bytes) : Prop where
  seg_eq : seg = name ++ colon :: ports
  fresh : colon ∉ name
  named : name ≠ []

/-- A class is scanned, and then what follows it. -/
theorem classesEnd_iff (segment : Segment (value.drop pos) seg tail segs) (le : pos ≤ value.length)
    (header : Header seg name ports) :
    ClassesEnd value pos map result ↔ ∃ ended map', PortsEnd value name (pos + seg.length)
      (pos + name.length + 1) map (ended, map') ∧
        if ended = true ∧ 1 < tail.length then ClassesEnd value (pos + seg.length + 1) map' result
        else map' = result := by
  have here : value.drop pos = name ++ colon :: (ports ++ tail) := by
    rw [segment.text_eq, header.seg_eq, List.append_assoc, List.cons_append]
  have there := findFirstOf_of_mem here header.fresh
  have length : seg.length = name.length + 1 + ports.length := by
    rw [header.seg_eq, List.length_append, List.length_cons]
    omega
  have inside : ¬ pos + name.length ≥ pos + seg.length := by omega
  have read : substr value pos (some (pos + name.length)) = name := substr_part here
  have long : ¬ name.length ≤ 0 := fun none_ =>
    header.named (List.length_eq_zero_iff.mp (Nat.le_zero.mp none_))
  have next := segment.next_iff le
  constructor
  · -- A scan that ends has some fuel left for the ports and for what follows.
    rintro ⟨fuel, done⟩
    cases fuel with
    | zero => exact absurd done (by simp [scanClasses])
    | succ fuel =>
      simp only [scanClasses, segment.curPos_eq le, there, if_neg inside, read, if_neg long,
        next] at done
      split at done
      · exact absurd done (by simp)
      · next map' scanned => exact ⟨false, map', ⟨fuel, scanned⟩, by simpa using done⟩
      · next map' scanned =>
        refine ⟨true, map', ⟨fuel, scanned⟩, ?_⟩
        split at done
        · next further =>
          rw [if_pos ⟨rfl, further⟩]
          exact ⟨fuel, done⟩
        · next last =>
          rw [if_neg fun both => last both.2]
          exact Option.some.inj done
  · rintro ⟨ended, map', ⟨fuel, scanned⟩, after⟩
    -- The two scans may need different fuel, of which the greater will do for both.
    by_cases further : ended = true ∧ 1 < tail.length
    · rw [if_pos further] at after
      obtain ⟨more, done⟩ := after
      have scanned := scanPorts_mono (Nat.le_max_left fuel more) scanned
      have done := scanClasses_mono (Nat.le_max_right fuel more) done
      obtain ⟨rfl, further⟩ := further
      exact ⟨max fuel more + 1, by simp only [scanClasses, segment.curPos_eq le, there,
        if_neg inside, read, if_neg long, scanned, next, if_pos further, done]⟩
    · rw [if_neg further] at after
      subst after
      refine ⟨fuel + 1, ?_⟩
      simp only [scanClasses, segment.curPos_eq le, there, if_neg inside, read, if_neg long,
        scanned, next]
      cases ended with
      | false => rfl
      | true => simp only [if_neg fun last => further ⟨rfl, last⟩]

/-- A class has a name and ports, or it names no class. -/
theorem header_cases (seg : Bytes) :
    (colon ∈ seg → ∃ ports, seg = colon :: ports) ∨ ∃ name ports, Header seg name ports := by
  by_cases colons : colon ∈ seg
  · obtain ⟨name, ports, same, fresh⟩ := List.eq_append_cons_of_mem colons
    cases name with
    | nil => exact Or.inl fun _ => ⟨ports, same⟩
    | cons x name => exact Or.inr ⟨x :: name, ports, same, fresh, List.cons_ne_nil x name⟩
  · exact Or.inl fun found => absurd found colons

/-! ## Running out of commas -/

/--
The scan comes to a class behind whose last port there is no comma.

Before that, every class has a name and begins with a port, where it has any.
-/
def RunsOut : List Bytes → Prop
  | [] => False
  | seg :: rest =>
    let name := seg.takeWhile (· ≠ colon)
    let ports := seg.drop (name.length + 1)
    (colon ∈ seg ∧ name ≠ []) ∧ (ports ≠ [] → atoi (ports.takeWhile (· ≠ comma)) ≠ 0) ∧
      (ports = [] ∨ ports.getLast? = some comma ∨ (∃ later ∈ rest, comma ∈ later) → RunsOut rest)

/-- Whether the scan runs out, from a class with a name on. -/
theorem runsOut_iff (header : Header seg name ports) :
    RunsOut (seg :: segs) ↔ (ports ≠ [] → atoi (ports.takeWhile (· ≠ comma)) ≠ 0) ∧
      (ports = [] ∨ ports.getLast? = some comma ∨ (∃ later ∈ segs, comma ∈ later) →
        RunsOut segs) := by
  have before : seg.takeWhile (· ≠ colon) = name := by
    rw [header.seg_eq]
    exact Separator.takeWhile_before header.fresh ports
  have after : seg.drop (name.length + 1) = ports := by
    rw [header.seg_eq, ← List.drop_drop, List.drop_left, List.drop_one, List.tail_cons]
  have colons : colon ∈ seg := by
    rw [header.seg_eq]
    simp
  simp only [RunsOut, before, after, colons, true_and]
  exact and_iff_right header.named

theorem not_runsOut_bad (bad : colon ∈ seg → ∃ ports, seg = colon :: ports) :
    ¬ RunsOut (seg :: segs) := by
  rintro ⟨⟨colons, named⟩, _⟩
  obtain ⟨ports, rfl⟩ := bad colons
  exact named (by simp)

/-- The first piece from the ports on reads as the first port. -/
theorem first_port {text : Bytes} (segment : Segment text seg tail segs) (ports : Bytes) :
    ∃ piece pieces, (ports ++ tail).splitOn comma = piece :: pieces ∧
      atoi piece = atoi (ports.takeWhile (· ≠ comma)) := by
  by_cases commas : comma ∈ ports
  · obtain ⟨piece, more, rfl, fresh⟩ := List.eq_append_cons_of_mem commas
    refine ⟨piece, (more ++ tail).splitOn comma, ?_, by rw [Separator.takeWhile_before fresh]⟩
    rw [List.append_assoc, List.cons_append]
    exact List.splitOn_append_cons_self_of_not_mem fresh _
  · rw [Separator.takeWhile_fresh commas]
    rcases segment.follows with ⟨rfl, _⟩ | ⟨rest, rfl, _⟩
    · refine ⟨ports, [], ?_, rfl⟩
      rw [List.append_nil]
      exact List.splitOn_eq_singleton commas
    · -- Reading the port stops at the semicolon.
      obtain ⟨piece, pieces, split⟩ := List.exists_cons_of_ne_nil (List.splitOn_ne_nil comma rest)
      have none_ : comma ∉ ports ++ [semicolon] := by
        simp only [List.mem_append, List.mem_singleton, not_or]
        exact ⟨commas, by decide⟩
      refine ⟨ports ++ semicolon :: piece, pieces, ?_, ?_⟩
      · have parts : ports ++ semicolon :: rest = (ports ++ [semicolon]) ++ rest := by simp
        rw [parts, Separator.split_append none_, split]
        simp
      · exact atoi_append_stop ⟨by decide, by decide, by decide, by decide⟩ ports piece

/-- Where there is a comma from the last character of a class on. -/
theorem comma_behind_iff {text : Bytes} (segment : Segment text seg tail segs)
    (some_ : ports ≠ []) :
    comma ∈ (ports ++ tail).drop (ports.length - 1) ↔
      ports.getLast? = some comma ∨ ∃ later ∈ segs, comma ∈ later := by
  obtain ⟨front, last, rfl⟩ : ∃ front last, ports = front ++ [last] :=
    ⟨_, _, (List.dropLast_concat_getLast some_).symm⟩
  have drop : (front ++ [last] ++ tail).drop ((front ++ [last]).length - 1) = last :: tail := by
    simp
  have behind : comma ∈ tail ↔ ∃ later ∈ segs, comma ∈ later := by
    rcases segment.follows with ⟨rfl, rfl⟩ | ⟨rest, rfl, rfl⟩
    · simp
    · rw [Separator.mem_split_iff (by decide)]
      simp [comma, semicolon]
  rw [drop, List.mem_cons, behind, List.getLast?_concat, Option.some.injEq]
  exact or_congr_left eq_comm

/-! ## Coming to an end -/

/-- The part of a class that holds its ports. -/
theorem Segment.drop_ports (segment : Segment (value.drop pos) seg tail segs)
    (header : Header seg name ports) : value.drop (pos + name.length + 1) = ports ++ tail := by
  refine drop_behind (?_ : value.drop pos = name ++ colon :: (ports ++ tail))
  rw [segment.text_eq, header.seg_eq, List.append_assoc, List.cons_append]

theorem Header.length_eq (header : Header seg name ports) :
    seg.length = name.length + 1 + ports.length := by
  rw [header.seg_eq, List.length_append, List.length_cons]
  omega

/-- A piece without a port, from the ports of a class on. -/
theorem not_allPorts {text : Bytes} (here : value.drop pPos = text) {piece : Bytes}
    {pieces : List Bytes}
    (split : text.splitOn comma = piece :: pieces)
    (zero : ∃ piece ∈ text.splitOn comma, atoi piece = 0) :
    ¬ (AllPorts value ∧ atoi piece ≠ 0) := by
  rintro ⟨ports, first⟩
  obtain ⟨other, member, none_⟩ := zero
  rw [split] at member
  rcases List.mem_cons.mp member with rfl | later
  · exact first none_
  · -- Later pieces are pieces of the value.
    have suffix := Separator.tail_split_suffix comma (value.take pPos) text
    rw [← here, List.take_append_drop, here, split, List.tail_cons] at suffix
    exact ports other (List.mem_of_mem_tail (suffix.subset later)) none_

/--
What comes of the ports of a class: the scan returns, or it leaves the class behind its last
comma, or it never ends.
-/
theorem portsEnd_cases (segment : Segment (value.drop pos) seg tail segs) (le : pos ≤ value.length)
    (header : Header seg name ports) (some_ : ports ≠ []) (map : PortMap) :
    ((∃ map', ∀ result, PortsEnd value name (pos + seg.length) (pos + name.length + 1) map result ↔
          (false, map') = result) ∧
        ¬ (AllPorts value ∧ atoi (ports.takeWhile (· ≠ comma)) ≠ 0)) ∨
      ((∃ map', ∀ result, PortsEnd value name (pos + seg.length) (pos + name.length + 1)
        map result ↔
          (true, map') = result) ∧ atoi (ports.takeWhile (· ≠ comma)) ≠ 0 ∧
        (ports.getLast? = some comma ∨ ∃ later ∈ segs, comma ∈ later)) ∨
      ((∀ result, ¬ PortsEnd value name (pos + seg.length) (pos + name.length + 1) map result) ∧
        AllPorts value ∧ atoi (ports.takeWhile (· ≠ comma)) ≠ 0 ∧
        ¬ (ports.getLast? = some comma ∨ ∃ later ∈ segs, comma ∈ later)) := by
  have long := header.length_eq
  have positive := List.length_pos_of_ne_nil some_
  have here := segment.drop_ports header
  have reach : pos + seg.length - (pos + name.length + 1) = ports.length := by omega
  obtain ⟨piece, pieces, split, reads⟩ := first_port segment ports
  have first : ∀ ended, pass name ports.length ((ports ++ tail).splitOn comma) map = ended →
      ended ≠ .returned map → atoi (ports.takeWhile (· ≠ comma)) ≠ 0 := by
    rintro ended same differ zero
    rw [split, pass_zero (reads.trans zero) positive] at same
    exact differ same.symm
  have iff := fun result => @portsEnd_iff_pass value name (pos + seg.length) _ map result _ here
  rw [reach] at iff
  have because : (pass name ports.length ((ports ++ tail).splitOn comma) map).Because
      ports.length (ports ++ tail) := pass_because positive (by simp)
  cases outcome : pass name ports.length ((ports ++ tail).splitOn comma) map with
  | returned map' =>
    rw [outcome] at iff because
    exact Or.inl ⟨⟨map', iff⟩, reads ▸ not_allPorts here split because⟩
  | left map' =>
    rw [outcome] at iff because
    exact Or.inr (Or.inl ⟨⟨map', iff⟩, first _ outcome (by simp),
      (comma_behind_iff segment some_).mp because⟩)
  | wrapped map' =>
    rw [outcome] at iff because
    have none_ := mt (comma_behind_iff segment some_).mpr because.1
    have outside : comma ∉ value.drop (pos + seg.length - 1) := by
      have same : pos + seg.length - 1 = pos + name.length + 1 + (ports.length - 1) := by omega
      rw [same, ← List.drop_drop, here]
      exact because.1
    have within : pos + seg.length ≤ value.length := by
      have parts := congrArg List.length segment.text_eq
      rw [List.length_drop, List.length_append] at parts
      omega
    -- The loop begins anew, at the beginning of the value.
    have again := fun result =>
      @portsEnd_iff_pass value name (pos + seg.length) 0 map' result value rfl
    rw [Nat.sub_zero] at again
    have whole : (pass name (pos + seg.length) (value.splitOn comma) map').Because
        (pos + seg.length) value := pass_because (by omega) within
    cases final : pass name (pos + seg.length) (value.splitOn comma) map' with
    | returned map'' =>
      rw [final] at again whole
      obtain ⟨other, member, zero⟩ := whole
      exact Or.inl ⟨⟨map'', fun result => (iff result).trans (again result)⟩,
        fun both => both.1 other member zero⟩
    | left map'' =>
      rw [final] at whole
      exact absurd whole outside
    | wrapped map'' =>
      rw [final] at whole
      refine Or.inr (Or.inr ⟨fun result ends => ?_, whole.2, first _ outcome (by simp), none_⟩)
      obtain ⟨fuel, done⟩ := (iff result).mp ends
      have stuck : scanPorts value name (pos + seg.length) fuel 0 map' = none :=
        scanPorts_circles whole.2 outside (by omega) (by omega) whole.2
      rw [stuck] at done
      exact absurd done (by simp)

/-- What follows a class, if anything does. -/
theorem Segment.follows_of_next (segment : Segment (value.drop pos) seg tail segs)
    (further : 1 < tail.length) :
    (value.drop (pos + seg.length + 1)).splitOn semicolon = segs ∧
      (value.drop (pos + seg.length + 1)).length < (value.drop pos).length := by
  have next := segment.drop_next
  rcases segment.follows with ⟨rfl, _⟩ | ⟨rest, rfl, rfl⟩
  · exact absurd further (by simp)
  · rw [List.tail_cons] at next
    rw [next, segment.text_eq]
    exact ⟨rfl, by simp; omega⟩

/-- A value that does not run out, or that has a piece without a port, is scanned to an end. -/
theorem classesEnd_of_not (le : pos ≤ value.length)
    (not : ¬ (RunsOut ((value.drop pos).splitOn semicolon) ∧ AllPorts value)) :
    ∃ result, ClassesEnd value pos map result := by
  -- Each class leaves a shorter rest.
  induction length : (value.drop pos).length using Nat.strongRecOn generalizing pos map with
  | ind n ih =>
    obtain ⟨seg, tail, segs, segment⟩ := exists_segment (value.drop pos)
    rcases header_cases seg with bad | ⟨name, ports, header⟩
    · exact ⟨map, classesEnd_bad segment le bad⟩
    · rw [segment.split, runsOut_iff header] at not
      have rest : ¬ (RunsOut segs ∧ AllPorts value) → ∀ map', PortsEnd value name
          (pos + seg.length) (pos + name.length + 1) map (true, map') →
            ∃ result, ClassesEnd value pos map result := by
        intro not map' ends
        by_cases further : 1 < tail.length
        · obtain ⟨split, shorter⟩ := segment.follows_of_next further
          obtain ⟨result, done⟩ := @ih _ (length ▸ shorter) (pos + seg.length + 1) map'
            (Nat.le_of_lt ((segment.next_iff le).mpr further)) (by rwa [split]) rfl
          exact ⟨result, (classesEnd_iff segment le header).mpr
            ⟨true, map', ends, by rwa [if_pos ⟨rfl, further⟩]⟩⟩
        · exact ⟨map', (classesEnd_iff segment le header).mpr
            ⟨true, map', ends, by rw [if_neg fun both => further both.2]⟩⟩
      by_cases some_ : ports = []
      · -- A class without ports is passed over.
        subst some_
        have long := header.length_eq
        rw [List.length_nil] at long
        exact rest (fun both => not ⟨⟨fun no => absurd rfl no, fun _ => both.1⟩, both.2⟩) map
          ((portsEnd_outside (by omega)).mpr rfl)
      · rcases portsEnd_cases segment le header some_ map with
          ⟨⟨map', ends⟩, _⟩ | ⟨⟨map', ends⟩, first, _⟩ | ⟨_, ports_, first, none_⟩
        · exact ⟨map', (classesEnd_iff segment le header).mpr
            ⟨false, map', (ends _).mpr rfl, by simp⟩⟩
        · exact rest (fun both => not ⟨⟨fun _ => first, fun _ => both.1⟩, both.2⟩) map'
            ((ends _).mpr rfl)
        · exact absurd ⟨⟨fun _ => first, fun either => absurd (either.resolve_left some_) none_⟩,
            ports_⟩ not

/-- A value that runs out, and of which every piece holds a port, is scanned for ever. -/
theorem not_classesEnd (le : pos ≤ value.length) (ports : AllPorts value)
    (out : RunsOut ((value.drop pos).splitOn semicolon)) : ¬ ClassesEnd value pos map result := by
  induction length : (value.drop pos).length using Nat.strongRecOn generalizing pos map with
  | ind n ih =>
    obtain ⟨seg, tail, segs, segment⟩ := exists_segment (value.drop pos)
    rw [segment.split] at out
    rcases header_cases seg with bad | ⟨name, ports', header⟩
    · exact absurd out (not_runsOut_bad bad)
    · rw [runsOut_iff header] at out
      rw [classesEnd_iff segment le header]
      rintro ⟨ended, map', ends, after⟩
      have rest : RunsOut segs → ended = true → False := by
        intro out ended
        by_cases further : 1 < tail.length
        · obtain ⟨split, shorter⟩ := segment.follows_of_next further
          rw [if_pos ⟨ended, further⟩] at after
          exact ih _ (length ▸ shorter) (Nat.le_of_lt ((segment.next_iff le).mpr further))
            (by rwa [split]) rfl after
        · -- Behind the last class there is none.
          rcases segment.follows with ⟨_, rfl⟩ | ⟨rest, rfl, rfl⟩
          · exact out
          · obtain rfl : rest = [] := List.length_eq_zero_iff.mp (by simpa using further)
            exact absurd out.1.1 (by simp)
      by_cases some_ : ports' = []
      · subst some_
        have long := header.length_eq
        rw [List.length_nil] at long
        have ended := (portsEnd_outside (by omega)).mp ends
        exact rest (out.2 (Or.inl rfl)) (Prod.mk.inj ended).1.symm
      · rcases portsEnd_cases segment le header some_ map with
          ⟨_, no⟩ | ⟨⟨map'', ends'⟩, _, behind⟩ | ⟨never, _⟩
        · exact no ⟨ports, out.1 some_⟩
        · exact rest (out.2 (Or.inr behind)) (Prod.mk.inj ((ends' _).mp ends)).1.symm
        · exact never _ ends

/--
The function comes to an end unless the scan runs out and every piece of the value holds a port.
-/
theorem terminates_iff (value : Bytes) :
    Terminates value ↔ ¬ (RunsOut (value.splitOn semicolon) ∧ AllPorts value) := by
  by_cases empty : value.length ≤ 0
  · obtain rfl : value = [] := List.length_eq_zero_iff.mp (Nat.le_zero.mp empty)
    refine iff_of_true ⟨0, rfl⟩ fun both => ?_
    exact absurd both.1.1.1 (by simp)
  · have same : Terminates value ↔ ∃ result, ClassesEnd value 0 (fun _ => none) result := by
      simp only [Terminates, handleMonitorPortClass, if_neg empty, Option.isSome_iff_exists,
        ClassesEnd]
      exact exists_comm
    rw [same]
    constructor
    · rintro ⟨result, ends⟩ ⟨out, ports⟩
      exact not_classesEnd (Nat.zero_le _) ports out ends
    · exact fun not => classesEnd_of_not (Nat.zero_le _) not

end OneProxy.Config
