import OneProxy.Conf.ClassScan

/-! What the scan makes of well-formed values. -/

namespace OneProxy.Config

open Tool

/-! ## Well-formed values -/

/-- A port as it is written: a decimal integer that is not zero and that an `int` holds. -/
structure PortText where
  negative : Bool
  digits : Bytes
  plain : ∀ c ∈ digits, isDigit c
  nonzero : ofDigits digits ≠ 0
  low : -0x80000000 ≤ if negative then -(ofDigits digits : Int) else ofDigits digits
  high : (if negative then -(ofDigits digits : Int) else ofDigits digits) < 0x80000000

namespace PortText

variable (p : PortText)

/-- The number that is written. -/
def value : Int := if p.negative then -(ofDigits p.digits : Int) else ofDigits p.digits

/-- The port. -/
def port : Int32 := Int32.ofInt p.value

/-- The characters that it is written with. -/
def text : Bytes := (if p.negative then [45] else []) ++ p.digits

theorem digits_ne_nil : p.digits ≠ [] := by
  intro none_
  apply p.nonzero
  rw [none_]
  rfl

/-- The port is what is read. -/
theorem atoi_text {rest : Bytes} (ends : ∀ c ∈ rest.head?, isDigit c = false) :
    atoi (p.text ++ rest) = p.port := by
  have low : -0x80000000 ≤ p.value := p.low
  have high : p.value < 0x80000000 := p.high
  have read := atoi_number p.negative p.digits_ne_nil p.plain ends
  have within : max (-0x8000000000000000) (min 0x7FFFFFFFFFFFFFFF p.value) = p.value := by omega
  rw [text, read]
  exact congrArg Int32.ofInt within

theorem port_ne_zero : p.port ≠ 0 := by
  intro zero
  have whole : p.port.toInt = p.value := Int32.toInt_ofInt_of_le p.low p.high
  rw [zero] at whole
  have none_ : p.value = 0 := whole.symm
  have some_ := p.nonzero
  unfold value at none_
  split at none_ <;> omega

/-- A character that is no digit and no minus is not in it. -/
theorem fresh {c : UInt8} (no : isDigit c = false) (minus : c ≠ 45) : c ∉ p.text := by
  intro member
  rcases List.mem_append.mp member with sign | digit
  · split at sign
    · exact minus (List.mem_singleton.mp sign)
    · exact absurd sign List.not_mem_nil
  · rw [p.plain c digit] at no
    exact absurd no (by simp)

theorem comma_notMem : comma ∉ p.text := p.fresh (by decide) (by decide)

theorem semicolon_notMem : semicolon ∉ p.text := p.fresh (by decide) (by decide)

end PortText

/-- A class with one port or several. -/
structure ClassText where
  className : Bytes
  named : className ≠ []
  noSemicolon : semicolon ∉ className
  noColon : colon ∉ className
  noComma : comma ∉ className
  first : PortText
  more : List PortText

namespace ClassText

variable (c : ClassText)

/-- The ports of a class as they are written. -/
def portsText : Bytes := c.first.text ++ c.more.flatMap fun p => comma :: p.text

/-- `class:port(,port)*`. -/
def text : Bytes := c.className ++ colon :: c.portsText

/-- The ports that are listed, with the class of each. -/
def pairs : List (Int32 × Bytes) := (c.first :: c.more).map fun p => (p.port, c.className)

end ClassText

/-- Classes in their order, with a semicolon behind the last one or without. -/
structure PortClasses where
  first : ClassText
  later : List ClassText
  final : Bool

/-- What follows a class. -/
def restText (later : List ClassText) (final : Bool) : Bytes :=
  later.flatMap (fun c => semicolon :: c.text) ++ if final then [semicolon] else []

/-- `class:port(,port)*(;class:port(,port)*)*`, with an optional semicolon at the end. -/
def PortClasses.text (classes : PortClasses) : Bytes :=
  classes.first.text ++ restText classes.later classes.final

/-- The pairs that are listed. -/
def PortClasses.pairs (classes : PortClasses) : List (Int32 × Bytes) :=
  (classes.first :: classes.later).flatMap ClassText.pairs

/-- The classes that are scanned: those up to the last one with several ports, or the first only. -/
def scanned : List ClassText → List ClassText
  | [] => []
  | c :: later => c :: if later.any fun other => !other.more.isEmpty then scanned later else []

theorem scanned_cons (c : ClassText) (later : List ClassText) : scanned (c :: later) =
    c :: if later.any fun other => !other.more.isEmpty then scanned later else [] := rfl

/-- The pairs of the classes that are scanned. -/
def PortClasses.scannedPairs (classes : PortClasses) : List (Int32 × Bytes) :=
  (scanned (classes.first :: classes.later)).flatMap ClassText.pairs

/-- Writes pairs into a map, a later one over an earlier one. -/
def addPairs (map : PortMap) (pairs : List (Int32 × Bytes)) : PortMap :=
  pairs.foldl (fun map pair => Function.update map pair.1 (some pair.2)) map

/-- The map of pairs, of which a later one wins. -/
def mapOf (pairs : List (Int32 × Bytes)) : PortMap := addPairs (fun _ => none) pairs

/-! ## The pieces of a well-formed value -/

/-- Every piece begins with a port. -/
def BeginPorts (text : Bytes) : Prop :=
  ∀ piece ∈ text.splitOn comma, ∃ (p : PortText) (rest : Bytes), piece = p.text ++ rest ∧
    ∀ c ∈ rest.head?, isDigit c = false

/-- Behind any port, every piece begins with one. -/
def Continues (text : Bytes) : Prop := ∀ p : PortText, BeginPorts (p.text ++ text)

/-- A part without a comma, then pieces that begin with ports or nothing. -/
theorem continues_part {part : Bytes} (fresh : comma ∉ part)
    (ends : ∀ c ∈ part.head?, isDigit c = false) : Continues part := by
  intro p piece member
  have none_ : comma ∉ p.text ++ part := by simp [fresh, p.comma_notMem]
  rw [List.splitOn_eq_singleton none_] at member
  exact ⟨p, part, List.mem_singleton.mp member, ends⟩

theorem continues_cons {text : Bytes} (begins : BeginPorts text) :
    Continues (comma :: text) := by
  intro p piece member
  rw [List.splitOn_append_cons_self_of_not_mem p.comma_notMem] at member
  rcases List.mem_cons.mp member with rfl | later
  · exact ⟨p, [], (List.append_nil _).symm, by simp⟩
  · exact begins piece later

theorem continues_append {part text : Bytes} (fresh : comma ∉ part) (some_ : part ≠ [])
    (ends : ∀ c ∈ part.head?, isDigit c = false) (begins : BeginPorts text) :
    Continues (part ++ text) := by
  intro p piece member
  have none_ : comma ∉ p.text ++ part := by simp [fresh, p.comma_notMem]
  obtain ⟨head, pieces, split⟩ := List.exists_cons_of_ne_nil (List.splitOn_ne_nil comma text)
  rw [← List.append_assoc, Separator.split_append none_, split, List.modifyHead_cons] at member
  rcases List.mem_cons.mp member with rfl | later
  · refine ⟨p, part ++ head, List.append_assoc _ _ _, ?_⟩
    rwa [List.head?_append_of_ne_nil part some_]
  · exact begins piece (split ▸ List.mem_cons_of_mem _ later)

/-- Every piece from the ports of a class on begins with a port. -/
theorem beginPorts_portsText (c : ClassText) {tail : Bytes} (continues : Continues tail) :
    BeginPorts (c.portsText ++ tail) := by
  have more : ∀ ports : List PortText,
      Continues (ports.flatMap (fun p => comma :: p.text) ++ tail) := by
    intro ports
    induction ports with
    | nil => exact continues
    | cons p ports ih =>
      rw [List.flatMap_cons, List.append_assoc, List.cons_append]
      exact continues_cons (ih p)
  rw [ClassText.portsText, List.append_assoc]
  exact more c.more c.first

theorem continues_restText (later : List ClassText) (final : Bool) :
    Continues (restText later final) := by
  induction later with
  | nil =>
    cases final with
    | false => exact @continues_part [] (by decide) (by simp)
    | true => exact @continues_part [semicolon] (by decide) (by simp [semicolon, isDigit])
  | cons c later ih =>
    have parts : restText (c :: later) final =
        (semicolon :: (c.className ++ [colon])) ++ (c.portsText ++ restText later final) := by
      simp [restText, ClassText.text]
    rw [parts]
    refine continues_append ?_ (List.cons_ne_nil _ _) ?_ (beginPorts_portsText c ih)
    · simp only [List.mem_cons, List.mem_append, List.not_mem_nil, or_false, not_or]
      exact ⟨by decide, c.noComma, by decide⟩
    · intro other same
      obtain rfl := Option.some.inj same
      decide

/-- A piece that begins with a port holds one. -/
theorem nonzero_of_beginPorts {text piece : Bytes} (begins : BeginPorts text)
    (member : piece ∈ text.splitOn comma) : atoi piece ≠ 0 := by
  obtain ⟨p, rest, rfl, ends⟩ := begins piece member
  rw [p.atoi_text ends]
  exact p.port_ne_zero

/-- The first piece of a well-formed value reads as the name of its first class. -/
theorem split_text (classes : PortClasses) : ∃ first pieces,
    classes.text.splitOn comma = first :: pieces ∧
      atoi first = atoi classes.first.className ∧ ∀ piece ∈ pieces, atoi piece ≠ 0 := by
  have begins := beginPorts_portsText classes.first
    (continues_restText classes.later classes.final)
  have parts : classes.text = (classes.first.className ++ [colon]) ++
      (classes.first.portsText ++ restText classes.later classes.final) := by
    simp [PortClasses.text, ClassText.text]
  have fresh : comma ∉ classes.first.className ++ [colon] := by
    simp only [List.mem_append, List.mem_singleton, not_or]
    exact ⟨classes.first.noComma, by decide⟩
  obtain ⟨head, pieces, split⟩ := List.exists_cons_of_ne_nil (List.splitOn_ne_nil comma
    (classes.first.portsText ++ restText classes.later classes.final))
  refine ⟨classes.first.className ++ colon :: head, pieces, ?_, ?_, fun piece member => ?_⟩
  · rw [parts, Separator.split_append fresh, split, List.modifyHead_cons, List.append_assoc,
      List.singleton_append]
  · exact atoi_append_stop ⟨by decide, by decide, by decide, by decide⟩ _ _
  · exact nonzero_of_beginPorts begins (split ▸ List.mem_cons_of_mem _ member)

/-- Every piece of a well-formed value holds a port if the name of its first class reads as one. -/
theorem allPorts_of_className (classes : PortClasses) (nonzero : atoi classes.first.className ≠ 0) :
    AllPorts classes.text := by
  obtain ⟨first, pieces, split, reads, later⟩ := split_text classes
  intro piece member
  rw [split] at member
  rcases List.mem_cons.mp member with rfl | member
  · exact reads ▸ nonzero
  · exact later piece member

/-! ## The scan of a well-formed value -/

theorem addPairs_append (map : PortMap) (front back : List (Int32 × Bytes)) :
    addPairs map (front ++ back) = addPairs (addPairs map front) back := List.foldl_append

theorem pass_none (className : Bytes) (pieces : List Bytes) (map : PortMap) :
    pass className 0 pieces map = .left map := by
  cases pieces <;> rfl

/--
The ports of a class go into the map, and the pass leaves the class if there is a comma behind it.
-/
theorem pass_ports (className : Bytes) {tail : Bytes}
    (ends : ∀ c ∈ tail.head?, isDigit c = false) (first : PortText) (more : List PortText)
    (map : PortMap) :
    pass className (first.text ++ more.flatMap fun p => comma :: p.text).length
        ((first.text ++ more.flatMap (fun p => comma :: p.text) ++ tail).splitOn comma) map =
      (if comma ∈ tail then Pass.left else Pass.wrapped)
        (addPairs map ((first :: more).map fun p => (p.port, className))) := by
  -- The induction is on the ports behind the first one; the last one is read up to what follows the
  -- class.
  have read : ∀ p : PortText, atoi p.text = p.port := fun p => by
    simpa using @PortText.atoi_text p [] (by simp)
  induction more generalizing first map with
  | nil =>
    have long : 0 < first.text.length :=
      List.length_pos_of_ne_nil (List.append_ne_nil_of_right_ne_nil _ first.digits_ne_nil)
    obtain ⟨limit, reach⟩ : ∃ n, first.text.length = n + 1 := ⟨first.text.length - 1, by omega⟩
    simp only [List.flatMap_nil, List.append_nil, reach]
    rw [Separator.split_append first.comma_notMem]
    rcases Separator.split_cases comma tail with ⟨fresh, split⟩ | ⟨piece, rest, rfl, fresh, split⟩
    · rw [split, List.modifyHead_cons, pass, first.atoi_text ends, if_neg first.port_ne_zero,
        if_pos rfl, if_neg fresh]
      rfl
    · have ends' : ∀ c ∈ piece.head?, isDigit c = false := by
        cases piece with
        | nil => simp
        | cons x piece => exact ends
      have within : limit - (first.text ++ piece).length = 0 := by
        rw [List.length_append]
        omega
      rw [split, List.modifyHead_cons, pass, first.atoi_text ends', if_neg first.port_ne_zero,
        if_neg (List.splitOn_ne_nil comma rest), within, pass_none, if_pos (by simp)]
      rfl
  | cons p more ih =>
    have parts : first.text ++ (p :: more).flatMap (fun p => comma :: p.text) ++ tail =
        first.text ++ comma :: (p.text ++ more.flatMap (fun p => comma :: p.text) ++ tail) := by
      simp
    have reach : (first.text ++ (p :: more).flatMap fun p => comma :: p.text).length =
        first.text.length + (p.text ++ more.flatMap fun p => comma :: p.text).length + 1 := by
      simp only [List.length_append, List.flatMap_cons, List.length_cons]
      omega
    have left : first.text.length + (p.text ++ more.flatMap fun p => comma :: p.text).length -
        first.text.length = (p.text ++ more.flatMap fun p => comma :: p.text).length := by omega
    rw [parts, reach, List.splitOn_append_cons_self_of_not_mem first.comma_notMem, pass, read,
      if_neg first.port_ne_zero, if_neg (List.splitOn_ne_nil comma _), left, ih]
    rfl

/-- A class of a well-formed value is a segment with a header. -/
theorem header_text (c : ClassText) : Header c.text c.className c.portsText :=
  ⟨rfl, c.noColon, c.named⟩

theorem semicolon_notMem_text (c : ClassText) : semicolon ∉ c.text := by
  simp only [ClassText.text, ClassText.portsText, List.mem_append, List.mem_cons, List.mem_flatMap,
    not_or, not_exists, not_and]
  exact ⟨c.noSemicolon, by decide, c.first.semicolon_notMem, fun p _ =>
    ⟨by decide, p.semicolon_notMem⟩⟩

theorem restText_cons (c : ClassText) (later : List ClassText) (final : Bool) :
    restText (c :: later) final = semicolon :: (c.text ++ restText later final) := by
  simp [restText]

/-- What follows a class begins with a semicolon. -/
theorem restText_cases (later : List ClassText) (final : Bool) :
    restText later final = [] ∨ ∃ rest, restText later final = semicolon :: rest := by
  cases later with
  | nil =>
    cases final with
    | false => exact Or.inl rfl
    | true => exact Or.inr ⟨[], rfl⟩
  | cons c later => exact Or.inr ⟨_, restText_cons c later final⟩

theorem exists_segment_text (c : ClassText) (later : List ClassText) (final : Bool) :
    ∃ segs, Segment (c.text ++ restText later final) c.text (restText later final) segs := by
  have fresh := semicolon_notMem_text c
  rcases restText_cases later final with none_ | ⟨rest, some_⟩
  · rw [none_]
    exact ⟨[], rfl, by rw [List.append_nil]; exact List.splitOn_eq_singleton fresh, fresh,
      Or.inl ⟨rfl, rfl⟩⟩
  · rw [some_]
    exact ⟨rest.splitOn semicolon, rfl, List.splitOn_append_cons_self_of_not_mem fresh rest, fresh,
      Or.inr ⟨rest, rfl, rfl⟩⟩

/-- There is a comma behind a class exactly if a later one has several ports. -/
theorem comma_mem_restText (later : List ClassText) (final : Bool) :
    comma ∈ restText later final ↔ (later.any fun other => !other.more.isEmpty) = true := by
  have commas : ∀ c : ClassText, comma ∈ c.text ↔ c.more ≠ [] := by
    intro c
    have differ : comma ≠ colon := by decide
    simp only [ClassText.text, ClassText.portsText, List.mem_append, List.mem_cons,
      List.mem_flatMap, c.noComma, differ, c.first.comma_notMem, false_or, true_or, and_true]
    exact ⟨fun ⟨_, member⟩ => List.ne_nil_of_mem member, List.exists_mem_of_ne_nil _⟩
  induction later with
  | nil => cases final <;> simp [restText, comma, semicolon]
  | cons c later ih =>
    have differ : comma ≠ semicolon := by decide
    have here : (!c.more.isEmpty) = true ↔ c.more ≠ [] := by simp
    rw [restText_cons, List.mem_cons, List.mem_append, or_iff_right differ, List.any_cons,
      Bool.or_eq_true, commas, here]
    exact or_congr_right ih

/-- From the beginning of a well-formed value the scan of ports returns, or it never ends. -/
theorem portsEnd_begin (classes : PortClasses) {className : Bytes} {curPos : Nat} {map : PortMap}
    {result : Bool × PortMap} (some_ : 0 < curPos)
    (outside : comma ∉ classes.text.drop (curPos - 1)) :
    PortsEnd classes.text className curPos 0 map result ↔
      atoi classes.first.className = 0 ∧ (false, map) = result := by
  -- The scan starts over at the first class, whose name is taken for a port.
  by_cases zero : atoi classes.first.className = 0
  · obtain ⟨first, pieces, split, reads, _⟩ := split_text classes
    rw [and_iff_right zero, portsEnd_iff_pass rfl, List.drop_zero, split, Nat.sub_zero,
      pass_zero (reads.trans zero) some_]
    rfl
  · have ports := allPorts_of_className classes zero
    refine iff_of_false ?_ fun both => zero both.1
    rintro ⟨fuel, done⟩
    rw [scanPorts_circles ports outside some_ some_ ports] at done
    exact absurd done (by simp)

section

variable (classes : PortClasses) {pos : Nat} (c : ClassText) {later : List ClassText}
  {map : PortMap}

/-- The ports of a class are scanned, and the scan leaves the class or begins anew. -/
theorem portsEnd_text
    (here : classes.text.drop pos = c.text ++ restText later classes.final)
    (result : Bool × PortMap) :
    PortsEnd classes.text c.className (pos + c.text.length) (pos + c.className.length + 1) map
        result ↔
      if comma ∈ restText later classes.final then (true, addPairs map c.pairs) = result
      else atoi classes.first.className = 0 ∧ (false, addPairs map c.pairs) = result := by
  obtain ⟨segs, segment⟩ := exists_segment_text c later classes.final
  rw [← here] at segment
  have behind := segment.drop_ports (header_text c)
  have long := (header_text c).length_eq
  have reach : pos + c.text.length - (pos + c.className.length + 1) = c.portsText.length := by omega
  have some_ : 0 < c.portsText.length :=
    List.length_pos_of_ne_nil (List.append_ne_nil_of_left_ne_nil
      (List.append_ne_nil_of_right_ne_nil _ c.first.digits_ne_nil) _)
  have ends : ∀ x ∈ (restText later classes.final).head?, isDigit x = false := by
    intro x first
    rcases restText_cases later classes.final with none_ | ⟨rest, some_⟩
    · rw [none_] at first
      exact absurd first (by simp)
    · rw [some_] at first
      obtain rfl := Option.some.inj first
      decide
  -- The pass through the ports is left at a comma, or it wraps.
  have outcome : pass c.className c.portsText.length
      ((c.portsText ++ restText later classes.final).splitOn comma) map = _ :=
    pass_ports c.className ends c.first c.more map
  have because : (pass c.className c.portsText.length
      ((c.portsText ++ restText later classes.final).splitOn comma) map).Because
        c.portsText.length (c.portsText ++ restText later classes.final) :=
    pass_because some_ (by simp)
  rw [portsEnd_iff_pass behind, reach]
  rw [outcome] at because ⊢
  split
  · rfl
  · next none_ =>
    rw [if_neg none_] at because
    refine portsEnd_begin classes (by omega) ?_
    have same : pos + c.text.length - 1 =
        pos + c.className.length + 1 + (c.portsText.length - 1) := by omega
    rw [same, ← List.drop_drop, behind]
    exact because.1

/-- Without a comma behind a class, the scan ends with it. -/
theorem classesEnd_last (le : pos ≤ classes.text.length)
    (here : classes.text.drop pos = c.text ++ restText later classes.final)
    (none_ : comma ∉ restText later classes.final) {result : PortMap} :
    ClassesEnd classes.text pos map result ↔
      atoi classes.first.className = 0 ∧ addPairs map c.pairs = result := by
  obtain ⟨segs, segment⟩ := exists_segment_text c later classes.final
  rw [← here] at segment
  rw [classesEnd_iff segment le (header_text c)]
  simp only [portsEnd_text classes c here, if_neg none_, Prod.mk.injEq]
  constructor
  · rintro ⟨_, _, ⟨zero, rfl, rfl⟩, same⟩
    exact ⟨zero, by simpa using same⟩
  · rintro ⟨zero, same⟩
    exact ⟨false, _, ⟨zero, rfl, rfl⟩, by simpa using same⟩

end

/-- With a comma behind a class, the scan goes on with the next one. -/
theorem classesEnd_behind (classes : PortClasses) {pos : Nat} (le : pos ≤ classes.text.length)
    (c : ClassText) {next : ClassText} {later : List ClassText}
    (here : classes.text.drop pos = c.text ++ restText (next :: later) classes.final)
    {map result : PortMap} (commas : comma ∈ restText (next :: later) classes.final) :
    classes.text.drop (pos + c.text.length + 1) = next.text ++ restText later classes.final ∧
      pos + c.text.length + 1 ≤ classes.text.length ∧
      (ClassesEnd classes.text pos map result ↔
        ClassesEnd classes.text (pos + c.text.length + 1) (addPairs map c.pairs) result) := by
  obtain ⟨segs, segment⟩ := exists_segment_text c (next :: later) classes.final
  rw [← here] at segment
  have long : 1 < (restText (next :: later) classes.final).length := by
    rw [restText_cons, ClassText.text]
    simp only [List.length_cons, List.length_append]
    omega
  have following := segment.drop_next
  rw [restText_cons, List.tail_cons] at following
  refine ⟨following, Nat.le_of_lt ((segment.next_iff le).mpr long), ?_⟩
  rw [classesEnd_iff segment le (header_text c)]
  simp only [portsEnd_text classes c here, if_pos commas, Prod.mk.injEq]
  -- The scan of the ports leaves the class, and so the next class is scanned.
  constructor
  · rintro ⟨_, _, ⟨rfl, rfl⟩, done⟩
    rwa [if_pos ⟨rfl, long⟩] at done
  · intro done
    exact ⟨true, _, ⟨rfl, rfl⟩, by rwa [if_pos ⟨rfl, long⟩]⟩

/-- The scan of the classes from one of them on. -/
theorem classesEnd_text (classes : PortClasses) {pos : Nat} (le : pos ≤ classes.text.length)
    (c : ClassText) (later : List ClassText)
    (here : classes.text.drop pos = c.text ++ restText later classes.final) {map result : PortMap} :
    ClassesEnd classes.text pos map result ↔ atoi classes.first.className = 0 ∧
      addPairs map ((scanned (c :: later)).flatMap ClassText.pairs) = result := by
  -- The induction is on the classes behind this one.
  induction later generalizing c pos map with
  | nil =>
    have none_ := mt (comma_mem_restText [] classes.final).mp (by simp)
    rw [classesEnd_last classes c le here none_]
    simp [scanned]
  | cons next later ih =>
    by_cases several : ((next :: later).any fun other => !other.more.isEmpty) = true
    · have commas := (comma_mem_restText (next :: later) classes.final).mpr several
      obtain ⟨further, below, following⟩ := classesEnd_behind classes le c here commas
      rw [following, ih below next further, scanned_cons c, if_pos several, List.flatMap_cons,
        addPairs_append]
    · have none_ := mt (comma_mem_restText (next :: later) classes.final).mp several
      rw [classesEnd_last classes c le here none_, scanned_cons, if_neg several]
      simp

/-- A well-formed value leaves the pairs of the scanned classes, unless the scan never ends. -/
theorem leaves_text_iff (classes : PortClasses) (map : PortMap) :
    Leaves classes.text map ↔
      atoi classes.first.className = 0 ∧ mapOf classes.scannedPairs = map := by
  have some_ : ¬ classes.text.length ≤ 0 := by
    rw [PortClasses.text, ClassText.text]
    simp only [List.length_cons, List.length_append]
    omega
  have same : Leaves classes.text map ↔ ClassesEnd classes.text 0 (fun _ => none) map := by
    simp only [Leaves, handleMonitorPortClass, if_neg some_, ClassesEnd]
  rw [same, classesEnd_text classes (Nat.zero_le _) classes.first classes.later rfl]
  rfl

/--
A well-formed value is scanned to an end exactly if the name of its first class reads as zero.
-/
theorem terminates_text_iff (classes : PortClasses) :
    Terminates classes.text ↔ atoi classes.first.className = 0 := by
  have same : Terminates classes.text ↔ ∃ map, Leaves classes.text map := by
    simp only [Terminates, Leaves, Option.isSome_iff_exists]
    exact exists_comm
  rw [same]
  simp only [leaves_text_iff]
  constructor
  · intro leaves
    obtain ⟨_, zero, _⟩ := leaves
    exact zero
  · intro zero
    exact ⟨_, zero, rfl⟩

/-- The function ends, and a well-formed value leaves all the pairs that it lists. -/
theorem configured_iff (value : Bytes) :
    (Terminates value ∧ ∀ classes : PortClasses, classes.text = value →
        Leaves value (mapOf classes.pairs)) ↔
      ¬ (RunsOut (value.splitOn semicolon) ∧ AllPorts value) ∧
        ∀ classes : PortClasses, classes.text = value →
          mapOf classes.scannedPairs = mapOf classes.pairs := by
  rw [terminates_iff]
  refine and_congr_right fun ends => forall_congr' fun classes => ?_
  refine forall_congr' fun same => ?_
  subst same
  rw [leaves_text_iff]
  exact and_iff_right ((terminates_text_iff classes).mp ((terminates_iff _).mpr ends))

/--
For every value, the function ends, and leaves the pairs of a well-formed one, exactly if the scan
does not come to a class with no comma behind it while every piece of the value holds a port, and
the classes that are not scanned add nothing to those that are.
-/
theorem handle_monitorPortClass_iff (value : Bytes) :
    (Terminates value ∧ ∀ classes : PortClasses, classes.text = value →
        Leaves value (mapOf classes.pairs)) ↔
      ¬ (RunsOut (value.splitOn semicolon) ∧ AllPorts value) ∧
        ∀ classes : PortClasses, classes.text = value →
          mapOf classes.scannedPairs = mapOf classes.pairs :=
  configured_iff value

/-- `SSProtocol:1433`. -/
def ssProtocol : ClassText where
  className := [83, 83, 80, 114, 111, 116, 111, 99, 111, 108]
  named := by decide
  noSemicolon := by decide
  noColon := by decide
  noComma := by decide
  first := ⟨false, [49, 52, 51, 51], by decide +kernel, by decide +kernel, by decide, by decide⟩
  more := []

/-- `PGProtocol:5432`. -/
def pgProtocol : ClassText where
  className := [80, 71, 80, 114, 111, 116, 111, 99, 111, 108]
  named := by decide
  noSemicolon := by decide
  noColon := by decide
  noComma := by decide
  first := ⟨false, [53, 52, 51, 50], by decide +kernel, by decide +kernel, by decide, by decide⟩
  more := []

/-- `1:2`. -/
def oneTwo : ClassText where
  className := [49]
  named := by decide
  noSemicolon := by decide
  noColon := by decide
  noComma := by decide
  first := ⟨false, [50], by decide +kernel, by decide +kernel, by decide, by decide⟩
  more := []

/-- The default value, `SSProtocol:1433;PGProtocol:5432;`. -/
def defaultClasses : PortClasses := ⟨ssProtocol, [pgProtocol], true⟩

/-- The default value loses its second class, and the value `1:2` is scanned for ever. -/
theorem default_loses_class :
    ¬ Leaves defaultClasses.text (mapOf defaultClasses.pairs) ∧
      ¬ Terminates (PortClasses.text ⟨oneTwo, [], false⟩) := by
  constructor
  · intro leaves
    have same := ((leaves_text_iff defaultClasses _).mp leaves).2
    have port := congrFun same 5432
    have lost : mapOf defaultClasses.scannedPairs 5432 = none := by decide +kernel
    have listed : (mapOf defaultClasses.pairs 5432).isSome := by decide +kernel
    rw [← port, lost] at listed
    exact absurd listed (by decide)
  · rw [terminates_text_iff]
    decide +kernel

end OneProxy.Config
