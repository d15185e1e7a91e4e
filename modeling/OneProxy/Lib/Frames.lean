import Mathlib.Data.List.Basic

/-! Values written as fixed-width frames into a stream, and read back from it in whole frames. -/

namespace Frames

/-- How a value is written as a frame of `width` symbols and read back from one. -/
structure Format (α β : Type*) where
  /-- The number of symbols in a frame. -/
  width : Nat
  /-- The symbols a value is written as. -/
  encode : α → List β
  /-- The value a frame is read as. -/
  decode : List β → α
  width_pos : 0 < width
  length_encode : ∀ a, (encode a).length = width
  decode_encode : ∀ a, decode (encode a) = a

variable {α β : Type*} (F : Format α β)

/-- The stream a list of values is written as. -/
def Format.encodeAll (values : List α) : List β := values.flatMap F.encode

/-- The first `count` frames of a stream. -/
def decodeFrames : Nat → List β → List α
  | 0, _ => []
  | count + 1, stream =>
    F.decode (stream.take F.width) :: decodeFrames count (stream.drop F.width)

/-- All the whole frames of a stream, in order, without an unfinished frame at its end. -/
def Format.decodeAll (stream : List β) : List α :=
  decodeFrames F (stream.length / F.width) stream

/-- A stream that holds whole frames only. -/
def Format.Aligned (stream : List β) : Prop := F.width ∣ stream.length

instance (stream : List β) : Decidable (F.Aligned stream) :=
  inferInstanceAs (Decidable (F.width ∣ stream.length))

/-- Nothing at all is a whole number of frames. -/
@[simp] theorem aligned_nil : F.Aligned ([] : List β) := Nat.dvd_zero _

/-- One frame is a whole number of frames. -/
@[simp] theorem aligned_encode (a : α) : F.Aligned (F.encode a) := by
  simp [Format.Aligned, F.length_encode]

/-- Whole frames followed by whole frames are whole frames. -/
theorem Format.Aligned.append {F : Format α β} {front back : List β}
    (frontAligned : F.Aligned front)
    (backAligned : F.Aligned back) : F.Aligned (front ++ back) := by
  simpa [Format.Aligned] using Nat.dvd_add frontAligned backAligned

/-- What is left of whole frames after whole frames are taken off is whole frames. -/
theorem Format.Aligned.of_append {F : Format α β} {front back : List β}
    (whole : F.Aligned (front ++ back)) (frontAligned : F.Aligned front) : F.Aligned back := by
  have total : F.width ∣ front.length + back.length := by simpa [Format.Aligned] using whole
  exact (Nat.dvd_add_right frontAligned).mp total

/-- An empty stream has no frame. -/
@[simp] theorem decodeAll_nil : F.decodeAll [] = [] := by
  simp [Format.decodeAll, decodeFrames]

/-- A stream with at least one frame starts with that frame. -/
theorem decodeAll_step {stream : List β} (enough : F.width ≤ stream.length) :
    F.decodeAll stream
      = F.decode (stream.take F.width) :: F.decodeAll (stream.drop F.width) := by
  -- Taking one frame off lowers the number of whole frames by exactly one.
  have count : stream.length / F.width = (stream.length - F.width) / F.width + 1 :=
    Nat.div_eq_sub_div F.width_pos enough
  simp only [Format.decodeAll, count, decodeFrames, List.length_drop]

/-- A frame written in front of a stream is the first one read. -/
@[simp] theorem decodeAll_encode_append (a : α) (stream : List β) :
    F.decodeAll (F.encode a ++ stream) = a :: F.decodeAll stream := by
  have enough : F.width ≤ (F.encode a ++ stream).length := by
    simp [F.length_encode]
  rw [decodeAll_step F enough]
  have front : (F.encode a ++ stream).take F.width = F.encode a :=
    List.take_left' (F.length_encode a)
  have back : (F.encode a ++ stream).drop F.width = stream :=
    List.drop_left' (F.length_encode a)
  rw [front, back, F.decode_encode]

/-- Whole frames are read off before what follows them. -/
theorem decodeAll_append {front : List β} (aligned : F.Aligned front) (back : List β) :
    F.decodeAll (front ++ back) = F.decodeAll front ++ F.decodeAll back := by
  -- The induction is on the number of frames in the front part.
  obtain ⟨count, size⟩ := aligned
  induction count generalizing front with
  | zero =>
    have none : front = [] := List.eq_nil_of_length_eq_zero (by simpa using size)
    simp [none]
  | succ count ih =>
    have enough : F.width ≤ front.length := by rw [size, Nat.mul_succ]; omega
    have enoughAll : F.width ≤ (front ++ back).length := by simp; omega
    have rest : (front.drop F.width).length = F.width * count := by
      rw [List.length_drop, size, Nat.mul_succ]; omega
    rw [decodeAll_step F enoughAll, decodeAll_step F enough,
      List.take_append_of_le_length enough, List.drop_append_of_le_length enough, ih rest,
      List.cons_append]

/-- What was written as frames is what is read back. -/
@[simp] theorem decodeAll_encodeAll (values : List α) :
    F.decodeAll (F.encodeAll values) = values := by
  induction values with
  | nil => simp [Format.encodeAll]
  | cons a values ih =>
    have split : F.encodeAll (a :: values) = F.encode a ++ F.encodeAll values := by
      simp [Format.encodeAll]
    rw [split, decodeAll_encode_append, ih]

/-- One more frame at the end of whole frames is one more value at the end. -/
theorem decodeAll_append_encode {stream : List β} (aligned : F.Aligned stream) (a : α) :
    F.decodeAll (stream ++ F.encode a) = F.decodeAll stream ++ [a] := by
  have last : F.decodeAll (F.encode a) = [a] := by
    simpa using decodeAll_encode_append F a []
  rw [decodeAll_append F aligned, last]

/--
However a written stream is cut into whole frames, the pieces read back the values in order.

Each piece is read on its own, so nothing is carried from one piece to the next.
-/
theorem decode_pieces {pieces : List (List β)} {values : List α}
    (cut : pieces.flatten = F.encodeAll values) (aligned : ∀ piece ∈ pieces, F.Aligned piece) :
    pieces.flatMap F.decodeAll = values := by
  -- Reading whole frames distributes over the pieces, and the pieces make up the stream.
  have whole : F.decodeAll pieces.flatten = pieces.flatMap F.decodeAll := by
    clear cut
    induction pieces with
    | nil => simp
    | cons piece pieces ih =>
      have rest := ih fun other member => aligned other (by simp [member])
      rw [List.flatten_cons, decodeAll_append F (aligned piece (by simp)), rest,
        List.flatMap_cons]
  rw [← whole, cut, decodeAll_encodeAll]

end Frames
