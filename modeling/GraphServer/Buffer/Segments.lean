import GraphServer.Bytes

/-!
One run of bytes kept in several segments.

The flat run is the concatenation of the segments (`List.flatten`). `slices` cuts a span of the run out
as the pieces that lie in one segment each, and `overwrite` replaces a span in place; neither depends on
how the run is cut except in where the pieces end:

* `flatten_slices`: the pieces join to the span of the flat run;
* `flatten_overwrite` and `map_length_overwrite`: the flat run changes in the span alone, and every
  segment keeps its length.
-/

namespace GraphServer

/-- The number of bytes of all segments. -/
def totalLength : List Bytes → Nat
  | [] => 0
  | s :: rest => s.length + totalLength rest

theorem totalLength_eq (segments : List Bytes) : totalLength segments = segments.flatten.length := by
  induction segments with
  | nil => rfl
  | cons s rest ih => rw [totalLength, ih, List.flatten_cons, List.length_append]

/-- The pieces of the span of `length` bytes from `index`, one for each segment that it meets. -/
def slices : List Bytes → (index length : Nat) → List Bytes
  | [], _, _ => []
  | s :: rest, index, length =>
    if length = 0 then []
    else if s.length ≤ index then slices rest (index - s.length) length
    else
      let piece := (s.drop index).take length
      piece :: slices rest 0 (length - piece.length)

/-- Replaces the bytes from `index` on by `source`, as far as the segments reach. -/
def overwrite : List Bytes → (index : Nat) → (source : Bytes) → List Bytes
  | [], _, _ => []
  | s :: rest, index, source =>
    if source.isEmpty then s :: rest
    else if s.length ≤ index then s :: overwrite rest (index - s.length) source
    else
      let room := s.length - index
      (s.take index ++ source.take room ++ s.drop (index + source.length))
        :: overwrite rest 0 (source.drop room)

/-- The pieces join to the span of the flat run. -/
theorem flatten_slices (segments : List Bytes) (index length : Nat) :
    (slices segments index length).flatten = (segments.flatten.drop index).take length := by
  induction segments generalizing index length with
  | nil => simp [slices]
  | cons s rest ih =>
    rw [slices]
    split
    · simp_all
    · split
      · rename_i h
        rw [ih, List.flatten_cons, List.drop_append, List.drop_eq_nil_of_le h, List.nil_append]
      · rename_i h
        have hi : index - s.length = 0 := by omega
        have hlen : length - ((s.drop index).take length).length = length - (s.length - index) := by
          have := List.length_take (i := length) (l := s.drop index)
          have := List.length_drop (i := index) (l := s)
          omega
        show ((s.drop index).take length :: slices rest 0 _).flatten = _
        rw [List.flatten_cons, ih, List.drop_zero, hlen, List.flatten_cons, List.drop_append, hi,
          List.drop_zero, List.take_append, List.length_drop]

/-- Overwriting keeps the length of every segment. -/
theorem map_length_overwrite (segments : List Bytes) (index : Nat) (source : Bytes) :
    (overwrite segments index source).map List.length = segments.map List.length := by
  induction segments generalizing index source with
  | nil => simp [overwrite]
  | cons s rest ih =>
    rw [overwrite]
    split
    · rfl
    · split
      · simp [ih]
      · simp only [List.map_cons, ih, List.length_append, List.length_take, List.length_drop]
        congr 1
        omega

theorem totalLength_overwrite (segments : List Bytes) (index : Nat) (source : Bytes) :
    totalLength (overwrite segments index source) = totalLength segments := by
  rw [totalLength_eq, totalLength_eq, List.length_flatten, map_length_overwrite, List.length_flatten]

/-- The flat run after overwriting a span that lies within it. -/
theorem flatten_overwrite (segments : List Bytes) (index : Nat) (source : Bytes)
    (h : index + source.length ≤ segments.flatten.length) :
    (overwrite segments index source).flatten =
      segments.flatten.take index ++ source ++ segments.flatten.drop (index + source.length) := by
  induction segments generalizing index source with
  | nil =>
    obtain rfl : source = [] := by
      cases source with
      | nil => rfl
      | cons b bs => simp at h
    simp [overwrite]
  | cons s rest ih =>
    simp only [List.flatten_cons, List.length_append] at h
    rw [overwrite]
    split
    · rename_i hs
      simp only [List.isEmpty_iff] at hs
      simp [hs]
    · split
      · rename_i hle
        have hi := ih (index - s.length) source (by omega)
        simp only [List.flatten_cons, hi, List.take_append, List.drop_append,
          List.take_of_length_le hle,
          List.drop_eq_nil_of_le (show s.length ≤ index + source.length by omega)]
        simp [Nat.sub_add_comm hle]
      · rename_i hlt
        have hi := ih 0 (source.drop (s.length - index)) (by rw [List.length_drop]; omega)
        simp only [List.flatten_cons, hi, List.take_append, List.drop_append, List.take_zero,
          List.nil_append, Nat.zero_add, List.length_drop,
          Nat.sub_eq_zero_of_le (Nat.le_of_lt (Nat.lt_of_not_le hlt)), List.append_nil]
        by_cases hroom : source.length ≤ s.length - index
        · rw [List.take_of_length_le hroom, List.drop_eq_nil_of_le hroom]
          simp [Nat.sub_eq_zero_of_le hroom, Nat.sub_eq_zero_of_le (show index + source.length ≤ s.length by omega)]
        · rw [List.drop_eq_nil_of_le (show s.length ≤ index + source.length by omega)]
          rw [show index + source.length - s.length = source.length - (s.length - index) by omega]
          simp only [List.append_assoc, List.append_nil, List.nil_append]
          rw [← List.append_assoc (source.take _), List.take_append_drop]

end GraphServer
