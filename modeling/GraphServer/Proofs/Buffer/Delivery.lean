import GraphServer.Proofs.Buffer.Typed

/-!
Copying from a buffer to a sink that takes what it likes: which bytes it gets, and how far the reading position
moves.

* `Sink.writeAll_short`: a sink that fails has not taken the piece whole;
* `Buffer.copyPieces_advances`: the reading position passes the pieces that were taken whole, by induction on the
  pieces;
* `Buffer.readTo_delivers`: **the sink gets the next bytes in order, and those of whole pieces are read**;
* `Buffer.readTo_repeats`: a byte may have been delivered and still be unread.
-/

namespace GraphServer

/-! ### One piece -/

namespace Sink

variable {sink : Sink}

/-- A sink fails before the end of what it is offered. -/
lemma offer_short (sink : Sink) (offers : Nat) (taken piece : Bytes) (e : BufferError)
    (h : (sink.offer offers taken piece).2 = some e) :
    (sink.offer offers taken piece).1.length < taken.length + piece.length := by
  induction offers generalizing taken piece with
  | zero => cases h
  | succ offers ih =>
    rw [offer] at h ⊢
    split at h
    next => cases h
    next nonempty =>
      have hpos : 0 < piece.length := by
        rw [List.isEmpty_iff] at nonempty
        exact List.length_pos_of_ne_nil nonempty
      rw [if_neg nonempty]
      split at h
      · dsimp only
        omega
      · dsimp only
        omega
      next n _ _ =>
        have short := ih (taken ++ piece.take n) (piece.drop n) h
        rw [← List.length_append, List.append_assoc, List.take_append_drop, List.length_append] at short
        exact short

lemma writeAll_short {taken piece taken' : Bytes} {e : BufferError}
    (h : sink.writeAll taken piece = (taken', some e)) : taken'.length < taken.length + piece.length := by
  have short := sink.offer_short piece.length taken piece e (congrArg Prod.snd h)
  rwa [show sink.offer piece.length taken piece = (taken', some e) from h] at short

end Sink

/-! ### Pieces in a row -/

/-- How many of the first `n` bytes of pieces in a row are in pieces that lie among them as a whole. -/
def wholePieces : List Bytes → (n : Nat) → Nat
  | [], _ => 0
  | piece :: rest, n => if piece.length ≤ n then piece.length + wholePieces rest (n - piece.length) else 0

lemma wholePieces_le (pieces : List Bytes) (n : Nat) : wholePieces pieces n ≤ n := by
  induction pieces generalizing n with
  | nil => exact Nat.zero_le n
  | cons piece rest ih =>
    have hrest := ih (n - piece.length)
    rw [wholePieces]
    split <;> omega

/-- All of the bytes are in whole pieces just where a piece ends. -/
lemma wholePieces_eq_iff {pieces : List Bytes} {n : Nat} :
    wholePieces pieces n = n ↔ ∃ front, front <+: pieces ∧ front.flatten.length = n := by
  induction pieces generalizing n with
  | nil =>
    constructor
    · intro h
      exact ⟨[], List.prefix_refl [], h⟩
    · rintro ⟨front, hfront, rfl⟩
      rw [List.prefix_nil.mp hfront]
      rfl
  | cons piece rest ih =>
    constructor
    · intro h
      rw [wholePieces] at h
      split at h
      · obtain ⟨front, hfront, hlen⟩ := ih.mp (show wholePieces rest (n - piece.length) = n - piece.length by omega)
        refine ⟨piece :: front, List.prefix_cons_inj piece |>.mpr hfront, ?_⟩
        rw [List.flatten_cons, List.length_append]
        omega
      · exact ⟨[], List.nil_prefix, h⟩
    · rintro ⟨front, hfront, rfl⟩
      cases front with
      | nil => exact Nat.le_zero.mp (wholePieces_le _ _)
      | cons first front =>
        obtain ⟨rfl, hrest⟩ := List.cons_prefix_cons.mp hfront
        have hwhole := ih.mpr ⟨front, hrest, rfl⟩
        rw [List.flatten_cons, List.length_append, wholePieces, if_pos (Nat.le_add_right _ _),
          Nat.add_sub_cancel_left, hwhole]

namespace Buffer

variable {b : Buffer} {sink : Sink} {length : Nat}

lemma advance_zero (b : Buffer) : b.advance 0 = b := by
  have hmin : min (b.reader + 0) b.writer = b.reader := Nat.min_eq_left b.reader_le
  simp only [advance, hmin]

lemma advance_advance (b : Buffer) (m n : Nat) : (b.advance m).advance n = b.advance (m + n) := by
  have hmin : min (min (b.reader + m) b.writer + n) b.writer = min (b.reader + (m + n)) b.writer := by omega
  simp only [advance, hmin]

/-- How far copying pieces came: past those that the sink took whole, and past no part of another one. -/
structure Advances (b : Buffer) (taken : Bytes) (pieces : List Bytes) (r : Buffer × Bytes × Option BufferError) :
    Prop where
  le_taken : taken.length ≤ r.2.1.length
  buffer_eq : r.1 = b.advance (wholePieces pieces (r.2.1.length - taken.length))
  short : ∀ e, r.2.2 = some e → r.2.1.length < taken.length + pieces.flatten.length

lemma copyPieces_advances (sink : Sink) (b : Buffer) (taken : Bytes) (pieces : List Bytes) :
    b.Advances taken pieces (copyPieces sink b taken pieces) := by
  induction pieces generalizing b taken with
  | nil => exact ⟨le_rfl, b.advance_zero.symm, nofun⟩
  | cons piece rest ih =>
    rw [copyPieces]
    have hoffer := sink.writeAll_spec taken piece
    split
    next taken' e hw =>
      rw [hw] at hoffer
      have hfrom : taken.length ≤ taken'.length := (hoffer.broken e rfl).2.1.length_le
      have hshort := Sink.writeAll_short hw
      -- part of the piece may be taken, but the reading position counts whole pieces only
      have cut : ¬piece.length ≤ taken'.length - taken.length := by omega
      refine ⟨hfrom, ?_, fun _ _ => ?_⟩
      · rw [wholePieces, if_neg cut, advance_zero]
      · rw [List.flatten_cons, List.length_append]
        dsimp only
        omega
    next taken' hw =>
      rw [hw] at hoffer
      obtain rfl : taken' = taken ++ piece := hoffer.whole rfl
      obtain ⟨hle, heq, hshort⟩ := ih (b.advance piece.length) (taken ++ piece)
      rw [List.length_append] at hle heq
      refine ⟨by omega, ?_, fun e he => ?_⟩
      · rw [heq, advance_advance, wholePieces, if_pos (by omega), Nat.sub_sub]
      · have := hshort e he
        rw [List.length_append] at this
        rw [List.flatten_cons, List.length_append]
        omega

/-! ### Reading into a sink -/

/-- What copying `length` bytes to a sink comes to. Too long a span is refused, and nothing is taken. Otherwise the
sink gets the first of the unread bytes, as many as it took, and fails unless these are all; the reading position
passes those of them that are in pieces which the sink took whole. -/
structure Delivers (b : Buffer) (sink : Sink) (length : Nat) (r : Buffer × Bytes × Option BufferError) : Prop where
  refused : b.readable < length → r = (b, [], some (.outOfBounds .readBytesTo b.reader length b.writer))
  taken_eq : length ≤ b.readable → r.2.1 = b.unread.take r.2.1.length
  taken_le : r.2.1.length ≤ length
  complete_iff : length ≤ b.readable → (r.2.2 = none ↔ r.2.1.length = length)
  failed : length ≤ b.readable → r.2.2 = none ∨ ∃ text, r.2.2 = some (.io text)
  buffer_eq : length ≤ b.readable →
    r.1 = b.advance (wholePieces (slices b.segments b.reader length) r.2.1.length)
  none_skipped : r.1.reader ≤ b.reader + r.2.1.length
  none_repeated_iff : length ≤ b.readable → (r.1.reader = b.reader + r.2.1.length ↔
    ∃ front, front <+: slices b.segments b.reader length ∧ front.flatten.length = r.2.1.length)

lemma ensureReadable_of_lt {op : BufferOp} (live : b.references ≠ 0) (h : b.readable < length) :
    b.ensureReadable op length = .error (.outOfBounds op b.reader length b.writer) := by
  rw [ensureReadable, ensureLive, if_neg live]
  exact if_neg (not_le.mpr h)

lemma readTo_of_lt (live : b.references ≠ 0) (sink : Sink) (h : b.readable < length) :
    b.readTo sink length = (b, [], some (.outOfBounds .readBytesTo b.reader length b.writer)) := by
  rw [readTo, ensureReadable_of_lt live h]

/-- The next bytes, whichever way they are cut. -/
lemma flatten_slices_eq_take (h : length ≤ b.readable) :
    (slices b.segments b.reader length).flatten = b.unread.take length := by
  rw [unread, span_eq_flat, FlatBuffer.span, List.take_take, min_eq_left h]
  exact flatten_slices b.segments b.reader length

lemma length_slices (h : length ≤ b.readable) : (slices b.segments b.reader length).flatten.length = length := by
  rw [flatten_slices_eq_take h, List.length_take, length_unread, min_eq_left h]

/-- What reading into a sink comes to when there is enough to read: `Copied` says which bytes, `Advances` how far. -/
lemma readTo_copies (live : b.references ≠ 0) (sink : Sink) (h : length ≤ b.readable) :
    b.Copied [] (b.unread.take length) (b.readTo sink length) ∧
      b.Advances [] (slices b.segments b.reader length) (b.readTo sink length) := by
  have hread : b.readTo sink length = copyPieces sink b [] (slices b.segments b.reader length) := by
    rw [readTo, ensureReadable_of_le live h]
  rw [hread, ← flatten_slices_eq_take h]
  exact ⟨copyPieces_spec sink b [] _ ((length_slices h).trans_le h), copyPieces_advances sink b [] _⟩

variable {bytes : Bytes} {pieces : List Bytes} {r : Buffer × Bytes × Option BufferError}

/-- Only the front of what there is to copy is taken. -/
lemma Copied.taken_prefix (h : b.Copied [] bytes r) : r.2.1 <+: bytes := by
  cases herror : r.2.2 with
  | none =>
    rw [(h.whole herror).1]
    exact List.prefix_refl bytes
  | some e => exact (h.broken e herror).2.2.1

lemma Copied.failed (h : b.Copied [] bytes r) : r.2.2 = none ∨ ∃ text, r.2.2 = some (.io text) := by
  cases herror : r.2.2 with
  | none => exact .inl rfl
  | some e =>
    obtain ⟨text, rfl⟩ := (h.broken e herror).1
    exact .inr ⟨text, rfl⟩

/-- The copying is complete just if everything was taken: a sink that fails has not taken the last piece whole. -/
lemma Copied.complete_iff (h : b.Copied [] bytes r) (advances : b.Advances [] pieces r)
    (hlen : bytes.length = pieces.flatten.length) : r.2.2 = none ↔ r.2.1.length = bytes.length := by
  constructor
  · intro hnone
    rw [(h.whole hnone).1, List.nil_append]
  · intro hall
    by_contra hsome
    obtain ⟨e, he⟩ := Option.ne_none_iff_exists'.mp hsome
    have hshort := advances.short e he
    rw [List.length_nil, Nat.zero_add] at hshort
    omega

/-- The reading position passes the pieces that were taken whole. -/
lemma Advances.reader_eq (h : b.Advances [] pieces r) (hle : r.2.1.length ≤ b.readable) :
    r.1.reader = b.reader + wholePieces pieces r.2.1.length := by
  have hwhole := wholePieces_le pieces r.2.1.length
  have hr := b.reader_le
  rw [readable] at hle
  rw [h.buffer_eq]
  exact min_eq_left (by rw [List.length_nil, Nat.sub_zero]; omega)

/-- **What a sink gets and what is read then.** However the buffer is cut into segments and whatever the sink takes
of each offer and wherever it fails, the bytes that it took are the next ones in order. All of them are read on
success. On a failure those of the pieces that it took whole are read, so that none is skipped, and none of them is
both delivered and still unread just if the sink failed between two pieces. -/
theorem readTo_delivers (live : b.references ≠ 0) (sink : Sink) (length : Nat) :
    b.Delivers sink length (b.readTo sink length) := by
  by_cases hlen : length ≤ b.readable
  · obtain ⟨copied, advances⟩ := readTo_copies live sink hlen
    generalize b.readTo sink length = r at copied advances
    have hbytes : (b.unread.take length).length = length := by
      rw [List.length_take, length_unread, min_eq_left hlen]
    have hle : r.2.1.length ≤ length := hbytes ▸ copied.taken_prefix.length_le
    have hreader := advances.reader_eq (hle.trans hlen)
    have hwhole := wholePieces_le (slices b.segments b.reader length) r.2.1.length
    have hcomplete := copied.complete_iff advances (hbytes.trans (length_slices hlen).symm)
    rw [hbytes] at hcomplete
    exact {
      refused := fun h => absurd hlen (not_le.mpr h)
      taken_eq := fun _ => List.prefix_iff_eq_take.mp (copied.taken_prefix.trans (List.take_prefix _ _))
      taken_le := hle
      complete_iff := fun _ => hcomplete
      failed := fun _ => copied.failed
      buffer_eq := fun _ => advances.buffer_eq
      none_skipped := by omega
      none_repeated_iff := fun _ => by rw [hreader, Nat.add_left_cancel_iff, wholePieces_eq_iff] }
  · rw [readTo_of_lt live sink (not_le.mp hlen)]
    exact {
      refused := fun _ => rfl
      taken_eq := fun h => absurd h hlen
      taken_le := Nat.zero_le length
      complete_iff := fun h => absurd h hlen
      failed := fun h => absurd h hlen
      buffer_eq := fun h => absurd h hlen
      none_skipped := le_rfl
      none_repeated_iff := fun h => absurd h hlen }

/-- Five bytes in two segments, to a sink that takes two bytes of an offer and three in all: it gets a byte of the
second segment, which stays unread with the rest of it. -/
theorem readTo_delivers_twoSegments :
    (wrapSegments [[1, 2], [3, 4, 5]]).references ≠ 0 ∧
      (wrapSegments [[1, 2], [3, 4, 5]]).Delivers (Sink.limited "closed" 3 2 false) 5
        ((wrapSegments [[1, 2], [3, 4, 5]]).readTo (Sink.limited "closed" 3 2 false) 5) ∧
      ((wrapSegments [[1, 2], [3, 4, 5]]).readTo (Sink.limited "closed" 3 2 false) 5).2.1 = [1, 2, 3] ∧
      ((wrapSegments [[1, 2], [3, 4, 5]]).readTo (Sink.limited "closed" 3 2 false) 5).1.reader = 2 :=
  ⟨by decide, readTo_delivers (by decide) _ _, by decide, by decide⟩

/-- **A delivered byte may be unread**: a sink that takes one byte of a piece of three and fails has that byte, and
the next reading starts with it again. -/
theorem readTo_repeats :
    (wrap [120, 121, 122]).references ≠ 0 ∧
      ((wrap [120, 121, 122]).readTo (Sink.limited "closed" 1 1 false) 3).2 = ([120], some (.io "closed")) ∧
      ((wrap [120, 121, 122]).readTo (Sink.limited "closed" 1 1 false) 3).1.unread = [120, 121, 122] ∧
      ¬((wrap [120, 121, 122]).readTo (Sink.limited "closed" 1 1 false) 3).1.reader =
        (wrap [120, 121, 122]).reader +
          ((wrap [120, 121, 122]).readTo (Sink.limited "closed" 1 1 false) 3).2.1.length := by
  decide

end Buffer

end GraphServer
