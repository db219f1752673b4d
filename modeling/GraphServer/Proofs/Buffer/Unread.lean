import GraphServer.Proofs.Buffer.Square

/-!
The unread bytes of a buffer as a queue: writing appends to them, reading takes from their front.

* `Buffer.exists_write`: a live buffer takes what its limit leaves room for, growing if it must;
* `Buffer.unread_write`: what was written is appended to the unread bytes;
* `Buffer.read_append`: reading takes the front of the unread bytes and leaves the rest.
-/

namespace GraphServer.Buffer

variable {b : Buffer} {pool : Pool}

/-- The bytes between the positions. -/
def unread (b : Buffer) : Bytes :=
  b.span b.reader b.readable

/-- The position that writing can reach. -/
def limit (b : Buffer) : Nat :=
  match b.growth with
  | .fixed => b.capacity
  | .growable maximum => max b.capacity maximum

/-- A live buffer that can take so many bytes. -/
structure HasRoom (b : Buffer) (length : Nat) : Prop where
  live : b.references ≠ 0
  le_limit : b.writer + length ≤ b.limit

lemma capacity_le_limit (b : Buffer) : b.capacity ≤ b.limit := by
  rw [limit]
  split
  · exact le_rfl
  · exact le_max_left _ _

@[simp] lemma length_unread (b : Buffer) : b.unread.length = b.readable := by
  have hw := b.writer_le
  have hcap := b.capacity_eq_length
  rw [unread, span_eq_flat, FlatBuffer.span, List.length_take, List.length_drop, readable]
  omega

/-! ### Writing -/

lemma exists_reserve {length : Nat} (h : b.HasRoom length) (pool : Pool) :
    ∃ b' pool', b.reserve pool length = .ok (b', pool') := by
  rw [reserve, ensureLive, if_neg h.live]
  change ∃ b' pool', (if b.writer + length ≤ b.capacity then _ else _) = Except.ok (b', pool')
  by_cases hfits : b.writer + length ≤ b.capacity
  · rw [if_pos hfits]
    exact ⟨b, pool, rfl⟩
  rw [if_neg hfits]
  have hle := h.le_limit
  rw [limit] at hle
  cases hg : b.growth with
  | fixed =>
    rw [hg] at hle
    exact absurd hle hfits
  | growable maximum =>
    rw [hg] at hle
    change ∃ b' pool', (if maximum < b.writer + length then _ else _) = Except.ok (b', pool')
    have hmax : ¬maximum < b.writer + length := by
      simp only [le_max_iff] at hle
      omega
    rw [if_neg hmax]
    exact ⟨_, _, rfl⟩

/-- A live buffer takes what its limit leaves room for. -/
lemma exists_write {bytes : Bytes} (h : b.HasRoom bytes.length) (pool : Pool) :
    ∃ b' pool', b.write pool bytes = .ok (b', pool') := by
  obtain ⟨b', pool', hr⟩ := exists_reserve h pool
  exact ⟨b'.fill bytes, pool', by rw [write, hr]; rfl⟩

/-- What making room leaves as it was. -/
structure Extends (b b' : Buffer) : Prop where
  segments_eq : ∃ more, b'.segments = b.segments ++ more
  reader_eq : b'.reader = b.reader
  writer_eq : b'.writer = b.writer
  references_eq : b'.references = b.references
  limit_le : b.limit ≤ b'.limit

lemma reserve_extends {length : Nat} {b' : Buffer} {pool' : Pool}
    (h : b.reserve pool length = .ok (b', pool')) : b.Extends b' := by
  obtain ⟨-, ⟨-, rfl, rfl⟩ | ⟨maximum, hg, -, -, rfl, rfl⟩⟩ := reserve_cases h
  · exact ⟨⟨[], (List.append_nil _).symm⟩, rfl, rfl, rfl, le_rfl⟩
  · refine ⟨⟨_, rfl⟩, rfl, rfl, rfl, ?_⟩
    simp only [limit, addSegment, hg]
    exact max_le_max (Nat.le_add_right _ _) le_rfl

/-- What writing changes: the bytes are appended to the unread ones and the writing position moves past
them. -/
structure Wrote (b : Buffer) (pool : Pool) (bytes : Bytes) (b' : Buffer) (pool' : Pool) : Prop where
  unread_eq : b'.unread = b.unread ++ bytes
  reader_eq : b'.reader = b.reader
  writer_eq : b'.writer = b.writer + bytes.length
  references_eq : b'.references = b.references
  limit_le : b.limit ≤ b'.limit
  sound : pool'.Sound

/-- The unread bytes after a span at the writing position was replaced. -/
lemma unread_fill {bytes : Bytes} (h : bytes.length ≤ b.writable) :
    (b.fill bytes).unread = b.unread ++ bytes := by
  have hflat := flat_fill h
  have hr := b.reader_le
  have hw := b.writer_le
  have hcap := b.capacity_eq_length
  rw [writable] at h
  have hreader : (b.fill bytes).reader = b.reader := rfl
  have hwriter : (b.fill bytes).writer = b.writer + bytes.length := congrArg FlatBuffer.writer hflat
  have hbytes : (b.fill bytes).flat.bytes = place b.flat.bytes b.writer bytes := congrArg FlatBuffer.bytes hflat
  rw [unread, unread, span_eq_flat, span_eq_flat, FlatBuffer.span, FlatBuffer.span, hbytes, readable, readable,
    hreader, hwriter, place]
  have hlen : (b.flat.bytes.take b.writer).length = b.writer := by
    rw [List.length_take]
    omega
  have hwhole : ((b.flat.bytes.drop b.reader).take (b.writer - b.reader)).length ≤
      b.writer + bytes.length - b.reader := by
    rw [List.length_take]
    omega
  have hrest : b.writer + bytes.length - b.reader - (b.writer - b.reader) = bytes.length := by omega
  rw [List.append_assoc, List.drop_append_of_le_length (by omega), List.drop_take, List.take_append,
    List.take_of_length_le hwhole, List.length_take, List.length_drop, min_eq_left (by omega), hrest,
    List.take_left' rfl]

/-- Segments at the end do not show in the unread bytes. -/
lemma Extends.unread_eq {b' : Buffer} (h : b.Extends b') : b'.unread = b.unread := by
  obtain ⟨more, hmore⟩ := h.segments_eq
  have hr := b.reader_le
  have hw := b.writer_le
  have hcap := b.capacity_eq_length
  have hbytes : b'.flat.bytes = b.flat.bytes ++ more.flatten := by
    rw [flat, hmore, List.flatten_append]
    rfl
  have hlen : b.writer - b.reader ≤ (b.flat.bytes.drop b.reader).length := by
    rw [List.length_drop]
    omega
  rw [unread, unread, span_eq_flat, span_eq_flat, FlatBuffer.span, FlatBuffer.span, readable, readable,
    h.reader_eq, h.writer_eq, hbytes, List.drop_append_of_le_length (by omega),
    List.take_append_of_le_length hlen]

lemma write_spec (hp : pool.Sound) {bytes : Bytes} {b' : Buffer} {pool' : Pool}
    (h : b.write pool bytes = .ok (b', pool')) : b.Wrote pool bytes b' pool' := by
  unfold write at h
  cases hr : b.reserve pool bytes.length with
  | error e =>
    rw [hr] at h
    cases h
  | ok r =>
    obtain ⟨b₁, pool₁⟩ := r
    rw [hr] at h
    obtain ⟨rfl, rfl⟩ := Prod.mk.inj (Except.ok.inj h)
    have ext := reserve_extends hr
    have spec := reserve_eq_ok hp hr
    exact {
      unread_eq := by rw [unread_fill spec.room, ext.unread_eq]
      reader_eq := ext.reader_eq
      writer_eq := by
        have := congrArg FlatBuffer.writer (flat_fill spec.room)
        exact this.trans (by rw [ext.writer_eq])
      references_eq := ext.references_eq
      limit_le := ext.limit_le
      sound := spec.sound }

/-! ### Reading -/

lemma ensureReadable_of_le {op : BufferOp} {length : Nat} (live : b.references ≠ 0) (h : length ≤ b.readable) :
    b.ensureReadable op length = .ok () := by
  rw [ensureReadable, ensureLive, if_neg live]
  exact if_pos h

/-- The unread bytes after some were passed over. -/
lemma unread_advance {length : Nat} (h : length ≤ b.readable) :
    (b.advance length).unread = b.unread.drop length := by
  have hflat := flat_advance h
  have hr := b.reader_le
  have hreader : (b.advance length).reader = b.reader + length := congrArg FlatBuffer.reader hflat
  have hwriter : (b.advance length).writer = b.writer := rfl
  have hspan (i n : Nat) : (b.advance length).span i n = b.span i n := rfl
  rw [unread, unread, hspan, span_eq_flat, span_eq_flat, FlatBuffer.span, FlatBuffer.span, hreader, readable,
    readable, hreader, hwriter, List.drop_take, List.drop_drop]
  congr 1
  omega

/-- Reading takes the front of the unread bytes and leaves the rest. -/
lemma read_append (live : b.references ≠ 0) {front rest : Bytes} (h : b.unread = front ++ rest) (op : BufferOp) :
    b.read op front.length = .ok (front, b.advance front.length) ∧
      (b.advance front.length).unread = rest := by
  have hle : front.length ≤ b.readable := by
    rw [← length_unread, h, List.length_append]
    exact Nat.le_add_right _ _
  have hspan : b.span b.reader front.length = front := by
    have htake : b.span b.reader front.length = b.unread.take front.length := by
      rw [unread, span_eq_flat, span_eq_flat, FlatBuffer.span, FlatBuffer.span, List.take_take, min_eq_left hle]
    rw [htake, h, List.take_left']
    rfl
  constructor
  · rw [read, ensureReadable_of_le live hle]
    change Except.ok _ = _
    rw [hspan]
  · rw [unread_advance hle, h, List.drop_left']
    rfl

end GraphServer.Buffer
