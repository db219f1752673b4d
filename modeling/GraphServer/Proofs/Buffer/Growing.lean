import GraphServer.Proofs.Buffer.History

/-!
How far growable buffers grow.

A buffer of its own takes on no more than what is left to its maximum. A buffer over a pool takes on whole
segments, the first of them before anything is written, and only what is written is held against the maximum: its
capacity can come to lie above the maximum, by less than a segment once it has grown, and the room there is
written like the rest.

* `Buffer.apply_stretches`: an operation keeps the capacity or adds one segment, in the one way that its buffer
  grows;
* `Buffer.Growing`: a growable buffer after any operations, whatever happened to its pool in between;
* `Buffer.Growing.withinMaximum`: **how far a growable buffer grows, and which writes it takes**.
-/

namespace GraphServer

/-- A computation that fails or goes on goes on where it succeeds. -/
lemma exists_of_bind_eq_ok {ε α β : Type} {r : Except ε α} {g : α → Except ε β} {y : β}
    (h : (r >>= g) = .ok y) : ∃ x, r = .ok x ∧ g x = .ok y := by
  cases r with
  | error e => cases h
  | ok x => exact ⟨x, rfl, h⟩

namespace Buffer

variable {b b' : Buffer} {pool pool' : Pool} {segmentSize maximum : Nat}

/-! ### What an operation does to the capacity -/

/-- Going from one buffer to another keeps the capacity, or stretches it by one segment for the bytes that are
missing; those fit the maximum, the segment need not. -/
structure Stretches (segmentSize : Nat) (b b' : Buffer) : Prop where
  growth_eq : b'.growth = b.growth
  pooled_eq : b'.pooled = b.pooled
  capacity : b'.capacity = b.capacity ∨
    ∃ maximum missing, b.growth = .growable maximum ∧ 0 < missing ∧ b.capacity + missing ≤ maximum ∧
      b'.capacity = b.capacity + b.flat.growth? segmentSize maximum missing

lemma Stretches.of_eq (growth : b'.growth = b.growth) (pooled : b'.pooled = b.pooled)
    (capacity : b'.capacity = b.capacity) : b.Stretches segmentSize b' :=
  ⟨growth, pooled, .inl capacity⟩

lemma Stretches.refl (b : Buffer) : b.Stretches segmentSize b :=
  .of_eq rfl rfl rfl

lemma reserve_stretches (hp : pool.Sound) {length : Nat} (h : b.reserve pool length = .ok (b', pool')) :
    b.Stretches pool.segmentSize b' := by
  obtain ⟨-, ⟨-, rfl, rfl⟩ | ⟨maximum, growth, beyond, fits, rfl, rfl⟩⟩ := reserve_cases h
  · exact .refl b'
  · have segment := nextSegment_fst b hp maximum (b.writer + length - b.capacity)
    refine ⟨rfl, rfl, .inr ⟨maximum, b.writer + length - b.capacity, growth, by omega, by omega, ?_⟩⟩
    simp only [addSegment, segment, length_zeros]

lemma write_stretches (hp : pool.Sound) {bytes : Bytes} (h : b.write pool bytes = .ok (b', pool')) :
    b.Stretches pool.segmentSize b' := by
  obtain ⟨r, hreserve, h⟩ := exists_of_bind_eq_ok h
  obtain ⟨rfl, -⟩ := Prod.mk.inj (Except.ok.inj h)
  have stretches := reserve_stretches hp hreserve
  exact ⟨stretches.growth_eq, stretches.pooled_eq, stretches.capacity⟩

lemma writeFrom_stretches (hp : pool.Sound) {source : Bytes} {index length : Nat}
    (h : b.writeFrom pool source index length = .ok (b', pool')) : b.Stretches pool.segmentSize b' := by
  obtain ⟨_, -, h⟩ := exists_of_bind_eq_ok h
  exact write_stretches hp h

lemma read_stretches {op : BufferOp} {length : Nat} {bytes : Bytes}
    (h : b.read op length = .ok (bytes, b')) : b.Stretches segmentSize b' := by
  obtain ⟨_, -, h⟩ := exists_of_bind_eq_ok h
  obtain ⟨-, rfl⟩ := Prod.mk.inj (Except.ok.inj h)
  exact .of_eq rfl rfl rfl

lemma readInto_stretches {target bytes : Bytes} {index length : Nat}
    (h : b.readInto target index length = .ok (bytes, b')) : b.Stretches segmentSize b' := by
  obtain ⟨_, -, h⟩ := exists_of_bind_eq_ok h
  obtain ⟨r, hread, h⟩ := exists_of_bind_eq_ok h
  obtain ⟨-, rfl⟩ := Prod.mk.inj (Except.ok.inj h)
  exact read_stretches hread

/-- What a failing sink leaves of the pieces makes no difference to the buffer's size. -/
lemma copyPieces_stretches (sink : Sink) (b : Buffer) (taken : Bytes) (pieces : List Bytes) :
    b.Stretches segmentSize (copyPieces sink b taken pieces).1 := by
  induction pieces generalizing b taken with
  | nil => exact .refl b
  | cons piece rest ih =>
    rw [copyPieces]
    split
    · exact .refl b
    next taken' _ =>
      have stretches := ih (b.advance piece.length) taken'
      exact ⟨stretches.growth_eq, stretches.pooled_eq, stretches.capacity⟩

lemma readTo_stretches (b : Buffer) (sink : Sink) (length : Nat) :
    b.Stretches segmentSize (b.readTo sink length).1 := by
  rw [readTo]
  split
  · exact .refl b
  · exact copyPieces_stretches sink b [] _

lemma skip_stretches {length : Nat} (h : b.skip length = .ok b') : b.Stretches segmentSize b' := by
  obtain ⟨_, -, h⟩ := exists_of_bind_eq_ok h
  exact Except.ok.inj h ▸ .of_eq rfl rfl rfl

lemma setReader_stretches {index : Nat} (h : b.setReader index = .ok b') : b.Stretches segmentSize b' := by
  obtain ⟨_, -, h⟩ := exists_of_bind_eq_ok h
  split at h
  · exact Except.ok.inj h ▸ .of_eq rfl rfl rfl
  · cases h

lemma setWriter_stretches {index : Nat} (h : b.setWriter index = .ok b') : b.Stretches segmentSize b' := by
  obtain ⟨_, -, h⟩ := exists_of_bind_eq_ok h
  split at h
  · exact Except.ok.inj h ▸ .of_eq rfl rfl rfl
  · cases h

lemma retain_stretches (h : b.retain = .ok b') : b.Stretches segmentSize b' := by
  obtain ⟨_, -, h⟩ := exists_of_bind_eq_ok h
  exact Except.ok.inj h ▸ .of_eq rfl rfl rfl

lemma release_stretches {last : Bool} (h : b.release = .ok (last, b')) : b.Stretches segmentSize b' := by
  rw [release] at h
  split at h
  · cases h
  · obtain ⟨-, rfl⟩ := Prod.mk.inj (Except.ok.inj h)
    exact .of_eq rfl rfl rfl

lemma reading_stretches {α : Type} {r : Except BufferError (α × Buffer)}
    (h : ∀ x b', r = .ok (x, b') → b.Stretches segmentSize b') (pool : Pool) (yield : α → BufferYield) :
    b.Stretches segmentSize (b.reading pool r yield).2.1 := by
  cases r with
  | error e => exact .refl b
  | ok r => exact h r.1 r.2 rfl

lemma changing_stretches {r : Except BufferError Buffer} (h : ∀ b', r = .ok b' → b.Stretches segmentSize b')
    (pool : Pool) : b.Stretches segmentSize (b.changing pool r).2.1 := by
  refine reading_stretches (fun _ b' hr => ?_) pool _
  cases r with
  | error e => cases hr
  | ok b₁ => exact (Prod.mk.inj (Except.ok.inj hr)).2 ▸ h b₁ rfl

lemma writing_stretches {r : Except BufferError (Buffer × Pool)}
    (h : ∀ b' pool', r = .ok (b', pool') → b.Stretches segmentSize b') (pool : Pool) :
    b.Stretches segmentSize (b.writing pool r).2.1 := by
  cases r with
  | error e => exact .refl b
  | ok r => exact h r.1 r.2 rfl

/-- **One operation** keeps the capacity or adds one segment. -/
theorem apply_stretches (b : Buffer) (hp : pool.Sound) (action : BufferAction) :
    b.Stretches pool.segmentSize (b.apply pool action).2.1 := by
  cases action with
  | readTo sink length =>
    have stretches : b.Stretches pool.segmentSize (b.readTo sink length).1 := readTo_stretches b sink length
    rw [apply]
    split
    next hr => rwa [hr] at stretches
    next hr => rwa [hr] at stretches
  | readBool | readByte | readU8 | readShort | readInt | readLong | readFloat | readDouble | readBytes
  | readVec => exact reading_stretches (fun _ _ => read_stretches) pool _
  | readInto => exact reading_stretches (fun _ _ => readInto_stretches) pool _
  | writeBool | writeByte | writeU8 | writeShort | writeInt | writeLong | writeFloat | writeDouble
  | writeBytes => exact writing_stretches (fun _ _ => write_stretches hp) pool
  | writeFrom => exact writing_stretches (fun _ _ => writeFrom_stretches hp) pool
  | skip => exact changing_stretches (fun _ => skip_stretches) pool
  | setReader => exact changing_stretches (fun _ => setReader_stretches) pool
  | setWriter => exact changing_stretches (fun _ => setWriter_stretches) pool
  | retain => exact changing_stretches (fun _ => retain_stretches) pool
  | mark | reset => exact .of_eq rfl rfl rfl
  | getBytes | views | viewsOf | view | viewOf | toBytes => exact .refl b
  | release => exact reading_stretches (fun _ _ => release_stretches) pool _

/-! ### How far a history stretches a buffer -/

/-- A buffer that grows: up to its maximum if it is on its own, and by whole segments if it is over a pool. -/
structure Bounded (segmentSize maximum : Nat) (b : Buffer) : Prop where
  growth_eq : b.growth = .growable maximum
  unpooled_le : b.pooled = false → b.capacity ≤ maximum
  le_pooled : b.pooled = true → segmentSize ≤ b.capacity
  pooled_le : b.pooled = true →
    b.capacity ≤ if maximum ≤ segmentSize then segmentSize else maximum + segmentSize - 1

lemma Bounded.stretches (h : b.Bounded segmentSize maximum) (hpos : 0 < segmentSize)
    (hs : b.Stretches segmentSize b') : b'.Bounded segmentSize maximum := by
  obtain ⟨growth_eq, pooled_eq, kept | ⟨limit, missing, growth, missing_pos, fits, grown⟩⟩ := hs
  · have hunpooled := h.unpooled_le
    have hle := h.le_pooled
    have hpooled := h.pooled_le
    rw [← kept, ← pooled_eq] at hunpooled hle hpooled
    exact ⟨growth_eq.trans h.growth_eq, hunpooled, hle, hpooled⟩
  obtain rfl : limit = maximum := Growth.growable.inj (growth.symm.trans h.growth_eq)
  have hlength : b.flat.bytes.length = b.capacity := b.capacity_eq_length.symm
  refine ⟨growth_eq.trans h.growth_eq, fun unpooled => ?_, fun pooled => ?_, fun pooled => ?_⟩
  · have hflat : b.flat.pooled = false := pooled_eq.symm.trans unpooled
    rw [grown, FlatBuffer.growth?, hflat, hlength, if_neg Bool.false_ne_true]
    omega
  · have hle := h.le_pooled (pooled_eq.symm.trans pooled)
    omega
  · have hle := h.le_pooled (pooled_eq.symm.trans pooled)
    have hflat : b.flat.pooled = true := pooled_eq.symm.trans pooled
    -- there is something missing above what the first segment holds, so that the maximum lies above it too
    rw [grown, FlatBuffer.growth?, hflat, if_pos rfl, if_neg (by omega)]
    omega

/-- What a growable buffer with a maximum can come to: made in any of the ways there are, and operated on in any
order, while others use its pool. -/
inductive Growing (segmentSize maximum : Nat) : Buffer → Prop
  | growable (initial : Nat) : Growing segmentSize maximum (.growable initial maximum)
  | ofPool {pool : Pool} : pool.Sound → pool.segmentSize = segmentSize →
    Growing segmentSize maximum (Buffer.ofPool pool maximum).1
  | allocate {a : Allocator} {pool : Pool} : a.maxCapacity = maximum → pool.Sound →
    pool.segmentSize = segmentSize → Growing segmentSize maximum (a.allocate pool).1
  | operate {b : Buffer} {pool : Pool} (action : BufferAction) : Growing segmentSize maximum b → pool.Sound →
    pool.segmentSize = segmentSize → Growing segmentSize maximum (b.apply pool action).2.1

lemma bounded_growable (segmentSize initial maximum : Nat) :
    (growable initial maximum).Bounded segmentSize maximum where
  growth_eq := rfl
  unpooled_le _ := by
    rw [capacity_eq_length, growable, ofSegments_zeros_flat, FlatBuffer.blank, length_zeros]
    exact min_le_right initial maximum
  le_pooled := nofun
  pooled_le := nofun

lemma bounded_ofPool (hp : pool.Sound) (maximum : Nat) :
    (ofPool pool maximum).1.Bounded pool.segmentSize maximum := by
  have capacity : (ofPool pool maximum).1.capacity = pool.segmentSize := by
    rw [capacity_eq_length, ofPool_flat hp, FlatBuffer.blank, length_zeros]
  refine ⟨rfl, nofun, fun _ => capacity.ge, fun _ => ?_⟩
  rw [capacity]
  split <;> omega

lemma Growing.bounded (h : Growing segmentSize maximum b) : b.Bounded segmentSize maximum := by
  induction h with
  | growable initial => exact bounded_growable segmentSize initial maximum
  | ofPool hp hsize => exact hsize ▸ bounded_ofPool hp maximum
  | @allocate a pool hmax hp hsize =>
    subst hmax hsize
    rw [Allocator.allocate]
    split
    · exact bounded_ofPool hp a.maxCapacity
    · exact bounded_growable pool.segmentSize defaultInitial a.maxCapacity
  | operate action _ hp hsize ih =>
    subst hsize
    exact ih.stretches hp.segmentSize_pos (apply_stretches _ hp action)

/-! ### Which writes succeed -/

lemma write_cases {bytes : Bytes} (h : b.write pool bytes = .ok (b', pool')) : b.HasRoom bytes.length := by
  obtain ⟨r, hreserve, -⟩ := exists_of_bind_eq_ok h
  obtain ⟨live, ⟨fits, -, -⟩ | ⟨maximum, growth, -, fits, -, -⟩⟩ := reserve_cases hreserve
  · exact ⟨live, fits.trans b.capacity_le_limit⟩
  · refine ⟨live, ?_⟩
    rw [limit, growth]
    exact fits.trans (le_max_right _ _)

/-- How large a growable buffer is and what it takes. On its own it stays within its maximum; over a pool it has
at least the first segment, and less than a segment above its maximum if that is more than the first segment. It
takes what ends within its maximum or within what it has, so that the maximum bounds the writes just where it
bounds the capacity. -/
structure WithinMaximum (segmentSize maximum : Nat) (b : Buffer) : Prop extends b.Bounded segmentSize maximum where
  writes_iff : ∀ pool bytes, (∃ after, b.write pool bytes = .ok after) ↔
    b.references ≠ 0 ∧ b.writer + bytes.length ≤ max b.capacity maximum
  bounds_iff : b.references ≠ 0 →
    (b.capacity ≤ maximum ↔ ∀ pool bytes, (∃ after, b.write pool bytes = .ok after) ↔
      b.writer + bytes.length ≤ maximum)

/-- **How far a growable buffer grows.** Along every history of a growable buffer, over every pool and with
segments of any size, the maximum bounds the capacity of an unpooled buffer; that of a pooled one lies above it by
less than a segment, unless the first segment alone reaches it. A live buffer takes every write that ends within
the maximum or the capacity and no other. -/
theorem Growing.withinMaximum (h : Growing segmentSize maximum b) : b.WithinMaximum segmentSize maximum := by
  have bounded := h.bounded
  have hlimit : b.limit = max b.capacity maximum := by rw [limit, bounded.growth_eq]
  have writes_iff (pool : Pool) (bytes : Bytes) : (∃ after, b.write pool bytes = .ok after) ↔
      b.references ≠ 0 ∧ b.writer + bytes.length ≤ max b.capacity maximum := by
    constructor
    · rintro ⟨⟨b', pool'⟩, hw⟩
      have room := write_cases hw
      exact ⟨room.live, hlimit ▸ room.le_limit⟩
    · rintro ⟨live, fits⟩
      obtain ⟨b', pool', hw⟩ := exists_write ⟨live, hlimit ▸ fits⟩ pool
      exact ⟨(b', pool'), hw⟩
  refine { bounded with writes_iff, bounds_iff := fun live => ⟨fun hle pool bytes => ?_, fun hiff => ?_⟩ }
  · rw [writes_iff, max_eq_right hle]
    exact ⟨And.right, fun fits => ⟨live, fits⟩⟩
  · -- a write that fills the capacity always succeeds
    have hw := b.writer_le
    have filled : b.writer + (zeros (b.capacity - b.writer)).length = b.capacity := by
      rw [length_zeros]
      omega
    rw [← filled]
    refine (hiff (Pool.make 1 0 false) _).mp ((writes_iff _ _).mpr ⟨live, ?_⟩)
    rw [filled]
    exact le_max_left _ _

/-- Five bytes in segments of four, for a maximum of six: two segments, of which the last two bytes lie above the
maximum. -/
def overSix : Buffer :=
  ((ofPool (Pool.make 4 1 false) 6).1.apply (Pool.make 4 1 false) (.writeBytes [1, 2, 3, 4, 5])).2.1

theorem withinMaximum_overSix : Growing 4 6 overSix ∧ overSix.capacity = 8 ∧ overSix.WithinMaximum 4 6 ∧
    ∃ after, overSix.write (Pool.make 4 1 false) [6, 7, 8] = .ok after := by
  have sound : (Pool.make 4 1 false).Sound := .make 4 1 false
  have growing : Growing 4 6 overSix := .operate _ (.ofPool sound rfl) sound rfl
  have within : overSix.WithinMaximum 4 6 := growing.withinMaximum
  exact ⟨growing, rfl, within, (within.writes_iff _ _).mpr ⟨by decide, by decide⟩⟩

/-- **A maximum is no bound for the capacity**: the first segment of a pooled buffer may be larger, and is
written in full. -/
theorem not_bounded_by_maximum : Growing 16 4 (ofPool (Pool.make 16 1 false) 4).1 ∧
    ¬((ofPool (Pool.make 16 1 false) 4).1.capacity ≤ 4) ∧
    ∃ after, (ofPool (Pool.make 16 1 false) 4).1.write (Pool.make 16 1 false) (zeros 10) = .ok after :=
  ⟨.ofPool (.make 16 1 false) rfl, by decide, _, rfl⟩

end Buffer

end GraphServer
