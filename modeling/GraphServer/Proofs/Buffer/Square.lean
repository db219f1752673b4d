import GraphServer.Proofs.Buffer.Flat
import GraphServer.Proofs.Buffer.Pool

/-!
Each function on a buffer beside its counterpart on one array: forgetting the cut before or after makes no
difference (`read_flat`, `skip_flat`, `setReader_flat`, `setWriter_flat`, `getBytes_flat`, `viewsOf_flat`,
`reserve_flat`, `write_flat`, `writeFrom_flat`, `retain_flat`, `release_flat`).

`reserve_cases` says once what making room does; all that writing keeps or changes is read off it.
-/

namespace GraphServer

namespace Buffer

variable {b : Buffer} {pool : Pool}

/-! ### Spans -/

lemma capacity_eq_length (b : Buffer) : b.capacity = b.flat.bytes.length := by
  rw [b.capacity_eq, totalLength_eq, flat]

lemma span_eq_flat (b : Buffer) (index length : Nat) : b.span index length = b.flat.span index length :=
  flatten_slices b.segments index length

lemma ensureLive_flat (b : Buffer) : b.flat.ensureLive = b.ensureLive := rfl

lemma flat_advance {length : Nat} (h : length ≤ b.readable) :
    (b.advance length).flat = b.flat.advance length := by
  have hr := b.reader_le
  have hmin : min (b.reader + length) b.writer = b.reader + length := by
    rw [readable] at h
    omega
  simp [flat, advance, FlatBuffer.advance, hmin]

lemma ensureReadable_flat (b : Buffer) (op : BufferOp) (length : Nat) :
    b.flat.ensureReadable op length = b.ensureReadable op length := by
  have hr := b.reader_le
  have hiff : b.flat.reader + length ≤ b.flat.writer ↔ length ≤ b.readable := by
    simp only [flat, readable]
    omega
  simp only [FlatBuffer.ensureReadable, ensureReadable, ensureLive_flat, hiff]
  rfl

/-- An `Except` computation after a check, case by case. -/
lemma ensureReadable_eq_ok {op : BufferOp} {length : Nat} (h : b.ensureReadable op length = .ok ()) :
    b.references ≠ 0 ∧ length ≤ b.readable := by
  unfold ensureReadable ensureLive at h
  split at h
  · cases h
  next live =>
    refine ⟨live, ?_⟩
    by_contra hlt
    simp [bind, Except.bind, hlt, throw, throwThe, MonadExceptOf.throw] at h

lemma read_flat (b : Buffer) (op : BufferOp) (length : Nat) :
    b.flat.read op length = (fun r => (r.1, r.2.flat)) <$> b.read op length := by
  rw [FlatBuffer.read, read, ensureReadable_flat]
  cases h : b.ensureReadable op length with
  | error e => rfl
  | ok u =>
    have hn := (ensureReadable_eq_ok h).2
    simp only [bind, Except.bind, pure, Except.pure, Functor.map, Except.map, flat_advance hn, span_eq_flat]
    rfl


/-! ### Positions -/

/-- A step after a check, seen as one array. -/
lemma skip_flat (b : Buffer) (length : Nat) : b.flat.skip length = flat <$> b.skip length := by
  rw [FlatBuffer.skip, skip, ensureReadable_flat]
  cases h : b.ensureReadable .skipBytes length with
  | error e => rfl
  | ok u =>
    have hn := (ensureReadable_eq_ok h).2
    simp only [bind, Except.bind, pure, Except.pure, Functor.map, Except.map, flat_advance hn]

lemma setReader_flat (b : Buffer) (index : Nat) : b.flat.setReader index = flat <$> b.setReader index := by
  rw [FlatBuffer.setReader, setReader, ensureLive_flat]
  cases b.ensureLive with
  | error e => rfl
  | ok u =>
    by_cases h : index ≤ b.writer
    · simp [bind, Except.bind, pure, Except.pure, Functor.map, Except.map, flat, h]
    · simp [bind, Except.bind, throw, throwThe, MonadExceptOf.throw, Functor.map, Except.map, flat, h]

lemma setWriter_flat (b : Buffer) (index : Nat) : b.flat.setWriter index = flat <$> b.setWriter index := by
  rw [FlatBuffer.setWriter, setWriter, ensureLive_flat, ← capacity_eq_length]
  cases b.ensureLive with
  | error e => rfl
  | ok u =>
    by_cases h : b.reader ≤ index ∧ index ≤ b.capacity
    · simp [bind, Except.bind, pure, Except.pure, Functor.map, Except.map, flat, h]
    · simp only [bind, Except.bind, dif_neg h]
      exact if_neg h

lemma retain_flat (b : Buffer) : b.flat.retain = flat <$> b.retain := by
  rw [FlatBuffer.retain, retain, ensureLive_flat]
  cases b.ensureLive <;> rfl

lemma release_flat (b : Buffer) : b.flat.release = (fun r => (r.1, r.2.flat)) <$> b.release := by
  rw [FlatBuffer.release, release]
  change (if b.references = 0 then _ else _) = _
  split <;> rfl

/-! ### Reading -/

lemma readInto_flat (b : Buffer) (target : Bytes) (index length : Nat) :
    b.flat.readInto target index length = (fun r => (r.1, r.2.flat)) <$> b.readInto target index length := by
  rw [FlatBuffer.readInto, readInto, read_flat]
  cases checkSpan .readBytesInto index length target.length with
  | error e => rfl
  | ok u => cases b.read .readBytes length <;> rfl

lemma getBytes_flat (b : Buffer) (index length : Nat) :
    b.flat.getBytes index length = b.getBytes index length := by
  rw [FlatBuffer.getBytes, getBytes, ensureLive_flat, ← capacity_eq_length]
  simp only [span_eq_flat]

/-- Views differ from one array's in the cut only. -/
lemma viewsOf_flat (b : Buffer) (index length : Nat) :
    b.flat.viewOf index length = List.flatten <$> b.viewsOf index length := by
  rw [FlatBuffer.viewOf, viewsOf, ensureLive_flat]
  cases b.ensureLive with
  | error e => rfl
  | ok u =>
    change (do checkSpan .views index length b.writer; _) = _
    cases checkSpan .views index length b.writer with
    | error e => rfl
    | ok u =>
      rw [← span_eq_flat, span]
      cases slices b.segments index length <;> rfl

lemma viewOf_flat (b : Buffer) (index length : Nat) :
    b.flat.viewOf index length = View.bytes <$> b.viewOf index length := by
  rw [viewsOf_flat, viewOf]
  cases b.viewsOf index length <;> rfl

lemma toBytes_flat (b : Buffer) : b.flat.view = b.toBytes := by
  rw [toBytes, FlatBuffer.view]
  change b.flat.viewOf b.reader b.readable = (do let v ← b.viewOf b.reader b.readable; return v.bytes)
  rw [viewOf_flat]
  cases b.viewOf b.reader b.readable <;> rfl

/-! ### Writing -/

lemma flat_addSegment (b : Buffer) (segment : Bytes) :
    (b.addSegment segment).flat = { b.flat with bytes := b.flat.bytes ++ segment } := by
  simp [flat, addSegment]

/-- The next segment is blank, of the length by which one array would grow. -/
lemma nextSegment_fst (b : Buffer) (hp : pool.Sound) (maximum missing : Nat) :
    (b.nextSegment pool maximum missing).1 =
      zeros (b.flat.growth? pool.segmentSize maximum missing) := by
  rw [nextSegment, FlatBuffer.growth?, ← capacity_eq_length]
  change _ = zeros (if b.pooled then _ else _)
  split
  · exact hp.acquire_fst missing
  · rfl

lemma nextSegment_snd (b : Buffer) (hp : pool.Sound) (maximum missing : Nat) :
    (b.nextSegment pool maximum missing).2.Sound ∧
      (b.nextSegment pool maximum missing).2.segmentSize = pool.segmentSize := by
  rw [nextSegment]
  split
  · exact ⟨hp.acquire missing, pool.acquire_segmentSize missing⟩
  · exact ⟨hp, rfl⟩

lemma le_growth? (f : FlatBuffer) (segmentSize maximum missing : Nat) :
    missing ≤ f.growth? segmentSize maximum missing := by
  rw [FlatBuffer.growth?]
  split
  · exact le_max_right _ _
  · exact le_max_right _ _

lemma reserve_flat (b : Buffer) (hp : pool.Sound) (length : Nat) :
    b.flat.reserve pool.segmentSize length = (fun r => r.1.flat) <$> b.reserve pool length := by
  rw [FlatBuffer.reserve, reserve, ensureLive_flat, ← capacity_eq_length]
  cases b.ensureLive with
  | error e => rfl
  | ok u =>
    change (if b.writer + length ≤ b.capacity then _ else _) = _ <$> (if b.writer + length ≤ b.capacity then _ else _)
    by_cases hfits : b.writer + length ≤ b.capacity
    · rw [if_pos hfits, if_pos hfits]
      rfl
    · rw [if_neg hfits, if_neg hfits]
      have hgrowth : b.flat.growth = b.growth := rfl
      rw [hgrowth]
      cases hg : b.growth with
      | fixed => rfl
      | growable maximum =>
        change (if maximum < b.writer + length then _ else _) = _ <$> (if maximum < b.writer + length then _ else _)
        by_cases hmax : maximum < b.writer + length
        · rw [if_pos hmax, if_pos hmax]
          rfl
        · rw [if_neg hmax, if_neg hmax]
          have hseg := nextSegment_fst b hp maximum (b.writer + length - b.capacity)
          change Except.ok _ = Except.ok (flat (b.addSegment (b.nextSegment pool maximum (b.writer + length - b.capacity)).1))
          rw [flat_addSegment, hseg, ← hg]
          rfl

/-- What making room does: nothing if there is room, and one more segment otherwise. -/
lemma reserve_cases {length : Nat} {b' : Buffer} {pool' : Pool}
    (h : b.reserve pool length = .ok (b', pool')) :
    b.references ≠ 0 ∧
      ((b.writer + length ≤ b.capacity ∧ b' = b ∧ pool' = pool) ∨
        ∃ maximum, b.growth = .growable maximum ∧ b.capacity < b.writer + length ∧
          b.writer + length ≤ maximum ∧
          b' = b.addSegment (b.nextSegment pool maximum (b.writer + length - b.capacity)).1 ∧
          pool' = (b.nextSegment pool maximum (b.writer + length - b.capacity)).2) := by
  unfold reserve ensureLive at h
  by_cases live : b.references = 0
  · rw [if_pos live] at h
    cases h
  refine ⟨live, ?_⟩
  rw [if_neg live] at h
  change (if b.writer + length ≤ b.capacity then _ else _) = _ at h
  by_cases hfits : b.writer + length ≤ b.capacity
  · rw [if_pos hfits] at h
    cases h
    exact .inl ⟨hfits, rfl, rfl⟩
  rw [if_neg hfits] at h
  cases hg : b.growth with
  | fixed =>
    rw [hg] at h
    cases h
  | growable maximum =>
    rw [hg] at h
    change (if maximum < b.writer + length then _ else _) = _ at h
    by_cases hmax : maximum < b.writer + length
    · rw [if_pos hmax] at h
      cases h
    rw [if_neg hmax] at h
    change Except.ok (b.addSegment (b.nextSegment pool maximum _).1, (b.nextSegment pool maximum _).2) = _ at h
    obtain ⟨rfl, rfl⟩ := Prod.mk.inj (Except.ok.inj h)
    exact .inr ⟨maximum, rfl, not_le.mp hfits, not_lt.mp hmax, rfl, rfl⟩

/-- What making room yields: room, and a pool as sound as before. -/
structure Reserved (pool : Pool) (length : Nat) (b' : Buffer) (pool' : Pool) : Prop where
  room : length ≤ b'.writable
  sound : pool'.Sound
  segmentSize_eq : pool'.segmentSize = pool.segmentSize

lemma reserve_eq_ok (hp : pool.Sound) {length : Nat} {b' : Buffer} {pool' : Pool}
    (h : b.reserve pool length = .ok (b', pool')) : Reserved pool length b' pool' := by
  obtain ⟨-, ⟨hfits, rfl, rfl⟩ | ⟨maximum, -, -, -, rfl, rfl⟩⟩ := reserve_cases h
  · exact ⟨by rw [writable]; omega, hp, rfl⟩
  · have hseg := nextSegment_fst b hp maximum (b.writer + length - b.capacity)
    have hle := le_growth? b.flat pool.segmentSize maximum (b.writer + length - b.capacity)
    have hsnd := nextSegment_snd b hp maximum (b.writer + length - b.capacity)
    refine ⟨?_, hsnd.1, hsnd.2⟩
    simp only [writable, addSegment, hseg, length_zeros]
    omega

lemma flat_fill {bytes : Bytes} (h : bytes.length ≤ b.writable) :
    (b.fill bytes).flat =
      { b.flat with bytes := place b.flat.bytes b.writer bytes, writer := b.writer + bytes.length } := by
  have hw := b.writer_le
  have hroom : b.writer + bytes.length ≤ b.segments.flatten.length := by
    have hcap : b.capacity = b.segments.flatten.length := b.capacity_eq_length
    rw [writable] at h
    omega
  simp only [flat, fill, List.take_of_length_le h, flatten_overwrite b.segments b.writer bytes hroom, place]

/-- Writing is writing to one array, and leaves the pool sound. -/
lemma write_flat (b : Buffer) (hp : pool.Sound) (bytes : Bytes) :
    b.flat.write pool.segmentSize bytes = (fun r => r.1.flat) <$> b.write pool bytes := by
  rw [FlatBuffer.write, write, reserve_flat b hp]
  cases h : b.reserve pool bytes.length with
  | error e => rfl
  | ok r =>
    have hroom := (reserve_eq_ok hp h).room
    change Except.ok _ = Except.ok (r.1.fill bytes).flat
    rw [flat_fill hroom]
    rfl

lemma write_sound (hp : pool.Sound) {bytes : Bytes} {b' : Buffer} {pool' : Pool}
    (h : b.write pool bytes = .ok (b', pool')) :
    pool'.Sound ∧ pool'.segmentSize = pool.segmentSize := by
  unfold write at h
  cases hr : b.reserve pool bytes.length with
  | error e =>
    rw [hr] at h
    cases h
  | ok r =>
    rw [hr] at h
    cases h
    have spec := reserve_eq_ok hp hr
    exact ⟨spec.sound, spec.segmentSize_eq⟩

lemma writeFrom_flat (b : Buffer) (hp : pool.Sound) (source : Bytes) (index length : Nat) :
    b.flat.writeFrom pool.segmentSize source index length =
      (fun r => r.1.flat) <$> b.writeFrom pool source index length := by
  rw [FlatBuffer.writeFrom, writeFrom, write_flat b hp]
  cases checkSpan .writeBytesFrom index length source.length <;> rfl

lemma writeFrom_sound (hp : pool.Sound) {source : Bytes} {index length : Nat} {b' : Buffer} {pool' : Pool}
    (h : b.writeFrom pool source index length = .ok (b', pool')) :
    pool'.Sound ∧ pool'.segmentSize = pool.segmentSize := by
  unfold writeFrom at h
  cases hc : checkSpan .writeBytesFrom index length source.length with
  | error e =>
    rw [hc] at h
    cases h
  | ok u =>
    rw [hc] at h
    exact write_sound hp h

/-- A buffer that is given up leaves a sound pool. -/
lemma drop_sound (hp : pool.Sound) (b : Buffer) : (b.drop pool).Sound := by
  rw [drop]
  split
  · exact (hp.recycle b.segments).1
  · exact hp

end Buffer
end GraphServer
