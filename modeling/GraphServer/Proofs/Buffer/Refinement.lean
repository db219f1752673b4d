import GraphServer.Proofs.Buffer.Square

/-!
A segmented buffer does what one array does, operation by operation and run by run.

* `Sink.writeAll_spec`, `Buffer.copyPieces_spec`: what copying to a sink leaves, whether or not the sink fails;
* `Buffer.apply_performs`: one operation, by cases, each the square of its function;
* `Buffer.apply_pool`: no operation spoils the pool;
* `Buffer.perform_runs`: a run of operations, by induction.
-/

namespace GraphServer

/-! ### Sinks -/

namespace Sink

variable {sink : Sink}


/-- What is known of the answer to an offered piece. -/
structure Offered (taken piece : Bytes) (r : Bytes × Option BufferError) : Prop where
  whole : r.2 = none → r.1 = taken ++ piece
  broken : ∀ e, r.2 = some e → (∃ text, e = .io text) ∧ taken <+: r.1 ∧ r.1 <+: taken ++ piece

lemma offer_spec (sink : Sink) (offers : Nat) (taken piece : Bytes) (h : piece.length ≤ offers) :
    Offered taken piece (sink.offer offers taken piece) := by
  induction offers generalizing taken piece with
  | zero =>
    obtain rfl : piece = [] := List.length_eq_zero_iff.mp (Nat.le_zero.mp h)
    exact ⟨fun _ => (List.append_nil taken).symm, fun e he => by cases he⟩
  | succ offers ih =>
    rw [offer]
    split
    next empty =>
      rw [List.isEmpty_iff] at empty
      subst empty
      exact ⟨fun _ => (List.append_nil taken).symm, fun e he => by cases he⟩
    next nonempty =>
      split
      · exact ⟨nofun, fun e he => ⟨⟨_, (Option.some.inj he).symm⟩, List.prefix_refl _, List.prefix_append _ _⟩⟩
      · exact ⟨nofun, fun e he => ⟨⟨_, (Option.some.inj he).symm⟩, List.prefix_refl _, List.prefix_append _ _⟩⟩
      next n hn _ =>
        have hlen : (piece.drop n).length ≤ offers := by
          rw [List.length_drop]
          have : n ≠ 0 := hn
          omega
        have rest := ih (taken ++ piece.take n) (piece.drop n) hlen
        have join : taken ++ piece.take n ++ piece.drop n = taken ++ piece := by
          rw [List.append_assoc, List.take_append_drop]
        refine ⟨fun hnone => (rest.whole hnone).trans join, fun e he => ?_⟩
        obtain ⟨hio, hfrom, hto⟩ := rest.broken e he
        exact ⟨hio, (List.prefix_append _ _).trans hfrom, join ▸ hto⟩

lemma writeAll_spec (sink : Sink) (taken piece : Bytes) :
    Offered taken piece (sink.writeAll taken piece) :=
  offer_spec sink piece.length taken piece le_rfl

lemma Willing.offer_snd (h : sink.Willing) (offers : Nat) (taken piece : Bytes) :
    (sink.offer offers taken piece).2 = none := by
  induction offers generalizing taken piece with
  | zero => rfl
  | succ offers ih =>
    rw [offer]
    split
    · rfl
    next nonempty =>
      rw [List.isEmpty_iff] at nonempty
      obtain ⟨n, hn⟩ := h taken piece nonempty
      rw [hn]
      exact ih _ _

end Sink

namespace Buffer

/-- What is known after pieces were copied to a sink. -/
structure Copied (b : Buffer) (taken bytes : Bytes) (r : Buffer × Bytes × Option BufferError) : Prop where
  whole : r.2.2 = none → r.2.1 = taken ++ bytes ∧ r.1.flat = b.flat.advance bytes.length
  broken : ∀ e, r.2.2 = some e → (∃ text, e = .io text) ∧ taken <+: r.2.1 ∧ r.2.1 <+: taken ++ bytes ∧
    ∃ k, taken.length + k ≤ r.2.1.length ∧ r.1.flat = b.flat.advance k

lemma flat_advance_advance (f : FlatBuffer) (m n : Nat) : (f.advance m).advance n = f.advance (m + n) := by
  simp [FlatBuffer.advance, Nat.add_assoc]

/-- The copying goes on from one piece to the next; a failure leaves the pieces before it read. -/
lemma copyPieces_spec (sink : Sink) (b : Buffer) (taken : Bytes) (pieces : List Bytes)
    (h : pieces.flatten.length ≤ b.readable) :
    Copied b taken pieces.flatten (copyPieces sink b taken pieces) := by
  induction pieces generalizing b taken with
  | nil => exact ⟨fun _ => ⟨(List.append_nil taken).symm, rfl⟩, fun e he => by cases he⟩
  | cons piece rest ih =>
    rw [List.flatten_cons, List.length_append] at h
    rw [copyPieces]
    have hoffer := sink.writeAll_spec taken piece
    split
    next taken' e hw =>
      rw [hw] at hoffer
      refine ⟨nofun, fun e' he => ?_⟩
      obtain ⟨hio, hfrom, hto⟩ := hoffer.broken e' he
      refine ⟨hio, hfrom, ?_, 0, hfrom.length_le, rfl⟩
      rw [List.flatten_cons, ← List.append_assoc]
      exact hto.trans (List.prefix_append _ _)
    next taken' hw =>
      rw [hw] at hoffer
      obtain rfl : taken' = taken ++ piece := hoffer.whole rfl
      have hadv : (b.advance piece.length).flat = b.flat.advance piece.length :=
        flat_advance (by omega)
      have hreadable : rest.flatten.length ≤ (b.advance piece.length).readable := by
        have hr : (b.advance piece.length).reader = b.reader + piece.length := congrArg FlatBuffer.reader hadv
        have hw : (b.advance piece.length).writer = b.writer := rfl
        rw [readable] at h
        rw [readable, hr, hw]
        omega
      have hrest := ih (b.advance piece.length) (taken ++ piece) hreadable
      constructor
      · intro hnone
        obtain ⟨htaken, hflat⟩ := hrest.whole hnone
        rw [htaken, hflat, hadv, flat_advance_advance, List.flatten_cons, List.append_assoc, List.length_append]
        exact ⟨rfl, rfl⟩
      · intro e he
        obtain ⟨hio, hfrom, hto, k, hk, hflat⟩ := hrest.broken e he
        refine ⟨hio, (List.prefix_append _ _).trans hfrom, ?_, piece.length + k, ?_, ?_⟩
        · rwa [List.flatten_cons, ← List.append_assoc]
        · rw [List.length_append] at hk
          omega
        · rw [hflat, hadv, flat_advance_advance]

lemma copyPieces_willing {sink : Sink} (h : sink.Willing) (b : Buffer) (taken : Bytes) (pieces : List Bytes) :
    (copyPieces sink b taken pieces).2.2 = none := by
  induction pieces generalizing b taken with
  | nil => rfl
  | cons piece rest ih =>
    rw [copyPieces]
    have hnone : (sink.writeAll taken piece).2 = none := h.offer_snd piece.length taken piece
    split
    next hw => simp [hw] at hnone
    next => exact ih _ _

end Buffer

namespace Buffer

variable {b : Buffer} {pool : Pool}

lemma readTo_drains (b : Buffer) (pool : Pool) (sink : Sink) (length : Nat) :
    b.flat.Drains sink length (b.apply pool (.readTo sink length)).1
      (b.apply pool (.readTo sink length)).2.1.flat := by
  have hcheck := b.ensureReadable_flat .readBytesTo length
  cases hr : b.ensureReadable .readBytesTo length with
  | error e =>
    rw [hr] at hcheck
    have happly : b.apply pool (.readTo sink length) = ({ result := .error e }, b, pool) := by
      simp only [apply, readTo, hr]
    rw [happly]
    exact {
      refused := fun e' he' => by
        rw [hcheck] at he'
        cases he'
        exact ⟨rfl, rfl, rfl⟩
      result_ok := fun hok => by cases hcheck.symm.trans hok
      complete := fun hdone => by cases hdone
      broken := fun _ hok => by cases hcheck.symm.trans hok }
  | ok u =>
    rw [hr] at hcheck
    have hlen := (ensureReadable_eq_ok hr).2
    have hpieces : (slices b.segments b.reader length).flatten = b.flat.span b.reader length :=
      flatten_slices b.segments b.reader length
    have hspan : (b.flat.span b.reader length).length = length := by
      have hw := b.writer_le
      have hcap := b.capacity_eq_length
      rw [readable] at hlen
      rw [FlatBuffer.span, List.length_take, List.length_drop]
      omega
    have spec := copyPieces_spec sink b [] (slices b.segments b.reader length)
      (by rw [hpieces, hspan]; exact hlen)
    rw [hpieces] at spec
    have hwilling := fun h : sink.Willing => copyPieces_willing h b [] (slices b.segments b.reader length)
    have hread : b.readTo sink length = copyPieces sink b [] (slices b.segments b.reader length) := by
      rw [readTo, hr]
    rw [← hread] at spec hwilling
    rw [apply]
    generalize b.readTo sink length = r at spec hwilling
    obtain ⟨b', taken, _ | e⟩ := r
    · obtain ⟨htaken, hflat⟩ := spec.whole rfl
      rw [hspan] at hflat
      exact {
        refused := fun _ he => by cases hcheck.symm.trans he
        result_ok := fun _ _ => rfl
        complete := fun _ => ⟨htaken, hflat⟩
        broken := fun _ _ he => by cases he }
    · obtain ⟨hio, -, hto, k, hk, hflat⟩ := spec.broken e rfl
      exact {
        refused := fun _ he => by cases hcheck.symm.trans he
        result_ok := fun _ hw => by cases hwilling hw
        complete := fun hdone => by cases hdone
        broken := fun e' _ he' => by
          cases he'
          exact ⟨hio, hto, k, by simpa using hk, hflat⟩ }

/-! ### Every operation -/

/-- The outcome of an operation and the buffer after it, with the cut forgotten. -/
def seen (r : BufferOutcome × Buffer × Pool) : BufferOutcome × FlatBuffer :=
  (r.1.joined, r.2.1.flat)

lemma seen_reading {α : Type} (b : Buffer) (pool : Pool) (r : Except BufferError (α × Buffer))
    (yield : α → BufferYield) (hy : ∀ x, (yield x).joined = yield x) :
    seen (b.reading pool r yield) = b.flat.changing ((fun r => (r.1, r.2.flat)) <$> r) yield := by
  cases r with
  | error e => rfl
  | ok r =>
    change ((⟨.ok (yield r.1).joined, []⟩ : BufferOutcome), r.2.flat) = _
    rw [hy]
    rfl

lemma seen_changing (b : Buffer) (pool : Pool) (r : Except BufferError Buffer) :
    seen (b.changing pool r) = b.flat.moving (flat <$> r) := by
  cases r <;> rfl

lemma seen_writing (b : Buffer) (pool : Pool) (r : Except BufferError (Buffer × Pool)) :
    seen (b.writing pool r) = b.flat.moving ((fun r => r.1.flat) <$> r) := by
  cases r <;> rfl

lemma seen_looking {α : Type} (b : Buffer) (pool : Pool) (r : Except BufferError α) (yield : α → BufferYield) :
    seen (b.looking pool r yield) = b.flat.looking r fun x => (yield x).joined := by
  cases r <;> rfl

lemma seen_read (b : Buffer) (pool : Pool) (op : BufferOp) (length : Nat) (yield : Bytes → BufferYield)
    (hy : ∀ x, (yield x).joined = yield x) :
    seen (b.reading pool (b.read op length) yield) = b.flat.changing (b.flat.read op length) yield := by
  rw [seen_reading b pool _ yield hy, read_flat]

lemma seen_write (b : Buffer) (hp : pool.Sound) (bytes : Bytes) :
    seen (b.writing pool (b.write pool bytes)) = b.flat.moving (b.flat.write pool.segmentSize bytes) := by
  rw [seen_writing, write_flat b hp]

lemma seen_viewsOf (b : Buffer) (pool : Pool) (index length : Nat) :
    seen (b.looking pool (b.viewsOf index length) .pieces) =
      b.flat.looking (b.flat.viewOf index length) fun s => .pieces [s] := by
  rw [seen_looking, viewsOf_flat]
  cases b.viewsOf index length <;> rfl

lemma seen_viewOf (b : Buffer) (pool : Pool) (index length : Nat) :
    seen (b.looking pool (b.viewOf index length) .view) =
      b.flat.looking (b.flat.viewOf index length) .bytes := by
  rw [seen_looking, viewOf_flat]
  cases b.viewOf index length <;> rfl

lemma seen_getBytes (b : Buffer) (pool : Pool) (index length : Nat) :
    seen (b.looking pool (b.getBytes index length) .bytes) =
      b.flat.looking (b.flat.getBytes index length) .bytes := by
  rw [seen_looking, getBytes_flat]
  rfl

lemma seen_toBytes (b : Buffer) (pool : Pool) :
    seen (b.looking pool b.toBytes .bytes) = b.flat.looking b.flat.view .bytes := by
  rw [seen_looking, toBytes_flat]
  rfl

/-- **One operation**: a segmented buffer answers, up to the cut into pieces, what one array answers, and is
the changed array afterwards. -/
theorem apply_performs (b : Buffer) (hp : pool.Sound) (action : BufferAction) :
    b.flat.Performs pool.segmentSize action (b.apply pool action).1 (b.apply pool action).2.1.flat := by
  cases action with
  | readTo sink length => exact readTo_drains b pool sink length
  | readBool => exact seen_read b pool .readBool 1 _ fun _ => rfl
  | readByte => exact seen_read b pool .readByte 1 _ fun _ => rfl
  | readU8 => exact seen_read b pool .readU8 1 _ fun _ => rfl
  | readShort => exact seen_read b pool .readShort 2 _ fun _ => rfl
  | readInt => exact seen_read b pool .readInt 4 _ fun _ => rfl
  | readLong => exact seen_read b pool .readLong 8 _ fun _ => rfl
  | readFloat => exact seen_read b pool .readFloat 4 _ fun _ => rfl
  | readDouble => exact seen_read b pool .readDouble 8 _ fun _ => rfl
  | readBytes length => exact seen_read b pool .readBytes length _ fun _ => rfl
  | readVec length => exact seen_read b pool .readVec length _ fun _ => rfl
  | readInto target index length =>
    have h := seen_reading b pool (b.readInto target index length) .bytes fun _ => rfl
    rwa [← readInto_flat] at h
  | skip length =>
    have h := seen_changing b pool (b.skip length)
    rwa [← skip_flat] at h
  | getBytes index length => exact seen_getBytes b pool index length
  | writeBool x => exact seen_write b hp _
  | writeByte n => exact seen_write b hp _
  | writeU8 n => exact seen_write b hp _
  | writeShort n => exact seen_write b hp _
  | writeInt n => exact seen_write b hp _
  | writeLong n => exact seen_write b hp _
  | writeFloat bits => exact seen_write b hp _
  | writeDouble bits => exact seen_write b hp _
  | writeBytes bytes => exact seen_write b hp bytes
  | writeFrom source index length =>
    have h := seen_writing b pool (b.writeFrom pool source index length)
    rwa [← writeFrom_flat b hp] at h
  | setReader index =>
    have h := seen_changing b pool (b.setReader index)
    rwa [← setReader_flat] at h
  | setWriter index =>
    have h := seen_changing b pool (b.setWriter index)
    rwa [← setWriter_flat] at h
  | mark => rfl
  | reset => rfl
  | views => exact seen_viewsOf b pool b.reader b.readable
  | viewsOf index length => exact seen_viewsOf b pool index length
  | view => exact seen_viewOf b pool b.reader b.readable
  | viewOf index length => exact seen_viewOf b pool index length
  | toBytes => exact seen_toBytes b pool
  | retain =>
    have h := seen_changing b pool b.retain
    rwa [← retain_flat] at h
  | release =>
    have h := seen_reading b pool b.release .bool fun _ => rfl
    rwa [← release_flat] at h

/-! ### The pool after an operation -/

/-- Whether an operation may take a segment from the pool. -/
lemma reading_pool {α : Type} (b : Buffer) (pool : Pool) (r : Except BufferError (α × Buffer))
    (yield : α → BufferYield) : (b.reading pool r yield).2.2 = pool := by
  cases r <;> rfl

lemma writing_pool (b : Buffer) (hp : pool.Sound) {r : Except BufferError (Buffer × Pool)}
    (h : ∀ b' pool', r = .ok (b', pool') → pool'.Sound ∧ pool'.segmentSize = pool.segmentSize) :
    (b.writing pool r).2.2.Sound ∧ (b.writing pool r).2.2.segmentSize = pool.segmentSize := by
  cases r with
  | error e => exact ⟨hp, rfl⟩
  | ok r => exact h r.1 r.2 rfl

/-- No operation spoils the pool. -/
lemma apply_pool (b : Buffer) (hp : pool.Sound) (action : BufferAction) :
    (b.apply pool action).2.2.Sound ∧ (b.apply pool action).2.2.segmentSize = pool.segmentSize := by
  have same : ∀ {p : Pool}, p = pool → p.Sound ∧ p.segmentSize = pool.segmentSize := by
    rintro _ rfl
    exact ⟨hp, rfl⟩
  have written (bytes : Bytes) := writing_pool b hp (r := b.write pool bytes) fun _ _ => write_sound hp
  cases action with
  | readTo sink length =>
    rw [apply]
    split <;> exact same rfl
  | writeBool | writeByte | writeU8 | writeShort | writeInt | writeLong | writeFloat | writeDouble
  | writeBytes => exact written _
  | writeFrom source index length => exact writing_pool b hp fun _ _ => writeFrom_sound hp
  | getBytes | views | viewsOf | view | viewOf | toBytes => exact same rfl
  | readBool | readByte | readU8 | readShort | readInt | readLong | readFloat | readDouble | readBytes
  | readVec | readInto | skip | setReader | setWriter | mark | reset | retain | release =>
    exact same (reading_pool b pool _ _)

/-! ### Runs -/

/-- Performs operations in order. -/
def perform : Buffer → Pool → List BufferAction → List BufferOutcome × Buffer × Pool
  | b, pool, [] => ([], b, pool)
  | b, pool, action :: rest =>
    let (outcome, b, pool) := b.apply pool action
    let (outcomes, b, pool) := perform b pool rest
    (outcome :: outcomes, b, pool)

/-- **A run of operations**: a segmented buffer answers, one operation after the other, what one array
answers. -/
theorem perform_runs (b : Buffer) (hp : pool.Sound) (actions : List BufferAction) :
    b.flat.Runs pool.segmentSize actions (b.perform pool actions).1 (b.perform pool actions).2.1.flat := by
  induction actions generalizing b pool with
  | nil => exact .nil b.flat
  | cons action rest ih =>
    obtain ⟨hsound, hsize⟩ := b.apply_pool hp action
    have hrest := ih (b.apply pool action).2.1 hsound
    rw [hsize] at hrest
    exact .cons (b.apply_performs hp action) hrest

end Buffer

end GraphServer
