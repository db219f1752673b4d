import GraphServer.Proofs.Buffer.Growing

/-!
Buffers that share a pool do not see each other.

A segment that one buffer gives back may be the next one that another takes. What was in it must not show there:
neither in the bytes above what the other has written, which can be looked at without having been written, nor in
any answer.

* `Buffer.apply_twin`: an operation does the same over every sound pool with segments of one size;
* `Buffer.BlankFrom.apply`: from the highest position ever written on, a buffer holds zeros;
* `Commons.step_kept`, `Commons.run_kept`: what one event and what a history keeps;
* `Commons.secluded`: **pooled memory never shows old contents**.
-/

namespace GraphServer

/-! ### A pool over time -/

/-- A pool at a later time: sound, and of the same make. -/
structure Pool.Continues (p q : Pool) : Prop where
  sound : q.Sound
  segmentSize_eq : q.segmentSize = p.segmentSize
  maxIdle_eq : q.maxIdle = p.maxIdle
  direct_eq : q.direct = p.direct

namespace Pool

variable {p q r : Pool}

lemma Sound.continues (h : p.Sound) : p.Continues p :=
  ⟨h, rfl, rfl, rfl⟩

lemma Continues.trans (h : p.Continues q) (h' : q.Continues r) : p.Continues r where
  sound := h'.sound
  segmentSize_eq := h'.segmentSize_eq.trans h.segmentSize_eq
  maxIdle_eq := h'.maxIdle_eq.trans h.maxIdle_eq
  direct_eq := h'.direct_eq.trans h.direct_eq

lemma Sound.acquire_continues (h : p.Sound) (least : Nat) : p.Continues (p.acquire least).2 := by
  refine ⟨h.acquire least, p.acquire_segmentSize least, ?_, ?_⟩ <;>
  · rw [Pool.acquire]
    split
    · rfl
    · split <;> rfl

lemma Sound.recycle_continues (h : p.Sound) (segments : List Bytes) : p.Continues (p.recycle segments) := by
  induction segments generalizing p with
  | nil => exact h.continues
  | cons s rest ih =>
    rw [Pool.recycle]
    split
    · exact h.continues
    · split
      · exact ih h
      next room _ =>
        have pushed := h.push (not_le.mp room)
        exact .trans ⟨pushed, rfl, rfl, rfl⟩ (ih pushed)

end Pool

namespace Buffer

variable {b b' : Buffer} {pool pool' other : Pool}

lemma drop_continues (b : Buffer) (hp : pool.Sound) : pool.Continues (b.drop pool) := by
  rw [drop]
  split
  · exact hp.recycle_continues b.segments
  · exact hp.continues

lemma reserve_continues (hp : pool.Sound) {length : Nat} (h : b.reserve pool length = .ok (b', pool')) :
    pool.Continues pool' := by
  obtain ⟨-, ⟨-, -, rfl⟩ | ⟨maximum, -, -, -, -, rfl⟩⟩ := reserve_cases h
  · exact hp.continues
  · rw [nextSegment]
    split
    · exact hp.acquire_continues _
    · exact hp.continues

lemma write_continues (hp : pool.Sound) {bytes : Bytes} (h : b.write pool bytes = .ok (b', pool')) :
    pool.Continues pool' := by
  obtain ⟨r, hreserve, h⟩ := exists_of_bind_eq_ok h
  obtain ⟨-, rfl⟩ := Prod.mk.inj (Except.ok.inj h)
  exact reserve_continues hp hreserve

lemma writeFrom_continues (hp : pool.Sound) {source : Bytes} {index length : Nat}
    (h : b.writeFrom pool source index length = .ok (b', pool')) : pool.Continues pool' := by
  obtain ⟨_, -, h⟩ := exists_of_bind_eq_ok h
  exact write_continues hp h

lemma writing_continues (b : Buffer) (hp : pool.Sound) {r : Except BufferError (Buffer × Pool)}
    (h : ∀ b' pool', r = .ok (b', pool') → pool.Continues pool') : pool.Continues (b.writing pool r).2.2 := by
  cases r with
  | error e => exact hp.continues
  | ok r => exact h r.1 r.2 rfl

/-- No operation makes another pool of its pool. -/
lemma apply_continues (b : Buffer) (hp : pool.Sound) (action : BufferAction) :
    pool.Continues (b.apply pool action).2.2 := by
  have same : ∀ {p : Pool}, p = pool → pool.Continues p := by
    rintro _ rfl
    exact hp.continues
  cases action with
  | readTo sink length =>
    rw [apply]
    split <;> exact same rfl
  | writeBool | writeByte | writeU8 | writeShort | writeInt | writeLong | writeFloat | writeDouble
  | writeBytes => exact writing_continues b hp fun _ _ => write_continues hp
  | writeFrom => exact writing_continues b hp fun _ _ => writeFrom_continues hp
  | getBytes | views | viewsOf | view | viewOf | toBytes => exact same rfl
  | readBool | readByte | readU8 | readShort | readInt | readLong | readFloat | readDouble | readBytes
  | readVec | readInto | skip | setReader | setWriter | mark | reset | retain | release =>
    exact same (reading_pool b pool _ _)

/-! ### The same operation over another pool -/

/-- Making room yields the same buffer over two sound pools with segments of one size. -/
lemma reserve_twin (b : Buffer) (hp : pool.Sound) (hq : other.Sound)
    (size : other.segmentSize = pool.segmentSize) (length : Nat) :
    Prod.fst <$> b.reserve other length = Prod.fst <$> b.reserve pool length := by
  rw [reserve, reserve]
  cases b.ensureLive with
  | error e => rfl
  | ok u =>
    change Prod.fst <$> (if b.writer + length ≤ b.capacity then _ else _) =
      Prod.fst <$> (if b.writer + length ≤ b.capacity then _ else _)
    split
    · rfl
    cases b.growth with
    | fixed => rfl
    | growable maximum =>
      change Prod.fst <$> (if maximum < b.writer + length then _ else _) =
        Prod.fst <$> (if maximum < b.writer + length then _ else _)
      split
      · rfl
      · change Except.ok (b.addSegment (b.nextSegment other maximum _).1) =
          Except.ok (b.addSegment (b.nextSegment pool maximum _).1)
        rw [nextSegment_fst b hq, nextSegment_fst b hp, size]

lemma map_fst_fill (r : Except BufferError (Buffer × Pool)) (bytes : Bytes) :
    Prod.fst <$> (do let (b, pool) ← r; return (b.fill bytes, pool) : Except BufferError (Buffer × Pool)) =
      (fun b => b.fill bytes) <$> Prod.fst <$> r := by
  cases r <;> rfl

lemma write_twin (b : Buffer) (hp : pool.Sound) (hq : other.Sound)
    (size : other.segmentSize = pool.segmentSize) (bytes : Bytes) :
    Prod.fst <$> b.write other bytes = Prod.fst <$> b.write pool bytes := by
  have hreserve := b.reserve_twin hp hq size bytes.length
  rw [write, write, map_fst_fill, map_fst_fill, hreserve]

lemma writeFrom_twin (b : Buffer) (hp : pool.Sound) (hq : other.Sound)
    (size : other.segmentSize = pool.segmentSize) (source : Bytes) (index length : Nat) :
    Prod.fst <$> b.writeFrom other source index length = Prod.fst <$> b.writeFrom pool source index length := by
  rw [writeFrom, writeFrom]
  cases checkSpan .writeBytesFrom index length source.length with
  | error e => rfl
  | ok u => exact b.write_twin hp hq size _

/-- Two runs of one operation answer the same and leave the same buffer. -/
def Twins (r r' : BufferOutcome × Buffer × Pool) : Prop :=
  r'.1 = r.1 ∧ r'.2.1 = r.2.1

lemma writing_twin (b : Buffer) {r r' : Except BufferError (Buffer × Pool)}
    (h : Prod.fst <$> r' = Prod.fst <$> r) : Twins (b.writing pool r) (b.writing other r') := by
  cases r with
  | error e =>
    cases r' with
    | error e' =>
      obtain rfl : e' = e := Except.error.inj h
      exact ⟨rfl, rfl⟩
    | ok x' => cases h
  | ok x =>
    cases r' with
    | error e' => cases h
    | ok x' => exact ⟨rfl, Except.ok.inj h⟩

lemma reading_twin {α : Type} (b : Buffer) (r : Except BufferError (α × Buffer)) (yield : α → BufferYield) :
    Twins (b.reading pool r yield) (b.reading other r yield) := by
  cases r <;> exact ⟨rfl, rfl⟩

/-- **One operation over two pools**: what it answers and leaves depends on the size of the pool's segments, and
not on what is in the pool. -/
theorem apply_twin (b : Buffer) (hp : pool.Sound) (hq : other.Sound)
    (size : other.segmentSize = pool.segmentSize) (action : BufferAction) :
    Twins (b.apply pool action) (b.apply other action) := by
  cases action with
  | readTo sink length =>
    rw [apply, apply]
    split <;> exact ⟨rfl, rfl⟩
  | writeBool | writeByte | writeU8 | writeShort | writeInt | writeLong | writeFloat | writeDouble
  | writeBytes => exact writing_twin b (b.write_twin hp hq size _)
  | writeFrom source index length => exact writing_twin b (b.writeFrom_twin hp hq size source index length)
  | getBytes | views | viewsOf | view | viewOf | toBytes => exact ⟨rfl, rfl⟩
  | readBool | readByte | readU8 | readShort | readInt | readLong | readFloat | readDouble | readBytes
  | readVec | readInto | skip | setReader | setWriter | mark | reset | retain | release =>
    exact reading_twin b _ _

lemma perform_concat (b : Buffer) (pool : Pool) (actions : List BufferAction) (action : BufferAction) :
    b.perform pool (actions ++ [action]) =
      let r := b.perform pool actions
      let r' := r.2.1.apply r.2.2 action
      (r.1 ++ [r'.1], r'.2) := by
  induction actions generalizing b pool with
  | nil => rfl
  | cons first rest ih =>
    have tail := ih (b.apply pool first).2.1 (b.apply pool first).2.2
    simp only [List.cons_append, perform, tail]

lemma perform_continues (b : Buffer) (hp : pool.Sound) (actions : List BufferAction) :
    pool.Continues (b.perform pool actions).2.2 := by
  induction actions generalizing b pool with
  | nil => exact hp.continues
  | cons action rest ih =>
    have first := b.apply_continues hp action
    exact first.trans (ih _ first.sound)

/-! ### What is not written is zero -/

/-- The buffer holds zeros from a position on. -/
def BlankFrom (b : Buffer) (n : Nat) : Prop :=
  ∀ i, n ≤ i → ∀ x ∈ b.flat.bytes[i]?, x = 0

lemma getElem?_place_of_le {target source : Bytes} {w i : Nat} (fits : w + source.length ≤ target.length)
    (beyond : w + source.length ≤ i) : (place target w source)[i]? = target[i]? := by
  have hlen : (target.take w ++ source).length = w + source.length := by
    rw [List.length_append, List.length_take, min_eq_left (by omega)]
  rw [place, List.getElem?_append_right (hlen ▸ beyond), hlen, List.getElem?_drop,
    Nat.add_sub_cancel' beyond]

variable {n m : Nat}

lemma BlankFrom.mono (h : b.BlankFrom n) (hle : n ≤ m) : b.BlankFrom m :=
  fun i hi => h i (hle.trans hi)

lemma BlankFrom.of_segments (h : b.BlankFrom n) (heq : b'.segments = b.segments) : b'.BlankFrom n := by
  intro i hi
  rw [flat, heq]
  exact h i hi

lemma BlankFrom.addSegment (h : b.BlankFrom n) (length : Nat) : (b.addSegment (zeros length)).BlankFrom n := by
  intro i hi x hx
  rw [flat_addSegment, List.getElem?_append] at hx
  split at hx
  · exact h i hi x hx
  · exact List.eq_of_mem_replicate (List.mem_of_getElem? hx)

lemma BlankFrom.fill (h : b.BlankFrom n) {bytes : Bytes} (room : bytes.length ≤ b.writable) :
    (b.fill bytes).BlankFrom (max n (b.writer + bytes.length)) := by
  have hw := b.writer_le
  have hcap := b.capacity_eq_length
  rw [writable] at room
  intro i hi x hx
  rw [flat_fill room, getElem?_place_of_le (by omega) ((le_max_right _ _).trans hi)] at hx
  exact h i ((le_max_left _ _).trans hi) x hx

lemma BlankFrom.reserve (h : b.BlankFrom n) (hp : pool.Sound) {length : Nat}
    (hr : b.reserve pool length = .ok (b', pool')) : b'.BlankFrom n := by
  obtain ⟨-, ⟨-, rfl, -⟩ | ⟨maximum, -, -, -, rfl, -⟩⟩ := reserve_cases hr
  · exact h
  · rw [nextSegment_fst b hp]
    exact h.addSegment _

/-- One past the highest position that going from one buffer to another wrote, if it moved the writing position by
writing. -/
def reached (before after : Buffer) : Nat :=
  if before.writer < after.writer then after.writer else 0

lemma BlankFrom.write (h : b.BlankFrom n) (hp : pool.Sound) {bytes : Bytes}
    (hw : b.write pool bytes = .ok (b', pool')) : b'.BlankFrom (max n (b.reached b')) := by
  obtain ⟨⟨b₁, pool₁⟩, hreserve, hw⟩ := exists_of_bind_eq_ok hw
  obtain ⟨rfl, -⟩ := Prod.mk.inj (Except.ok.inj hw)
  have room := (reserve_eq_ok hp hreserve).room
  have writer_eq := (reserve_extends hreserve).writer_eq
  have blank := h.reserve hp hreserve
  have moved : (b₁.fill bytes).writer = b₁.writer + bytes.length := congrArg FlatBuffer.writer (flat_fill room)
  cases bytes with
  | nil =>
    have same : (b₁.fill []).flat.bytes = b₁.flat.bytes := by
      rw [flat_fill room]
      simp [place]
    refine BlankFrom.mono (fun i hi x hx => ?_) (le_max_left _ _)
    exact blank i hi x (same ▸ hx)
  | cons byte bytes =>
    have forward : b.writer < (b₁.fill (byte :: bytes)).writer := by
      rw [moved, writer_eq, List.length_cons]
      omega
    rw [reached, if_pos forward, moved]
    exact blank.fill room

lemma BlankFrom.writeFrom (h : b.BlankFrom n) (hp : pool.Sound) {source : Bytes} {index length : Nat}
    (hw : b.writeFrom pool source index length = .ok (b', pool')) : b'.BlankFrom (max n (b.reached b')) := by
  obtain ⟨_, -, hw⟩ := exists_of_bind_eq_ok hw
  exact h.write hp hw

lemma BlankFrom.writing (h : b.BlankFrom n) {r : Except BufferError (Buffer × Pool)}
    (hr : ∀ b' pool', r = .ok (b', pool') → b'.BlankFrom (max n (b.reached b'))) (pool : Pool) :
    (b.writing pool r).2.1.BlankFrom (max n (b.reached (b.writing pool r).2.1)) := by
  cases r with
  | error e => exact h.mono (le_max_left _ _)
  | ok r => exact hr r.1 r.2 rfl

/-! ### What reading leaves alone -/

lemma read_segments {op : BufferOp} {length : Nat} {bytes : Bytes} (h : b.read op length = .ok (bytes, b')) :
    b'.segments = b.segments := by
  obtain ⟨_, -, h⟩ := exists_of_bind_eq_ok h
  obtain ⟨-, rfl⟩ := Prod.mk.inj (Except.ok.inj h)
  rfl

lemma readInto_segments {target bytes : Bytes} {index length : Nat}
    (h : b.readInto target index length = .ok (bytes, b')) : b'.segments = b.segments := by
  obtain ⟨_, -, h⟩ := exists_of_bind_eq_ok h
  obtain ⟨r, hread, h⟩ := exists_of_bind_eq_ok h
  obtain ⟨-, rfl⟩ := Prod.mk.inj (Except.ok.inj h)
  exact read_segments hread

lemma copyPieces_segments (sink : Sink) (b : Buffer) (taken : Bytes) (pieces : List Bytes) :
    (copyPieces sink b taken pieces).1.segments = b.segments := by
  induction pieces generalizing b taken with
  | nil => rfl
  | cons piece rest ih =>
    rw [copyPieces]
    split
    · rfl
    · exact ih _ _

lemma readTo_segments (b : Buffer) (sink : Sink) (length : Nat) :
    (b.readTo sink length).1.segments = b.segments := by
  rw [readTo]
  split
  · rfl
  · exact copyPieces_segments sink b [] _

lemma skip_segments {length : Nat} (h : b.skip length = .ok b') : b'.segments = b.segments := by
  obtain ⟨_, -, h⟩ := exists_of_bind_eq_ok h
  exact Except.ok.inj h ▸ rfl

lemma setReader_segments {index : Nat} (h : b.setReader index = .ok b') : b'.segments = b.segments := by
  obtain ⟨_, -, h⟩ := exists_of_bind_eq_ok h
  split at h
  · exact Except.ok.inj h ▸ rfl
  · cases h

lemma setWriter_segments {index : Nat} (h : b.setWriter index = .ok b') : b'.segments = b.segments := by
  obtain ⟨_, -, h⟩ := exists_of_bind_eq_ok h
  split at h
  · exact Except.ok.inj h ▸ rfl
  · cases h

lemma retain_segments (h : b.retain = .ok b') : b'.segments = b.segments := by
  obtain ⟨_, -, h⟩ := exists_of_bind_eq_ok h
  exact Except.ok.inj h ▸ rfl

lemma release_segments {last : Bool} (h : b.release = .ok (last, b')) : b'.segments = b.segments := by
  rw [release] at h
  split at h
  · cases h
  · obtain ⟨-, rfl⟩ := Prod.mk.inj (Except.ok.inj h)
    rfl

lemma reading_segments {α : Type} {r : Except BufferError (α × Buffer)}
    (h : ∀ x b', r = .ok (x, b') → b'.segments = b.segments) (pool : Pool) (yield : α → BufferYield) :
    (b.reading pool r yield).2.1.segments = b.segments := by
  cases r with
  | error e => rfl
  | ok r => exact h r.1 r.2 rfl

lemma changing_segments {r : Except BufferError Buffer} (h : ∀ b', r = .ok b' → b'.segments = b.segments)
    (pool : Pool) : (b.changing pool r).2.1.segments = b.segments := by
  refine reading_segments (fun _ b' hr => ?_) pool _
  cases r with
  | error e => cases hr
  | ok b₁ => exact (Prod.mk.inj (Except.ok.inj hr)).2 ▸ h b₁ rfl

end Buffer

/-- Whether an operation writes. -/
def BufferAction.isWrite : BufferAction → Bool
  | .writeBool _ | .writeByte _ | .writeU8 _ | .writeShort _ | .writeInt _ | .writeLong _ | .writeFloat _
  | .writeDouble _ | .writeBytes _ | .writeFrom _ _ _ => true
  | _ => false

namespace Buffer

variable {b : Buffer} {pool : Pool} {n : Nat}

/-- An operation that does not write leaves every byte as it is. -/
lemma apply_segments (b : Buffer) (pool : Pool) {action : BufferAction} (h : action.isWrite = false) :
    (b.apply pool action).2.1.segments = b.segments := by
  cases action with
  | readTo sink length =>
    have segments := readTo_segments b sink length
    rw [apply]
    split
    next hr => rwa [hr] at segments
    next hr => rwa [hr] at segments
  | readBool | readByte | readU8 | readShort | readInt | readLong | readFloat | readDouble | readBytes
  | readVec => exact reading_segments (fun _ _ => read_segments) pool _
  | readInto => exact reading_segments (fun _ _ => readInto_segments) pool _
  | skip => exact changing_segments (fun _ => skip_segments) pool
  | setReader => exact changing_segments (fun _ => setReader_segments) pool
  | setWriter => exact changing_segments (fun _ => setWriter_segments) pool
  | retain => exact changing_segments (fun _ => retain_segments) pool
  | release => exact reading_segments (fun _ _ => release_segments) pool _
  | mark | reset | getBytes | views | viewsOf | view | viewOf | toBytes => rfl
  | writeBool | writeByte | writeU8 | writeShort | writeInt | writeLong | writeFloat | writeDouble | writeBytes
  | writeFrom => cases h

/-- One past the highest position that an operation wrote. -/
def reachedBy (action : BufferAction) (before after : Buffer) : Nat :=
  if action.isWrite then before.reached after else 0

/-- **One operation** leaves zeros above whatever has been written, be it before or now. -/
theorem BlankFrom.apply (h : b.BlankFrom n) (hp : pool.Sound) (action : BufferAction) :
    (b.apply pool action).2.1.BlankFrom (max n (reachedBy action b (b.apply pool action).2.1)) := by
  by_cases hwrite : action.isWrite = true
  · rw [reachedBy, if_pos hwrite]
    cases action with
    | writeBool | writeByte | writeU8 | writeShort | writeInt | writeLong | writeFloat | writeDouble
    | writeBytes => exact h.writing (fun _ _ => h.write hp) pool
    | writeFrom => exact h.writing (fun _ _ => h.writeFrom hp) pool
    | _ => cases hwrite
  · have kept := b.apply_segments pool (Bool.eq_false_of_not_eq_true hwrite)
    exact (h.of_segments kept).mono (le_max_left _ _)

lemma blankFrom_ofPool (hp : pool.Sound) (maximum : Nat) : (ofPool pool maximum).1.BlankFrom 0 := by
  intro i _ x hx
  rw [ofPool_flat hp] at hx
  exact List.eq_of_mem_replicate (List.mem_of_getElem? hx)

/-- What lies above everything written reads as zeros. -/
lemma BlankFrom.getBytes (h : b.BlankFrom n) (live : b.references ≠ 0) {index length : Nat} (above : n ≤ index)
    (within : index + length ≤ b.capacity) : b.getBytes index length = .ok (zeros length) := by
  have hspan : b.span index length = zeros length := by
    rw [span_eq_flat, FlatBuffer.span, zeros, List.eq_replicate_iff]
    constructor
    · have hcap := b.capacity_eq_length
      rw [List.length_take, List.length_drop]
      omega
    · intro x hx
      obtain ⟨i, hi⟩ := List.mem_iff_getElem?.mp (List.mem_of_mem_take hx)
      rw [List.getElem?_drop] at hi
      exact h (index + i) (above.trans (Nat.le_add_right _ _)) x hi
  rw [Buffer.getBytes, ensureLive, if_neg live, checkSpan, if_pos within, hspan]
  rfl

end Buffer

/-! ### Buffers over one pool -/

/-- A buffer over a shared pool, and what is known of it from outside. -/
structure Tenant where
  /-- The buffer, until it is dropped. -/
  buffer : Option Buffer
  maximum : Nat
  /-- What was done with it so far, and what it answered. -/
  actions : List BufferAction := []
  outcomes : List BufferOutcome := []
  /-- One past the highest position ever written. -/
  peak : Nat := 0

/-- A pool and the buffers that were ever made from it, oldest first. -/
structure Commons where
  pool : Pool
  tenants : List Tenant := []

/-- What can happen to the buffers of a pool. -/
inductive Commons.Event where
  | create (maximum : Nat)
  | operate (i : Nat) (action : BufferAction)
  | drop (i : Nat)

/-- A tenant after an operation on its buffer, and the pool. -/
def Tenant.operate (t : Tenant) (b : Buffer) (pool : Pool) (action : BufferAction) : Tenant × Pool :=
  let (outcome, after, pool) := b.apply pool action
  ({ t with
      buffer := some after
      actions := t.actions ++ [action]
      outcomes := t.outcomes ++ [outcome]
      peak := max t.peak (Buffer.reachedBy action b after) }, pool)

/-- A tenant that is no longer needed, and the pool with its segments. -/
def Tenant.drop (t : Tenant) (b : Buffer) (pool : Pool) : Tenant × Pool :=
  ({ t with buffer := none }, b.drop pool)

namespace Commons

/-- A new pool. -/
def start (segmentSize maxIdle : Nat) (direct : Bool) : Commons where
  pool := Pool.make segmentSize maxIdle direct

/-- Does something with a buffer that is still there. -/
def tend (c : Commons) (i : Nat) (f : Tenant → Buffer → Pool → Tenant × Pool) : Commons :=
  match c.tenants[i]? with
  | none => c
  | some t =>
    match t.buffer with
    | none => c
    | some b =>
      let (t, pool) := f t b c.pool
      { pool, tenants := c.tenants.set i t }

/-- One event. -/
def step (c : Commons) : Event → Commons
  | .create maximum =>
    let (b, pool) := Buffer.ofPool c.pool maximum
    { pool, tenants := c.tenants ++ [{ buffer := some b, maximum }] }
  | .operate i action => c.tend i fun t b pool => t.operate b pool action
  | .drop i => c.tend i Tenant.drop

/-- A history. -/
def run (c : Commons) (events : List Event) : Commons :=
  events.foldl step c

end Commons

/-! ### What a history keeps -/

/-- What a tenant's actions come to on a buffer whose pool is its own and keeps no segments. -/
def Tenant.alone (t : Tenant) (segmentSize : Nat) (direct : Bool) : List BufferOutcome × Buffer × Pool :=
  let (b, pool) := Buffer.ofPool (Pool.make segmentSize 0 direct) t.maximum
  b.perform pool t.actions

/-- A tenant is as it would be alone, and shows nothing above what it has written. -/
structure Tenant.Secluded (segmentSize : Nat) (direct : Bool) (t : Tenant) : Prop where
  outcomes_eq : t.outcomes = (t.alone segmentSize direct).1
  buffer_eq : ∀ b ∈ t.buffer, b = (t.alone segmentSize direct).2.1
  blank : ∀ b ∈ t.buffer, b.BlankFrom t.peak

namespace Tenant

variable {t : Tenant} {b : Buffer} {pool : Pool} {segmentSize maxIdle : Nat} {direct : Bool}

lemma alone_pool (t : Tenant) (segmentSize : Nat) (direct : Bool) :
    (Pool.make segmentSize 0 direct).Continues (t.alone segmentSize direct).2.2 := by
  have taken := (Pool.Sound.make segmentSize 0 direct).acquire_continues 1
  exact taken.trans (Buffer.perform_continues _ taken.sound t.actions)

/-- A new tenant has the buffer that it would have alone. -/
lemma Secluded.create (hp : (Pool.make segmentSize maxIdle direct).Continues pool) (maximum : Nat) :
    Secluded segmentSize direct { buffer := some (Buffer.ofPool pool maximum).1, maximum } where
  outcomes_eq := rfl
  buffer_eq b hb := by
    obtain rfl := Option.some.inj hb
    have fresh : (Pool.make segmentSize 0 direct).Sound := .make segmentSize 0 direct
    have segment : (pool.acquire 1).1 = ((Pool.make segmentSize 0 direct).acquire 1).1 := by
      rw [hp.sound.acquire_fst, fresh.acquire_fst, hp.segmentSize_eq]
      rfl
    have flag : (pool.acquire 1).2.direct = ((Pool.make segmentSize 0 direct).acquire 1).2.direct := by
      rw [(hp.sound.acquire_continues 1).direct_eq, (fresh.acquire_continues 1).direct_eq, hp.direct_eq]
      rfl
    change Buffer.ofSegments (pool.acquire 1).1 [] 0 (.growable maximum) (pool.acquire 1).2.direct true _ =
      Buffer.ofSegments ((Pool.make segmentSize 0 direct).acquire 1).1 [] 0 (.growable maximum)
        ((Pool.make segmentSize 0 direct).acquire 1).2.direct true _
    simp only [segment, flag]
  blank b hb := by
    obtain rfl := Option.some.inj hb
    exact Buffer.blankFrom_ofPool hp.sound maximum

lemma alone_operate (t : Tenant) (b : Buffer) (pool : Pool) (action : BufferAction) (segmentSize : Nat)
    (direct : Bool) :
    (t.operate b pool action).1.alone segmentSize direct =
      let r := t.alone segmentSize direct
      let r' := r.2.1.apply r.2.2 action
      (r.1 ++ [r'.1], r'.2) :=
  Buffer.perform_concat _ _ t.actions action

/-- An operation over the shared pool answers what it would answer alone. -/
lemma Secluded.operate (h : t.Secluded segmentSize direct) (hb : b ∈ t.buffer)
    (hp : (Pool.make segmentSize maxIdle direct).Continues pool) (action : BufferAction) :
    (t.operate b pool action).1.Secluded segmentSize direct := by
  have own := t.alone_pool segmentSize direct
  have size : pool.segmentSize = (t.alone segmentSize direct).2.2.segmentSize :=
    hp.segmentSize_eq.trans own.segmentSize_eq.symm
  have twin := b.apply_twin own.sound hp.sound size action
  have alone := t.alone_operate b pool action segmentSize direct
  simp only [← h.buffer_eq b hb] at alone
  refine ⟨?_, fun after hafter => ?_, fun after hafter => ?_⟩
  · rw [alone, ← h.outcomes_eq, ← twin.1]
    rfl
  · obtain rfl := Option.some.inj hafter
    rw [alone]
    exact twin.2
  · obtain rfl := Option.some.inj hafter
    exact (h.blank b hb).apply hp.sound action

lemma Secluded.drop (h : t.Secluded segmentSize direct) (b : Buffer) (pool : Pool) :
    (t.drop b pool).1.Secluded segmentSize direct :=
  ⟨h.outcomes_eq, nofun, nofun⟩

end Tenant

namespace Commons

variable {c : Commons} {segmentSize maxIdle : Nat} {direct : Bool}

/-- The pool is sound and of its make, and every tenant is as it would be alone. -/
structure Kept (segmentSize maxIdle : Nat) (direct : Bool) (c : Commons) : Prop where
  pool : (Pool.make segmentSize maxIdle direct).Continues c.pool
  tenants : ∀ t ∈ c.tenants, t.Secluded segmentSize direct

lemma Kept.tend (h : c.Kept segmentSize maxIdle direct) (i : Nat) {f : Tenant → Buffer → Pool → Tenant × Pool}
    (hf : ∀ t b, t.Secluded segmentSize direct → b ∈ t.buffer →
      (f t b c.pool).1.Secluded segmentSize direct ∧ c.pool.Continues (f t b c.pool).2) :
    (c.tend i f).Kept segmentSize maxIdle direct := by
  rw [Commons.tend]
  split
  · exact h
  next t ht =>
    split
    · exact h
    next b hb =>
      obtain ⟨secluded, continues⟩ := hf t b (h.tenants t (List.mem_of_getElem? ht)) hb
      refine ⟨h.pool.trans continues, fun t' ht' => ?_⟩
      rcases List.mem_or_eq_of_mem_set ht' with old | rfl
      · exact h.tenants t' old
      · exact secluded

/-- **One event.** -/
theorem step_kept (h : c.Kept segmentSize maxIdle direct) (event : Event) :
    (c.step event).Kept segmentSize maxIdle direct := by
  have sound := h.pool.sound
  cases event with
  | create maximum =>
    refine ⟨h.pool.trans (sound.acquire_continues 1), fun t ht => ?_⟩
    rcases List.mem_append.mp ht with old | new
    · exact h.tenants t old
    · obtain rfl := List.mem_singleton.mp new
      exact .create h.pool maximum
  | operate i action =>
    change (c.tend i fun t b pool => t.operate b pool action).Kept segmentSize maxIdle direct
    exact h.tend i fun t b ht hb => ⟨ht.operate hb h.pool action, b.apply_continues sound action⟩
  | drop i => exact h.tend i fun t b ht _ => ⟨ht.drop b c.pool, b.drop_continues sound⟩

lemma run_kept (h : c.Kept segmentSize maxIdle direct) (events : List Event) :
    (c.run events).Kept segmentSize maxIdle direct := by
  induction events generalizing c with
  | nil => exact h
  | cons event rest ih => exact ih (step_kept h event)

lemma start_kept (segmentSize maxIdle : Nat) (direct : Bool) :
    (start segmentSize maxIdle direct).Kept segmentSize maxIdle direct :=
  ⟨(Pool.Sound.make segmentSize maxIdle direct).continues, nofun⟩

/-- **Pooled memory never shows old contents.** After every history of the buffers of a pool, the idle segments are
not too many, of the size of the pool and blank; every live buffer reads as zeros from the highest position ever
written in it on; and what a buffer has answered and is now depends on its own maximum and what was done with it
alone: in any other history, over a pool with segments of the same size, the same actions on another buffer were
answered the same. -/
theorem secluded (segmentSize maxIdle : Nat) (direct : Bool) (events : List Event) :
    let c := (start segmentSize maxIdle direct).run events
    (c.pool.idle.length ≤ maxIdle ∧ ∀ s ∈ c.pool.idle, s = zeros (max segmentSize 1)) ∧
      (∀ t ∈ c.tenants, ∀ b ∈ t.buffer, b.references ≠ 0 → ∀ index length, t.peak ≤ index →
        index + length ≤ b.capacity → b.getBytes index length = .ok (zeros length)) ∧
      ∀ maxIdle' events', ∀ t ∈ c.tenants, ∀ t' ∈ ((start segmentSize maxIdle' direct).run events').tenants,
        t'.maximum = t.maximum → t'.actions = t.actions →
          t'.outcomes = t.outcomes ∧ ∀ b ∈ t.buffer, ∀ b' ∈ t'.buffer, b' = b := by
  intro c
  have kept (maxIdle events) : ((start segmentSize maxIdle direct).run events).Kept segmentSize maxIdle direct :=
    run_kept (start_kept segmentSize maxIdle direct) events
  have pool := (kept maxIdle events).pool
  refine ⟨⟨?_, fun s hs => ?_⟩, fun t ht b hb live index length above within => ?_, ?_⟩
  · exact pool.sound.idle_le.trans pool.maxIdle_eq.le
  · exact (pool.sound.idle_eq s hs).trans (congrArg zeros pool.segmentSize_eq)
  · exact (((kept maxIdle events).tenants t ht).blank b hb).getBytes live above within
  · intro maxIdle' events' t ht t' ht' maximum actions
    have one := (kept maxIdle events).tenants t ht
    have two := (kept maxIdle' events').tenants t' ht'
    have same : t'.alone segmentSize direct = t.alone segmentSize direct := by
      rw [Tenant.alone, Tenant.alone, maximum, actions]
    refine ⟨?_, fun b hb b' hb' => ?_⟩
    · rw [one.outcomes_eq, two.outcomes_eq, same]
    · rw [one.buffer_eq b hb, two.buffer_eq b' hb', same]

/-- A segment full of other bytes comes back blank. -/
example : (((start 2 1 false).run [.create 8, .operate 0 (.writeBytes [1, 2]), .drop 0, .create 8,
    .operate 1 (.getBytes 0 2)]).tenants.map fun t => t.outcomes.map fun o => o.result.toOption) =
      [[some .done], [some (.bytes [0, 0])]] := by
  decide

end Commons

end GraphServer
