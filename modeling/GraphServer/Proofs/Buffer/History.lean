import GraphServer.Buffer.Bench
import GraphServer.Proofs.Buffer.Typed

/-!
Buffers with a history: several of them side by side, made in any way, some of them sharing pools.

* `Bench.Reachable`: what making buffers, operating on them and giving them up can lead to;
* `Bench.Reachable.sound`: every pool stays sound, whatever the buffers over it do;
* `Bench.Reachable.refinesArray`: **every buffer on the way is one array of bytes**, however it is cut.
-/

namespace GraphServer

/-! ### One buffer -/

/-- A buffer is as good as one array: its positions are in order and its capacity is what its segments hold,
every run of operations answers what the array answers, written spans are seen whole, and what was written by type is
read back by type. -/
structure Buffer.RefinesArray (b : Buffer) (pool : Pool) : Prop where
  reader_le : b.reader ≤ b.writer
  writer_le : b.writer ≤ b.capacity
  capacity_eq : b.capacity = (b.segments.map List.length).sum
  one_le_segments : 1 ≤ b.segments.length
  runs : ∀ actions, b.flat.Runs pool.segmentSize actions
    (b.perform pool actions).1 (b.perform pool actions).2.1.flat
  viewed : b.references ≠ 0 → ∀ index length, index + length ≤ b.writer →
    ∃ pieces v, b.Viewed index length pieces v
  written : ∀ ts : List TypedValue, b.HasRoom (ts.flatMap TypedValue.encoding).length →
    ∀ o ∈ (b.perform pool (ts.map TypedValue.write)).1, o.result = .ok .done
  read_back : b.references ≠ 0 → b.reader = b.writer → ∀ (ts : List TypedValue) (b₁ b₂ : Buffer) (p₁ p₂ : Pool)
    (writes reads : List BufferOutcome),
    b.perform pool (ts.map TypedValue.write) = (writes, b₁, p₁) → (∀ o ∈ writes, o.result = .ok .done) →
    b₁.perform p₁ (ts.map TypedValue.read) = (reads, b₂, p₂) →
    reads.map BufferOutcome.result = ts.map (fun t => .ok t.yield) ∧
      b₂.reader = b₂.writer ∧ b₂.writer = b₁.writer

lemma Buffer.refinesArray_of_sound (b : Buffer) {pool : Pool} (hp : pool.Sound) : b.RefinesArray pool where
  reader_le := b.reader_le
  writer_le := b.writer_le
  capacity_eq := by rw [b.capacity_eq, totalLength_eq, List.length_flatten]
  one_le_segments := List.length_pos_of_ne_nil b.segments_ne
  runs := b.perform_runs hp
  viewed live _ _ h := exists_viewed live h
  written ts room := perform_writes_ok hp ts room
  read_back live empty ts b₁ b₂ p₁ p₂ writes reads hwrites hok hreads := by
    have wrote : b.WroteAll ts b₁ := by
      have h := perform_writes hp ts (by rwa [hwrites])
      rwa [hwrites] at h
    rw [reader_eq_writer_iff] at empty
    have hunread : b₁.unread = ts.flatMap TypedValue.encoding ++ [] := by
      rw [wrote.unread_eq, empty, List.nil_append, List.append_nil]
    have h := perform_reads p₁ (wrote.references_eq ▸ live) ts hunread
    rw [hreads] at h
    exact ⟨h.1, (reader_eq_writer_iff b₂).mpr h.2.1, h.2.2⟩

/-! ### New buffers -/

namespace FlatBuffer

/-- An array of zeros with nothing written. -/
def blank (length : Nat) (growth : Growth) (pooled : Bool) : FlatBuffer where
  bytes := zeros length
  reader := 0
  writer := 0
  mark := none
  growth
  pooled
  references := 1

/-- An array of given bytes, all written. -/
def full (bytes : Bytes) : FlatBuffer where
  bytes
  reader := 0
  writer := bytes.length
  mark := none
  growth := .fixed
  pooled := false
  references := 1

/-- A new array; `segmentSize` is the size of a segment of each pool. -/
def ofOrigin (segmentSize : String → Nat) : BufferOrigin → FlatBuffer
  | .default => blank 256 (.growable 0x7FFFFFFF) false
  | .fixed capacity => blank capacity .fixed false
  | .growable initial maximum => blank (min initial maximum) (.growable maximum) false
  | .wrap bytes => full bytes
  | .segments segments => full segments.flatten
  | .allocator a =>
    if a.kind.isPooled then blank (max a.segmentSize 1) (.growable a.maxCapacity) true
    else blank (min 256 a.maxCapacity) (.growable a.maxCapacity) false
  | .pool name maximum => blank (segmentSize name) (.growable maximum) true

end FlatBuffer

lemma Buffer.ofSegments_zeros_flat (length : Nat) (growth : Growth) (direct pooled : Bool)
    (h : 0 ≤ totalLength [zeros length]) :
    (Buffer.ofSegments (zeros length) [] 0 growth direct pooled h).flat =
      FlatBuffer.blank length growth pooled := by
  change (⟨[zeros length].flatten, _, _, _, _, _, _⟩ : FlatBuffer) = _
  rw [List.flatten_singleton]
  rfl

lemma Buffer.wrap_flat (bytes : Bytes) : (Buffer.wrap bytes).flat = FlatBuffer.full bytes := by
  change (⟨[bytes].flatten, _, _, _, _, _, _⟩ : FlatBuffer) = _
  rw [List.flatten_singleton]
  rfl

lemma Buffer.wrapSegments_flat (segments : List Bytes) :
    (Buffer.wrapSegments segments).flat = FlatBuffer.full segments.flatten := by
  have hjoin : (segments.filter (!·.isEmpty)).flatten = segments.flatten := by
    induction segments with
    | nil => rfl
    | cons s rest ih =>
      cases s with
      | nil => simpa using ih
      | cons x xs => simp [ih]
  rw [wrapSegments, FlatBuffer.full, ← hjoin]
  cases segments.filter (!·.isEmpty) with
  | nil => rfl
  | cons s rest =>
    change (⟨_, _, totalLength (s :: rest), _, _, _, _⟩ : FlatBuffer) = _
    rw [totalLength_eq]
    rfl

lemma Buffer.ofPool_flat {pool : Pool} (hp : pool.Sound) (maximum : Nat) :
    (Buffer.ofPool pool maximum).1.flat = FlatBuffer.blank pool.segmentSize (.growable maximum) true := by
  have hfst : (pool.acquire 1).1 = zeros pool.segmentSize := by
    rw [hp.acquire_fst, max_eq_left hp.segmentSize_pos]
  change (⟨[(pool.acquire 1).1].flatten, _, _, _, _, _, _⟩ : FlatBuffer) = _
  rw [hfst, List.flatten_singleton]
  rfl

lemma Allocator.allocate_flat (a : Allocator) :
    (a.allocate a.pool).1.flat =
        (if a.kind.isPooled then FlatBuffer.blank (max a.segmentSize 1) (.growable a.maxCapacity) true
        else FlatBuffer.blank (min 256 a.maxCapacity) (.growable a.maxCapacity) false) ∧
      (a.allocate a.pool).2.Sound := by
  have hp : a.pool.Sound := Pool.Sound.make a.segmentSize maxIdle (a.kind == .pooledDirect)
  rw [allocate]
  split
  · exact ⟨Buffer.ofPool_flat hp a.maxCapacity, hp.acquire 1⟩
  · exact ⟨Buffer.ofSegments_zeros_flat (min 256 a.maxCapacity) _ _ _ _, hp⟩

namespace Bench

/-! ### Histories -/

/-- What a bench can come to: pools are set up, buffers are made, looked at, operated on and given up, in any
order. -/
inductive Reachable : Bench → Prop
  | start : Reachable {}
  | setPool {b : Bench} (name : String) (segmentSize maxIdle : Nat) (direct : Bool) :
    Reachable b → Reachable (b.setPool name (Pool.make segmentSize maxIdle direct))
  | make {b : Bench} (name : String) (origin : BufferOrigin) : Reachable b → Reachable (b.make name origin)
  | select {b : Bench} (name : String) : Reachable b → Reachable (b.select name)
  | discard {b : Bench} (name : String) : Reachable b → Reachable (b.discard name).2
  | operate {b b' : Bench} {action : BufferAction} {outcome : BufferOutcome} :
    Reachable b → b.operate? action = some (outcome, b') → Reachable b'

/-- Every pool of a bench is sound. -/
def Sound (b : Bench) : Prop :=
  ∀ name, (b.pool name).Sound

variable {b : Bench}

lemma lookup_put {α : Type} (name other : String) (x : α) (entries : List (String × α)) :
    (put name x entries).lookup other = if other = name then some x else entries.lookup other := by
  rw [put, List.lookup_cons]
  by_cases h : other = name
  · simp [h]
  · have hne : (other == name) = false := by simpa using h
    rw [hne, if_neg h]
    change (entries.filter _).lookup other = _
    induction entries with
    | nil => rfl
    | cons e entries ih =>
      obtain ⟨key, y⟩ := e
      by_cases he : key = name
      · subst he
        rw [List.filter_cons_of_neg (by simp), List.lookup_cons, hne]
        exact ih
      · rw [List.filter_cons_of_pos (by simpa using he), List.lookup_cons, List.lookup_cons, ih]

lemma pool_setPool (b : Bench) (name other : String) (p : Pool) :
    (b.setPool name p).pool other = if other = name then p else b.pool other := by
  rw [pool, setPool, lookup_put]
  split <;> rfl

lemma Sound.setPool (h : b.Sound) {p : Pool} (hp : p.Sound) (name : String) : (b.setPool name p).Sound := by
  intro other
  rw [pool_setPool]
  split
  · exact hp
  · exact h other

lemma Sound.of_pools {b' : Bench} (h : b.Sound) (heq : b'.pools = b.pools) : b'.Sound := by
  intro name
  rw [pool, heq]
  exact h name

lemma Sound.discard (h : b.Sound) (name : String) : (b.discard name).2.Sound := by
  rw [Bench.discard]
  split
  · exact h
  next buffer poolName _ =>
    have hdrop := buffer.drop_sound (h poolName)
    exact (h.setPool hdrop poolName).of_pools rfl

/-- A new buffer is the new array of its origin, and its pool is sound after that. -/
lemma Sound.build (h : b.Sound) (origin : BufferOrigin) :
    (b.build origin).1.flat = FlatBuffer.ofOrigin (fun name => (b.pool name).segmentSize) origin ∧
      (b.build origin).2.2.Sound := by
  cases origin with
  | default => exact ⟨Buffer.ofSegments_zeros_flat _ _ _ _ _, h ""⟩
  | fixed capacity => exact ⟨Buffer.ofSegments_zeros_flat _ _ _ _ _, h ""⟩
  | growable initial maximum => exact ⟨Buffer.ofSegments_zeros_flat _ _ _ _ _, h ""⟩
  | wrap bytes => exact ⟨Buffer.wrap_flat bytes, h ""⟩
  | segments segments => exact ⟨Buffer.wrapSegments_flat segments, h ""⟩
  | allocator a => exact a.allocate_flat
  | pool name maximum => exact ⟨Buffer.ofPool_flat (h name) maximum, (h name).acquire 1⟩

lemma Sound.make (h : b.Sound) (name : String) (origin : BufferOrigin) : (b.make name origin).Sound := by
  have hbuild := (h.build origin).2
  exact ((h.setPool hbuild (b.build origin).2.1).discard name).of_pools rfl

lemma Sound.operate (h : b.Sound) {b' : Bench} {action : BufferAction} {outcome : BufferOutcome}
    (ho : b.operate? action = some (outcome, b')) : b'.Sound := by
  rw [operate?] at ho
  obtain ⟨⟨buffer, name⟩, -, heq⟩ := Option.map_eq_some_iff.mp ho
  obtain ⟨-, rfl⟩ := Prod.mk.inj heq
  have happly := (buffer.apply_pool (h name) action).1
  exact (h.setPool happly name).of_pools rfl

/-- Every pool stays sound along every history. -/
lemma Reachable.sound (h : b.Reachable) : b.Sound := by
  induction h with
  | start => exact fun name => Pool.Sound.make 1 0 false
  | setPool name segmentSize maxIdle direct _ ih =>
    exact ih.setPool (Pool.Sound.make segmentSize maxIdle direct) name
  | make name origin _ ih => exact ih.make name origin
  | select name _ ih => exact ih.of_pools rfl
  | discard name _ ih => exact ih.discard name
  | operate _ ho ih => exact ih.operate ho

/-- **A segmented buffer is one array of bytes.** Wherever a history of buffers leads, a new buffer is the new
array of its origin, and every buffer on the bench keeps its positions in order, answers every operation as
its array does, shows what is written, and gives back by type what was written by type. -/
theorem Reachable.refinesArray (h : b.Reachable) :
    (∀ origin, (b.build origin).1.flat = FlatBuffer.ofOrigin (fun name => (b.pool name).segmentSize) origin) ∧
      ∀ name buffer poolName, b.buffers.lookup name = some (buffer, poolName) →
        buffer.RefinesArray (b.pool poolName) :=
  ⟨fun origin => (h.sound.build origin).1, fun _ buffer poolName _ => buffer.refinesArray_of_sound (h.sound poolName)⟩

/-- Five bytes in two segments, the empty one between them left out. -/
def inTwoSegments : Bench :=
  ({} : Bench).make "b" (.segments [[1, 2], [], [3, 4, 5]])

theorem refinesArray_inTwoSegments :
    inTwoSegments.Reachable ∧ ∃ buffer, inTwoSegments.buffers.lookup "b" = some (buffer, "") ∧
      buffer.segments = [[1, 2], [3, 4, 5]] ∧ buffer.RefinesArray (inTwoSegments.pool "") ∧
      ∃ pieces v, buffer.Viewed 1 3 pieces v := by
  have reachable : inTwoSegments.Reachable := .make "b" _ .start
  have refines := reachable.refinesArray.2 "b" (.wrapSegments [[1, 2], [], [3, 4, 5]]) "" rfl
  exact ⟨reachable, _, rfl, rfl, refines, refines.viewed (by decide) 1 3 (by decide)⟩

end Bench

end GraphServer
