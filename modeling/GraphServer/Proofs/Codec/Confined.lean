import GraphServer.Codec.Standard
import GraphServer.Codec.Transfer
import GraphServer.Proofs.Buffer.Atomic
import GraphServer.Proofs.Buffer.History

/-!
Encodings in buffers that are too small for them.

An encoding is written chunk by chunk. A chunk that does not fit is refused as a whole and ends the writing, so that
what stands in the buffer is a run of whole chunks from the front of the encoding, and how long a run depends on the
room alone.

* `Encoding.fitting`, `Encoding.refused?`: the chunks that fit into so much room, and the one that does not;
* `Buffer.Standalone.write`, `Buffer.Standalone.writeChunks`: one chunk and all of them, on a buffer of its own;
* `Bench.Reachable.standalone`: a live buffer that is not over a pool is one of its own, whatever its history;
* `Bench.Reachable.confines`: **an encoding is written whole or up to a proper part of it**.
-/

namespace GraphServer

/-! ### Chunks in so much room -/

namespace Encoding

/-- The chunks that fit into so much room, up to the first that does not. -/
def fitting : (room : Nat) → List Bytes → List Bytes
  | _, [] => []
  | room, chunk :: rest => if chunk.length ≤ room then chunk :: fitting (room - chunk.length) rest else []

/-- The first chunk that does not fit into the room that those before it leave. -/
def refused? : (room : Nat) → List Bytes → Option Bytes
  | _, [] => none
  | room, chunk :: rest => if chunk.length ≤ room then refused? (room - chunk.length) rest else some chunk

variable {room : Nat} {chunks : List Bytes}

/-- Everything fits just if all chunks together are no longer than the room. -/
lemma refused?_eq_none_iff : refused? room chunks = none ↔ chunks.flatten.length ≤ room := by
  induction chunks generalizing room with
  | nil => exact ⟨fun _ => Nat.zero_le room, fun _ => rfl⟩
  | cons chunk rest ih =>
    rw [refused?, List.flatten_cons, List.length_append]
    split
    · rw [ih]
      omega
    · exact ⟨nofun, fun h => by omega⟩

lemma fitting_of_le (h : chunks.flatten.length ≤ room) : fitting room chunks = chunks := by
  induction chunks generalizing room with
  | nil => rfl
  | cons chunk rest ih =>
    rw [List.flatten_cons, List.length_append] at h
    rw [fitting, if_pos (by omega), ih (by omega)]

/-- What fits and the first chunk that does not: they follow each other in the encoding and are together longer than
the room. -/
structure Refuses (room : Nat) (chunks : List Bytes) (chunk : Bytes) : Prop where
  run : fitting room chunks ++ [chunk] <+: chunks
  fits : (fitting room chunks).flatten.length ≤ room
  beyond : room < (fitting room chunks).flatten.length + chunk.length

lemma refuses_of_refused? {chunk : Bytes} (h : refused? room chunks = some chunk) : Refuses room chunks chunk := by
  induction chunks generalizing room with
  | nil => cases h
  | cons first rest ih =>
    rw [refused?] at h
    split at h
    next hle =>
      obtain ⟨run, fits, beyond⟩ := ih h
      have hcons : fitting room (first :: rest) = first :: fitting (room - first.length) rest := by
        rw [fitting, if_pos hle]
      refine ⟨?_, ?_, ?_⟩
      · rw [hcons, List.cons_append, List.prefix_cons_inj]
        exact run
      · rw [hcons, List.flatten_cons, List.length_append]
        omega
      · rw [hcons, List.flatten_cons, List.length_append]
        omega
    next hlt =>
      cases h
      have hnil : fitting room (chunk :: rest) = [] := by rw [fitting, if_neg hlt]
      rw [not_le] at hlt
      refine ⟨?_, ?_, ?_⟩
      · rw [hnil]
        exact ⟨rest, rfl⟩
      · rw [hnil]
        exact Nat.zero_le room
      · rw [hnil, List.flatten_nil, List.length_nil]
        omega

end Encoding

/-! ### Buffers of their own -/

namespace Buffer

variable {b b' b'' : Buffer} {pool : Pool}

/-- The bytes before the writing position. -/
def written (b : Buffer) : Bytes :=
  b.flat.bytes.take b.writer

/-- A live buffer that takes no segments from a pool, and so never has more room than its maximum. -/
structure Standalone (b : Buffer) : Prop where
  live : b.references ≠ 0
  unpooled : ∀ maximum, b.growth = .growable maximum → b.pooled = false
  capacity_le : b.capacity ≤ b.top

lemma Standalone.limit_eq (h : b.Standalone) : b.limit = b.top := by
  have hle := h.capacity_le
  rw [top] at hle
  rw [limit, top]
  cases hg : b.growth with
  | fixed => rfl
  | growable maximum =>
    rw [hg] at hle
    exact max_eq_right hle

/-- Going from one buffer of its own to another appends bytes at the writing position and changes nothing else that
is written, nor how far writing can go. -/
structure Appends (b : Buffer) (bytes : Bytes) (b' : Buffer) : Prop where
  written_eq : b'.written = b.written ++ bytes
  writer_eq : b'.writer = b.writer + bytes.length
  reader_eq : b'.reader = b.reader
  top_eq : b'.top = b.top
  standalone : b'.Standalone

lemma Standalone.appends (h : b.Standalone) : b.Appends [] b :=
  ⟨(List.append_nil _).symm, rfl, rfl, rfl, h⟩

lemma Appends.trans {bytes more : Bytes} (h : b.Appends bytes b') (h' : b'.Appends more b'') :
    b.Appends (bytes ++ more) b'' where
  written_eq := by rw [h'.written_eq, h.written_eq, List.append_assoc]
  writer_eq := by rw [h'.writer_eq, h.writer_eq, List.length_append, Nat.add_assoc]
  reader_eq := h'.reader_eq.trans h.reader_eq
  top_eq := h'.top_eq.trans h.top_eq
  standalone := h'.standalone

lemma written_fill {bytes : Bytes} (h : bytes.length ≤ b.writable) :
    (b.fill bytes).written = b.written ++ bytes := by
  have hflat := flat_fill h
  have hw := b.writer_le
  have hcap := b.capacity_eq_length
  have hwriter : (b.fill bytes).writer = b.writer + bytes.length := congrArg FlatBuffer.writer hflat
  have hbytes : (b.fill bytes).flat.bytes = place b.flat.bytes b.writer bytes := congrArg FlatBuffer.bytes hflat
  have hlen : (b.flat.bytes.take b.writer ++ bytes).length = b.writer + bytes.length := by
    rw [List.length_append, List.length_take]
    omega
  rw [written, hwriter, hbytes, place, List.take_left' hlen, written]

/-- Filling the room of a buffer appends. -/
lemma Standalone.fill (h : b.Standalone) {bytes : Bytes} (room : bytes.length ≤ b.writable) :
    b.Appends bytes (b.fill bytes) where
  written_eq := written_fill room
  writer_eq := congrArg FlatBuffer.writer (flat_fill room)
  reader_eq := rfl
  top_eq := rfl
  standalone := ⟨h.live, h.unpooled, h.capacity_le⟩

/-- One more segment within the maximum leaves what is written and the maximum as they are. -/
lemma Standalone.addSegment (h : b.Standalone) {maximum : Nat} (growth : b.growth = .growable maximum)
    {segment : Bytes} (fits : b.capacity + segment.length ≤ maximum) : b.Appends [] (b.addSegment segment) where
  written_eq := by
    have hw := b.writer_le
    have hcap := b.capacity_eq_length
    have hbytes : (b.addSegment segment).flat.bytes = b.flat.bytes ++ segment :=
      congrArg FlatBuffer.bytes (flat_addSegment b segment)
    have hwriter : (b.addSegment segment).writer = b.writer := rfl
    rw [written, written, hbytes, hwriter, List.take_append_of_le_length (by omega), List.append_nil]
  writer_eq := rfl
  reader_eq := rfl
  top_eq := by
    have hgrowth : (b.addSegment segment).growth = .growable maximum := growth
    rw [top, top, growth, hgrowth]
  standalone := by
    have hgrowth : (b.addSegment segment).growth = .growable maximum := growth
    refine ⟨h.live, h.unpooled, ?_⟩
    rw [top, hgrowth]
    exact fits

/-- Making room on a buffer of its own takes nothing from the pool. -/
lemma Standalone.reserve (h : b.Standalone) {length : Nat} {pool' : Pool}
    (hr : b.reserve pool length = .ok (b', pool')) :
    b.Appends [] b' ∧ pool' = pool ∧ length ≤ b'.writable := by
  obtain ⟨-, ⟨fits, rfl, rfl⟩ | ⟨maximum, growth, beyond, fits, rfl, rfl⟩⟩ := reserve_cases hr
  · exact ⟨h.appends, rfl, by rw [writable]; omega⟩
  · have unpooled := h.unpooled maximum growth
    -- what is missing fits the maximum, and doubling is cut off there
    have segment : b.nextSegment pool maximum (b.writer + length - b.capacity) =
        (zeros (max (min (max b.capacity (b.writer + length - b.capacity)) (maximum - b.capacity))
          (b.writer + length - b.capacity)), pool) := by
      rw [nextSegment, unpooled]
      rfl
    have hw := b.writer_le
    rw [segment]
    refine ⟨h.addSegment growth ?_, rfl, ?_⟩
    · rw [length_zeros]
      omega
    · simp only [writable, Buffer.addSegment, length_zeros]
      omega

/-- **One chunk** is appended as a whole if it ends at the top, and refused as a whole otherwise. -/
lemma Standalone.write (h : b.Standalone) (pool : Pool) (bytes : Bytes) :
    (b.writer + bytes.length ≤ b.top → ∃ b', b.write pool bytes = .ok (b', pool) ∧ b.Appends bytes b') ∧
      (b.top < b.writer + bytes.length →
        b.write pool bytes = .error (.outOfBounds .write b.writer bytes.length b.top)) := by
  have hlimit := h.limit_eq
  constructor
  · intro fits
    obtain ⟨b₁, pool₁, hr⟩ := exists_reserve ⟨h.live, hlimit ▸ fits⟩ pool
    obtain ⟨appends, rfl, room⟩ := h.reserve hr
    refine ⟨b₁.fill bytes, ?_, appends.trans (appends.standalone.fill room)⟩
    rw [Buffer.write, hr]
    rfl
  · intro beyond
    rw [Buffer.write, reserve_of_lt h.live (hlimit ▸ beyond) pool]
    rfl

/-- How chunk after chunk is refused on a buffer of its own. -/
def refusal (b : Buffer) (chunks : List Bytes) : Option BufferError :=
  (Encoding.refused? (b.top - b.writer) chunks).map fun chunk =>
    .outOfBounds .write (b.writer + (Encoding.fitting (b.top - b.writer) chunks).flatten.length) chunk.length b.top

/-- **All chunks**: those that fit are appended, and the first that does not is refused. -/
lemma Standalone.writeChunks (h : b.Standalone) (pool : Pool) (chunks : List Bytes) :
    ∃ b', b.writeChunks pool chunks = (b', pool, b.refusal chunks) ∧
      b.Appends (Encoding.fitting (b.top - b.writer) chunks).flatten b' := by
  have hw := b.writer_le.trans h.capacity_le
  -- the room shrinks with the writing position, so that both are general here and `top` stays
  induction chunks generalizing b with
  | nil => exact ⟨b, rfl, h.appends⟩
  | cons chunk rest ih =>
    obtain ⟨fits, refused⟩ := h.write pool chunk
    rw [refusal, Encoding.refused?, Encoding.fitting]
    by_cases hle : chunk.length ≤ b.top - b.writer
    · obtain ⟨b₁, hwrite, first⟩ := fits (by omega)
      obtain ⟨b₂, hchunks, more⟩ := ih first.standalone (first.standalone.capacity_le.trans' b₁.writer_le)
      have hroom : b₁.top - b₁.writer = b.top - b.writer - chunk.length := by
        rw [first.top_eq, first.writer_eq, Nat.sub_sub]
      rw [refusal, hroom, first.top_eq, first.writer_eq] at hchunks
      rw [hroom] at more
      rw [if_pos hle, if_pos hle]
      refine ⟨b₂, ?_, ?_⟩
      · rw [Buffer.writeChunks, hwrite]
        simp only [hchunks, List.flatten_cons, List.length_append, Nat.add_assoc]
      · rw [List.flatten_cons]
        exact first.trans more
    · rw [if_neg hle, if_neg hle]
      refine ⟨b, ?_, h.appends⟩
      rw [Buffer.writeChunks, refused (by omega)]
      rfl

/-- An encoding without an error of its own fails just where one of its chunks is refused. -/
lemma Standalone.emit (h : b.Standalone) (pool : Pool) {e : Encoding} (encodes : e.error? = none) :
    ∃ b', b.emit pool e = (b', pool, (b.refusal e.chunks).map .buffer) ∧
      b.Appends (Encoding.fitting (b.top - b.writer) e.chunks).flatten b' := by
  obtain ⟨b', hchunks, appends⟩ := h.writeChunks pool e.chunks
  refine ⟨b', ?_, appends⟩
  rw [Buffer.emit, hchunks]
  cases b.refusal e.chunks with
  | none => exact congrArg (fun e? => (b', pool, e?)) encodes
  | some refused => rfl

/-- What writing an encoding into a buffer comes to, which has room up to its top. If the encoding is longer than that,
there is a first chunk that does not fit, and everything before it is written. -/
structure Confines (b : Buffer) (pool : Pool) (e : Encoding) : Prop where
  whole : e.bytes.length ≤ b.top - b.writer →
    (b.emit pool e).2.2 = none ∧ (b.emit pool e).1.written = b.written ++ e.bytes
  cut : b.top - b.writer < e.bytes.length → ∃ part chunk,
    (b.emit pool e).2.2 = some (.buffer (.outOfBounds .write (b.writer + part.length) chunk.length b.top)) ∧
      (b.emit pool e).1.written = b.written ++ part ∧ part ++ chunk <+: e.bytes ∧ part ≠ e.bytes ∧
      part.length ≤ b.top - b.writer ∧ b.top - b.writer < part.length + chunk.length
  reader_eq : (b.emit pool e).1.reader = b.reader
  pool_eq : (b.emit pool e).2.1 = pool
  alike : ∀ (other : Buffer) (otherPool : Pool), other.Standalone → other.writer = b.writer → other.top = b.top →
    (other.emit otherPool e).2.2 = (b.emit pool e).2.2 ∧
      ∃ part, (b.emit pool e).1.written = b.written ++ part ∧
        (other.emit otherPool e).1.written = other.written ++ part

/-- A buffer of its own takes an encoding whole, or up to the first chunk that does not fit. -/
lemma Standalone.emit_confines (h : b.Standalone) (pool : Pool) {e : Encoding} (encodes : e.error? = none) :
    b.Confines pool e := by
  obtain ⟨b', hemit, appends⟩ := h.emit pool encodes
  refine ⟨fun room => ?_, fun room => ?_, ?_, ?_, fun other otherPool hother hwriter htop => ?_⟩
  · rw [hemit, refusal, Encoding.refused?_eq_none_iff.mpr room, appends.written_eq, Encoding.fitting_of_le room]
    exact ⟨rfl, rfl⟩
  · have hne : Encoding.refused? (b.top - b.writer) e.chunks ≠ none :=
      fun hnone => absurd (Encoding.refused?_eq_none_iff.mp hnone) (not_le.mpr room)
    obtain ⟨chunk, hrefused⟩ := Option.ne_none_iff_exists'.mp hne
    obtain ⟨run, fits, beyond⟩ := Encoding.refuses_of_refused? hrefused
    refine ⟨_, chunk, ?_, ?_, ?_, ?_, fits, beyond⟩
    · rw [hemit, refusal, hrefused]
      rfl
    · rw [hemit, appends.written_eq]
    · have hrun := run.flatten
      rwa [List.flatten_append, List.flatten_singleton] at hrun
    · intro hall
      rw [hall] at fits
      exact absurd fits (not_le.mpr room)
  · rw [hemit, appends.reader_eq]
  · rw [hemit]
  · obtain ⟨other', hother', appends'⟩ := hother.emit otherPool encodes
    rw [hemit, hother', refusal, refusal, hwriter, htop]
    rw [hwriter, htop] at appends'
    exact ⟨rfl, _, appends.written_eq, appends'.written_eq⟩

/-! ### Every history -/

/-- A growable buffer that is not over a pool has room for no more than its maximum. -/
def OwnBounded (b : Buffer) : Prop :=
  ∀ maximum, b.growth = .growable maximum → b.pooled = false → b.capacity ≤ maximum

lemma OwnBounded.apply (h : b.OwnBounded) (hp : pool.Sound) (action : BufferAction) :
    (b.apply pool action).2.1.OwnBounded := by
  have stretches := apply_stretches b hp action
  intro maximum growth unpooled
  have growth : b.growth = .growable maximum := stretches.growth_eq.symm.trans growth
  have own : b.pooled = false := stretches.pooled_eq.symm.trans unpooled
  have bounded : b.Bounded pool.segmentSize maximum :=
    ⟨growth, h maximum growth, fun pooled => absurd (own.symm.trans pooled) Bool.false_ne_true,
      fun pooled => absurd (own.symm.trans pooled) Bool.false_ne_true⟩
  exact (bounded.stretches hp.segmentSize_pos stretches).unpooled_le unpooled

/-- Whether the capacity is bounded can be seen from the array. -/
lemma ownBounded_of_flat (h : ∀ maximum, b.flat.growth = .growable maximum → b.flat.pooled = false →
    b.flat.bytes.length ≤ maximum) : b.OwnBounded :=
  fun maximum growth unpooled => b.capacity_eq_length.trans_le (h maximum growth unpooled)

end Buffer

namespace Bench

variable {bench : Bench}

lemma Sound.ownBounded_build (h : bench.Sound) (origin : BufferOrigin) : (bench.build origin).1.OwnBounded := by
  refine Buffer.ownBounded_of_flat ?_
  rw [(h.build origin).1]
  intro maximum growth unpooled
  cases origin with
  | default =>
    cases growth
    rw [FlatBuffer.ofOrigin, FlatBuffer.blank, length_zeros]
    decide
  | fixed | wrap | segments => cases growth
  | growable initial =>
    cases growth
    rw [FlatBuffer.ofOrigin, FlatBuffer.blank, length_zeros]
    exact min_le_right _ _
  | allocator a =>
    rw [FlatBuffer.ofOrigin] at growth unpooled ⊢
    split at growth
    next hpooled =>
      rw [if_pos hpooled] at unpooled
      cases unpooled
    next hpooled =>
      cases growth
      rw [if_neg hpooled, FlatBuffer.blank, length_zeros]
      exact min_le_right _ _
  | pool => cases unpooled

lemma mem_put {α : Type} {name : String} {x : α} {entries : List (String × α)} {entry : String × α}
    (h : entry ∈ put name x entries) : entry = (name, x) ∨ entry ∈ entries :=
  (List.mem_cons.mp h).imp_right fun hmem => (List.mem_filter.mp hmem).1

lemma mem_of_lookup {α : Type} {name : String} {x : α} {entries : List (String × α)}
    (h : entries.lookup name = some x) : (name, x) ∈ entries := by
  obtain ⟨front, rest, rfl, -⟩ := List.lookup_eq_some_iff.mp h
  exact List.mem_append_right front List.mem_cons_self

lemma discard_buffers_subset (bench : Bench) (name : String) :
    (bench.discard name).2.buffers ⊆ bench.buffers := by
  rw [discard]
  split
  · exact List.Subset.refl _
  · exact List.filter_subset_self _

/-- What holds of every new buffer and is kept by every operation holds of every buffer on the way. -/
lemma Reachable.forall_buffers {P : Buffer → Prop} (h : bench.Reachable)
    (built : ∀ (bench : Bench) (origin : BufferOrigin), bench.Sound → P (bench.build origin).1)
    (operated : ∀ (b : Buffer) (pool : Pool) (action : BufferAction), pool.Sound → P b → P (b.apply pool action).2.1) :
    ∀ entry ∈ bench.buffers, P entry.2.1 := by
  induction h with
  | start => exact nofun
  | setPool _ _ _ _ _ ih | select _ _ ih => exact ih
  | @make bench name origin reachable ih =>
    intro entry hentry
    rcases mem_put hentry with rfl | hmem
    · exact built bench origin reachable.sound
    · have hmem := discard_buffers_subset _ name hmem
      exact ih entry hmem
  | @discard bench name _ ih => exact fun entry hentry => ih entry (discard_buffers_subset bench name hentry)
  | @operate bench bench' action outcome reachable ho ih =>
    rw [operate?] at ho
    obtain ⟨⟨buffer, name⟩, hfound, heq⟩ := Option.map_eq_some_iff.mp ho
    obtain ⟨-, rfl⟩ := Prod.mk.inj heq
    have hmem : (bench.current, buffer, name) ∈ bench.buffers := mem_of_lookup hfound
    intro entry hentry
    rcases mem_put hentry with rfl | hmem'
    · exact operated buffer (bench.pool name) action (reachable.sound name) (ih _ hmem)
    · exact ih entry hmem'

variable {b : Buffer} {name poolName : String}

/-- A live buffer on the bench that is fixed or not over a pool is one of its own. -/
lemma Reachable.standalone (reachable : bench.Reachable) (found : bench.buffers.lookup name = some (b, poolName))
    (live : b.references ≠ 0) (own : b.growth = .fixed ∨ b.pooled = false) : b.Standalone := by
  have bounded : b.OwnBounded :=
    reachable.forall_buffers (fun _ origin sound => sound.ownBounded_build origin)
      (fun _ _ action hp h => h.apply hp action) _ (mem_of_lookup found)
  have unpooled : ∀ maximum, b.growth = .growable maximum → b.pooled = false :=
    fun maximum growth => own.resolve_left fun fixed => nomatch fixed.symm.trans growth
  refine ⟨live, unpooled, ?_⟩
  rw [Buffer.top]
  cases growth : b.growth with
  | fixed => exact le_rfl
  | growable maximum => exact bounded maximum growth (unpooled maximum growth)

/-- **An encoding is written whole or up to a proper part of it.** Take any live buffer, with any history, that is
fixed or grows without a pool, and a value that has an encoding. If the encoding is no longer than what is left up to
the capacity or the maximum, all of it is appended; otherwise the writing is refused out of bounds and a proper part
from the front of the encoding is appended. What was written before and the reading position stay, and any other such
buffer with as much written and as much room, in whatever segments, answers the same and is appended the same. -/
theorem Reachable.confines (reachable : bench.Reachable)
    (found : bench.buffers.lookup name = some (b, poolName)) (live : b.references ≠ 0)
    (own : b.growth = .fixed ∨ b.pooled = false) (pool : Pool) {v : Value}
    (encodes : (Registry.standard.write v).error? = none) : b.Confines pool (Registry.standard.write v) :=
  (reachable.standalone found live own).emit_confines pool encodes

/-- A buffer that grows up to eight bytes, three of which are written. -/
def nearlyFull : Buffer :=
  ((Buffer.growable 2 8).apply (.make 1 0 false) (.writeBytes [7, 8, 9])).2.1

/-- Of the six bytes of a number, the buffer takes its kind and its flags. -/
theorem confines_nearlyFull : ∃ bench : Bench, bench.Reachable ∧
    bench.buffers.lookup "b" = some (nearlyFull, "") ∧ nearlyFull.references ≠ 0 ∧
      (nearlyFull.growth = .fixed ∨ nearlyFull.pooled = false) ∧
      (Registry.standard.write (.int 5)).error? = none ∧
      nearlyFull.Confines (bench.pool "") (Registry.standard.write (.int 5)) ∧
      (nearlyFull.emit (bench.pool "") (Registry.standard.write (.int 5))).1.written = [7, 8, 9, 1, 0] := by
  have writes : (({} : Bench).make "b" (.growable 2 8)).operate? (.writeBytes [7, 8, 9]) =
      some ({ result := .ok .done }, _) := rfl
  have reachable := Reachable.operate (.make "b" (.growable 2 8) .start) writes
  have live : nearlyFull.references ≠ 0 := by decide
  have own : nearlyFull.growth = .fixed ∨ nearlyFull.pooled = false := .inr rfl
  have encodes : (Registry.standard.write (.int 5)).error? = none := by decide
  refine ⟨_, reachable, rfl, live, own, encodes, ?_, rfl⟩
  exact @Reachable.confines _ nearlyFull "b" "" reachable rfl live own _ _ encodes

end Bench

end GraphServer
