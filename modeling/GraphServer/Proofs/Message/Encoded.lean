import GraphServer.Message.Codec
import GraphServer.Proofs.Buffer.Typed
import GraphServer.Proofs.Codec.RoundTrip

/-!
Messages encoded in buffers of an allocator.

* `Allocator.Fresh`: a buffer from an allocator is empty and has room up to the maximum capacity;
* `Allocator.Fresh.resetWriter`: so is one whose writing position is back at the mark, whatever was written to it;
* `MessageCodec.encodeRequest_eq_ok`, `MessageCodec.exists_encodeRequest`, and the same for a response that is
  not replaced (`MessageCodec.EncodesWhole`): the bytes are those of the encoding;
* `MessageCodec.attempt`: the buffer as the encoding of a response leaves it, and the error if it failed;
* `MessageCodec.spelled`: what the bytes of a response spell, which is the response itself or its replacement.
-/

namespace GraphServer

namespace Buffer

variable {b : Buffer}

lemma toBytes_eq (live : b.references ≠ 0) : b.toBytes = .ok b.unread := by
  have hle : b.reader + b.readable ≤ b.writer := by
    rw [readable, Nat.add_sub_cancel' b.reader_le]
  obtain ⟨pieces, v, viewed⟩ := exists_viewed live hle
  rw [toBytes, view, viewed.viewOf_eq]
  change Except.ok v.bytes = _
  rw [viewed.bytes_eq, unread, span_eq_flat]

variable {pool : Pool}

lemma write_mark {bytes : Bytes} {b' : Buffer} {pool' : Pool} (h : b.write pool bytes = .ok (b', pool')) :
    b'.mark = b.mark := by
  unfold write at h
  cases hr : b.reserve pool bytes.length with
  | error e =>
    rw [hr] at h
    cases h
  | ok r =>
    obtain ⟨b₁, pool₁⟩ := r
    rw [hr] at h
    obtain ⟨rfl, -⟩ := Prod.mk.inj (Except.ok.inj h)
    obtain ⟨-, ⟨-, rfl, -⟩ | ⟨maximum, -, -, -, rfl, -⟩⟩ := reserve_cases hr <;> rfl

/-- What writing leaves as it is, be it whole or not, and that the limit does not become lower. -/
structure Keeps (b b' : Buffer) (pool' : Pool) : Prop where
  reader_eq : b'.reader = b.reader
  mark_eq : b'.mark = b.mark
  references_eq : b'.references = b.references
  limit_le : b.limit ≤ b'.limit
  sound : pool'.Sound

lemma Keeps.refl (hp : pool.Sound) (b : Buffer) : b.Keeps b pool :=
  ⟨rfl, rfl, rfl, le_rfl, hp⟩

lemma writeChunks_keeps (hp : pool.Sound) {chunks : List Bytes} {b' : Buffer} {pool' : Pool} {e? : Option BufferError}
    (h : b.writeChunks pool chunks = (b', pool', e?)) : b.Keeps b' pool' := by
  induction chunks generalizing b pool with
  | nil =>
    cases h
    exact .refl hp _
  | cons bytes rest ih =>
    rw [writeChunks] at h
    cases hw : b.write pool bytes with
    | error e =>
      rw [hw] at h
      cases h
      exact .refl hp _
    | ok r =>
      rw [hw] at h
      have first := write_spec hp hw
      have keeps := ih first.sound h
      exact ⟨keeps.reader_eq.trans first.reader_eq, keeps.mark_eq.trans (write_mark hw),
        keeps.references_eq.trans first.references_eq, first.limit_le.trans keeps.limit_le, keeps.sound⟩

lemma emit_keeps (hp : pool.Sound) {enc : Encoding} {b' : Buffer} {pool' : Pool} {e? : Option Error}
    (h : b.emit pool enc = (b', pool', e?)) : b.Keeps b' pool' := by
  rw [emit] at h
  split at h
  all_goals
    next hchunks =>
      cases h
      exact writeChunks_keeps hp hchunks

lemma unread_of_writer_eq_zero (h : b.writer = 0) : b.unread = [] := by
  rw [← List.length_eq_zero_iff, length_unread, readable, h, Nat.zero_sub]

end Buffer

namespace Allocator

/-- A buffer that was handed out is live and empty, and can be written up to the maximum capacity. -/
structure Fresh (a : Allocator) (r : Buffer × Pool) : Prop where
  unread_eq : r.1.unread = []
  references_eq : r.1.references = 1
  writer_eq : r.1.writer = 0
  le_limit : a.maxCapacity ≤ r.1.limit
  sound : r.2.Sound

lemma fresh (a : Allocator) {pool : Pool} (hp : pool.Sound) : a.Fresh (a.allocate pool) := by
  rw [allocate]
  split
  · exact ⟨Buffer.unread_of_writer_eq_zero rfl, rfl, rfl, le_max_right _ _, hp.acquire 1⟩
  · exact ⟨Buffer.unread_of_writer_eq_zero rfl, rfl, rfl, le_max_right _ _, hp⟩

namespace Fresh

variable {a : Allocator} {r : Buffer × Pool} {enc : Encoding} {b' : Buffer} {pool' : Pool}

lemma live (h : a.Fresh r) : r.1.references ≠ 0 :=
  h.references_eq.trans_ne Nat.one_ne_zero

lemma hasRoom (h : a.Fresh r) {n : Nat} (room : n ≤ r.1.limit) : r.1.HasRoom n :=
  ⟨h.live, by rwa [h.writer_eq, Nat.zero_add]⟩

lemma markWriter (h : a.Fresh r) : a.Fresh (r.1.markWriter, r.2) :=
  ⟨h.unread_eq, h.references_eq, h.writer_eq, h.le_limit, h.sound⟩

/-- What has been written to an empty buffer lies behind the writing position once that is back at the mark. -/
lemma resetWriter (h : a.Fresh r) {e? : Option Error} (hemit : r.1.markWriter.emit r.2 enc = (b', pool', e?)) :
    a.Fresh (b'.resetWriter, pool') := by
  have keeps := Buffer.emit_keeps h.sound hemit
  -- the mark was set on the empty buffer, and nothing has been read since
  have reader : b'.reader = 0 := Nat.le_zero.mp (keeps.reader_eq.trans_le (r.1.reader_le.trans_eq h.writer_eq))
  have writer : b'.resetWriter.writer = 0 := by
    change max (b'.mark.getD 0) b'.reader = 0
    rw [keeps.mark_eq, reader]
    exact (Nat.max_zero _).trans h.writer_eq
  exact ⟨Buffer.unread_of_writer_eq_zero writer, keeps.references_eq.trans h.references_eq, writer,
    h.le_limit.trans keeps.limit_le, keeps.sound⟩

/-- What is written to an empty buffer is all that is unread then. -/
lemma emitted (h : a.Fresh r) (hemit : r.1.emit r.2 enc = (b', pool', none)) :
    enc.error? = none ∧ b'.unread = enc.bytes ∧ b'.references ≠ 0 := by
  obtain ⟨herror, hunread, hreferences⟩ := Buffer.emitted h.sound hemit
  rw [h.unread_eq, List.nil_append] at hunread
  exact ⟨herror, hunread, hreferences.trans_ne h.live⟩

end Fresh

end Allocator

namespace MessageCodec

variable {c : MessageCodec} {pool : Pool}

lemma finish_fst {b : Buffer} (live : b.references ≠ 0) (pool : Pool) : (finish b pool).1 = .ok b.unread := by
  rw [finish, Buffer.toBytes_eq live, Buffer.release, if_neg live]
  rfl

/-- What is written to an empty buffer is all that it yields. -/
lemma finish_emitted {a : Allocator} {r : Buffer × Pool} (fresh : a.Fresh r) {enc : Encoding} {b' : Buffer}
    {pool' : Pool} (hemit : r.1.emit r.2 enc = (b', pool', none)) :
    enc.error? = none ∧ (finish b' pool').1 = .ok enc.bytes := by
  obtain ⟨herror, hunread, live⟩ := fresh.emitted hemit
  exact ⟨herror, by rw [finish_fst live, hunread]⟩

/-- A request that was encoded is its whole encoding. -/
lemma encodeRequest_eq_ok (hp : pool.Sound) {r : Request} {bytes : Bytes}
    (h : (c.encodeRequest pool r).1 = .ok bytes) :
    (c.requestEncoding r).error? = none ∧ bytes = (c.requestEncoding r).bytes := by
  have fresh := c.allocator.fresh hp
  rw [encodeRequest] at h
  generalize c.allocator.allocate pool = handed at fresh h
  obtain ⟨b, pool₁⟩ := handed
  simp only at h
  split at h
  next => cases h
  next b' pool' hemit =>
    obtain ⟨herror, hfinish⟩ := finish_emitted fresh hemit
    exact ⟨herror, Except.ok.inj (h.symm.trans hfinish)⟩

/-- A request with an encoding for which the allocator has room is encoded. -/
lemma exists_encodeRequest (hp : pool.Sound) {r : Request} (written : (c.requestEncoding r).error? = none)
    (room : (c.requestEncoding r).bytes.length ≤ c.allocator.maxCapacity) :
    (c.encodeRequest pool r).1 = .ok (c.requestEncoding r).bytes := by
  have fresh := c.allocator.fresh hp
  rw [encodeRequest]
  generalize c.allocator.allocate pool = handed at fresh
  obtain ⟨b, pool₁⟩ := handed
  have hasRoom : b.HasRoom (c.requestEncoding r).bytes.length := fresh.hasRoom (room.trans fresh.le_limit)
  obtain ⟨b', pool', hemit, -⟩ := Buffer.exists_emit fresh.sound written hasRoom
  simp only [hemit]
  exact (finish_emitted fresh hemit).2

/-! ### Responses and their replacements -/

/-- The buffer as the encoding of a response leaves it, its pool and the error, if any. -/
def attempt (c : MessageCodec) (pool : Pool) (r : Response) : Buffer × Pool × Option Error :=
  let (b, pool) := c.allocator.allocate pool
  b.markWriter.emit pool (c.responseEncoding r)

/-- Encoding a response is the attempt to, and after a failure writing the replacement from the mark on. -/
lemma encodeResponse_attempt (c : MessageCodec) (pool : Pool) (r : Response) :
    c.encodeResponse pool r =
      match c.attempt pool r with
      | (b, pool, none) => finish b pool
      | (b, pool, some e) =>
        match b.resetWriter.emit pool (c.responseEncoding (fallback r.request e)) with
        | (b, pool, none) => finish b pool
        | (b, pool, some e) => (.error e, b.drop pool) :=
  rfl

/-- Back at the mark, the buffer of an attempt is as good as a new one, whatever was written to it. -/
lemma fresh_attempt (hp : pool.Sound) (r : Response) :
    c.allocator.Fresh ((c.attempt pool r).1.resetWriter, (c.attempt pool r).2.1) := by
  have fresh := c.allocator.fresh hp
  exact fresh.resetWriter rfl

/-- Whether a response is encoded as it is, and not replaced. -/
def EncodesWhole (c : MessageCodec) (pool : Pool) (r : Response) : Prop :=
  let (b, pool) := c.allocator.allocate pool
  (b.markWriter.emit pool (c.responseEncoding r)).2.2 = none

lemma encodesWhole_iff {r : Response} : c.EncodesWhole pool r ↔ (c.attempt pool r).2.2 = none :=
  Iff.rfl

/-- A response that is encoded as it is, is its whole encoding. -/
lemma EncodesWhole.encodeResponse_eq (hp : pool.Sound) {r : Response} (h : c.EncodesWhole pool r) :
    (c.responseEncoding r).error? = none ∧ (c.encodeResponse pool r).1 = .ok (c.responseEncoding r).bytes := by
  have fresh := (c.allocator.fresh hp).markWriter
  rw [encodesWhole_iff] at h
  rw [encodeResponse_attempt]
  generalize hattempt : c.attempt pool r = attempted at h
  obtain ⟨b', pool', e?⟩ := attempted
  subst h
  exact finish_emitted fresh hattempt

/-- A response with an encoding for which the allocator has room is encoded as it is. -/
lemma encodesWhole_of_room (hp : pool.Sound) {r : Response} (written : (c.responseEncoding r).error? = none)
    (room : (c.responseEncoding r).bytes.length ≤ c.allocator.maxCapacity) : c.EncodesWhole pool r := by
  have fresh := (c.allocator.fresh hp).markWriter
  obtain ⟨b', pool', hemit, -⟩ :=
    Buffer.exists_emit fresh.sound written (fresh.hasRoom (room.trans fresh.le_limit))
  exact congrArg (·.2.2) hemit

/-- What the bytes of a response spell: the response, or its replacement if it is not encoded as it is. -/
def spelled (c : MessageCodec) (pool : Pool) (r : Response) : Response :=
  let (b, pool) := c.allocator.allocate pool
  match (b.markWriter.emit pool (c.responseEncoding r)).2.2 with
  | none => r
  | some e => fallback r.request e

lemma EncodesWhole.spelled_eq {r : Response} (h : c.EncodesWhole pool r) : c.spelled pool r = r := by
  rw [EncodesWhole] at h
  rw [spelled]
  generalize c.allocator.allocate pool = handed at h
  obtain ⟨b, pool₁⟩ := handed
  dsimp only at h ⊢
  rw [h]

/-- The replacement of a response goes out under a status of its own. -/
lemma exists_spelled_eq_fallback {r : Response} (h : ¬ c.EncodesWhole pool r) :
    ∃ e, c.spelled pool r = fallback r.request e := by
  rw [EncodesWhole] at h
  rw [spelled]
  generalize c.allocator.allocate pool = handed at h
  obtain ⟨b, pool₁⟩ := handed
  obtain ⟨e, he⟩ := Option.ne_none_iff_exists'.mp h
  exact ⟨e, by simp only [he]⟩

lemma spelled_attempt (c : MessageCodec) (pool : Pool) (r : Response) :
    c.spelled pool r =
      match (c.attempt pool r).2.2 with
      | none => r
      | some e => fallback r.request e :=
  rfl

/-- **The bytes of a response are the whole encoding of what they spell.** -/
lemma encodeResponse_eq_ok (hp : pool.Sound) {r : Response} {bytes : Bytes}
    (h : (c.encodeResponse pool r).1 = .ok bytes) :
    (c.responseEncoding (c.spelled pool r)).error? = none ∧
      bytes = (c.responseEncoding (c.spelled pool r)).bytes := by
  by_cases whole : c.EncodesWhole pool r
  · obtain ⟨herror, hbytes⟩ := whole.encodeResponse_eq hp
    rw [whole.spelled_eq]
    exact ⟨herror, Except.ok.inj (h.symm.trans hbytes)⟩
  · have fresh := c.fresh_attempt hp r
    rw [encodesWhole_iff] at whole
    rw [encodeResponse_attempt] at h
    rw [spelled_attempt]
    generalize c.attempt pool r = attempted at whole fresh h ⊢
    obtain ⟨b, pool₁, _ | e⟩ := attempted
    · exact absurd rfl whole
    dsimp only at fresh h ⊢
    generalize hemit : b.resetWriter.emit pool₁ (c.responseEncoding (fallback r.request e)) = emitted at h
    obtain ⟨b', pool', _ | e'⟩ := emitted
    · obtain ⟨herror, hfinish⟩ := finish_emitted fresh hemit
      exact ⟨herror, Except.ok.inj (h.symm.trans hfinish)⟩
    · cases h

end MessageCodec

end GraphServer
