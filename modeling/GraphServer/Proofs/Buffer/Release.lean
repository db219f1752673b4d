import GraphServer.Proofs.Buffer.Delivery
import GraphServer.Proofs.Buffer.Growing

/-!
The references to a buffer, and what is left of it once the last one is given back.

* `Buffer.apply_references`: an operation changes the number of references only by a retain or a release that
  succeeds;
* `Buffer.apply_of_released`: what every operation comes to once there are none;
* `Buffer.release_final`: **the references are counted in full, the last one is given back once, and after that the
  buffer only moves its writing position**, and that by a reset alone;
* `Buffer.released_reset_moves`: a reset does move it.
-/

namespace GraphServer

/-! ### A history of a buffer -/

/-- How an operation is answered once the last reference is given back: the two that cannot fail succeed, and what looks
at a slice of its caller first looks there. -/
def BufferAction.belated : BufferAction → Except BufferError BufferYield
  | .mark | .reset => .ok .done
  | .release => .error .illegalReferenceCount
  | .readInto target index length =>
    Buffer.checkSpan .readBytesInto index length target.length >>= fun _ => .error .released
  | .writeFrom source index length =>
    Buffer.checkSpan .writeBytesFrom index length source.length >>= fun _ => .error .released
  | _ => .error .released

/-- An operation and its outcome. -/
abbrev BufferEntry := BufferAction × BufferOutcome

namespace BufferEntry

/-- Whether a reference was added. -/
def isRetained : BufferEntry → Bool
  | (.retain, o) => o.result.isOk
  | _ => false

/-- Whether a reference was given back. -/
def isReleased : BufferEntry → Bool
  | (.release, o) => o.result.isOk
  | _ => false

/-- Whether a release told that it was the last one. -/
def isLast : BufferEntry → Bool
  | (.release, o) =>
    match o.result with
    | .ok (.bool last) => last
    | _ => false
  | _ => false

end BufferEntry

namespace Buffer

variable {b b' : Buffer} {pool pool' : Pool} {action : BufferAction} {later : List (Pool × BufferAction)}

/-- The buffer after operations, each of them with the pool as it is then. -/
def after (b : Buffer) : List (Pool × BufferAction) → Buffer
  | [] => b
  | (pool, action) :: rest => (b.apply pool action).2.1.after rest

/-- The operations with their outcomes. -/
def log (b : Buffer) : List (Pool × BufferAction) → List BufferEntry
  | [] => []
  | (pool, action) :: rest => (action, (b.apply pool action).1) :: (b.apply pool action).2.1.log rest

/-! ### What leaves the references alone -/

lemma read_references {op : BufferOp} {length : Nat} {bytes : Bytes} (h : b.read op length = .ok (bytes, b')) :
    b'.references = b.references := by
  obtain ⟨_, -, h⟩ := exists_of_bind_eq_ok h
  cases h
  rfl

lemma readInto_references {target bytes : Bytes} {index length : Nat}
    (h : b.readInto target index length = .ok (bytes, b')) : b'.references = b.references := by
  obtain ⟨_, -, h⟩ := exists_of_bind_eq_ok h
  obtain ⟨r, hread, h⟩ := exists_of_bind_eq_ok h
  cases h
  exact read_references hread

lemma copyPieces_references (sink : Sink) (b : Buffer) (taken : Bytes) (pieces : List Bytes) :
    (copyPieces sink b taken pieces).1.references = b.references := by
  rw [(copyPieces_advances sink b taken pieces).buffer_eq]
  rfl

lemma readTo_references (b : Buffer) (sink : Sink) (length : Nat) :
    (b.readTo sink length).1.references = b.references := by
  rw [readTo]
  split
  · rfl
  · exact copyPieces_references sink b [] _

lemma skip_references {length : Nat} (h : b.skip length = .ok b') : b'.references = b.references := by
  obtain ⟨_, -, h⟩ := exists_of_bind_eq_ok h
  cases h
  rfl

lemma setReader_references {index : Nat} (h : b.setReader index = .ok b') : b'.references = b.references := by
  obtain ⟨_, -, h⟩ := exists_of_bind_eq_ok h
  split at h <;> cases h
  rfl

lemma setWriter_references {index : Nat} (h : b.setWriter index = .ok b') : b'.references = b.references := by
  obtain ⟨_, -, h⟩ := exists_of_bind_eq_ok h
  split at h <;> cases h
  rfl

lemma write_references {bytes : Bytes} (h : b.write pool bytes = .ok (b', pool')) : b'.references = b.references := by
  obtain ⟨r, hreserve, h⟩ := exists_of_bind_eq_ok h
  cases h
  obtain ⟨-, ⟨-, hb, -⟩ | ⟨maximum, -, -, -, hb, -⟩⟩ := reserve_cases hreserve
  · rw [fill, hb]
  · rw [fill, hb, addSegment]

lemma writeFrom_references {source : Bytes} {index length : Nat}
    (h : b.writeFrom pool source index length = .ok (b', pool')) : b'.references = b.references := by
  obtain ⟨_, -, h⟩ := exists_of_bind_eq_ok h
  exact write_references h

lemma reading_references {α : Type} {r : Except BufferError (α × Buffer)}
    (h : ∀ x b', r = .ok (x, b') → b'.references = b.references) (pool : Pool) (yield : α → BufferYield) :
    (b.reading pool r yield).2.1.references = b.references := by
  cases r with
  | error e => rfl
  | ok r => exact h r.1 r.2 rfl

lemma changing_references {r : Except BufferError Buffer} (h : ∀ b', r = .ok b' → b'.references = b.references)
    (pool : Pool) : (b.changing pool r).2.1.references = b.references := by
  cases r with
  | error e => rfl
  | ok b' => exact h b' rfl

lemma writing_references {r : Except BufferError (Buffer × Pool)}
    (h : ∀ b' pool', r = .ok (b', pool') → b'.references = b.references) (pool : Pool) :
    (b.writing pool r).2.1.references = b.references := by
  cases r with
  | error e => rfl
  | ok r => exact h r.1 r.2 rfl

/-! ### The count -/

lemma retain_of_live (live : b.references ≠ 0) : b.retain = .ok { b with references := b.references + 1 } := by
  simp [retain, ensureLive, live, bind, Except.bind, pure, Except.pure]

lemma retain_of_released (dead : b.references = 0) : b.retain = .error .released := by
  simp [retain, ensureLive, dead, bind, Except.bind]

lemma release_of_live (live : b.references ≠ 0) :
    b.release = .ok (b.references == 1, { b with references := b.references - 1 }) :=
  if_neg live

lemma release_of_released (dead : b.references = 0) : b.release = .error .illegalReferenceCount :=
  if_pos dead

/-- **One operation** adds a reference, gives one back or leaves them alone, as it says. -/
theorem apply_references (b : Buffer) (pool : Pool) (action : BufferAction) :
    (b.apply pool action).2.1.references + (if BufferEntry.isReleased (action, (b.apply pool action).1) then 1 else 0) =
      b.references + if BufferEntry.isRetained (action, (b.apply pool action).1) then 1 else 0 := by
  cases action with
  | retain =>
    by_cases live : b.references = 0
    · simp [apply, retain_of_released live]
      rfl
    · simp [apply, retain_of_live live]
      rfl
  | release =>
    by_cases live : b.references = 0
    · simp [apply, release_of_released live]
      rfl
    · simp [apply, release_of_live live]
      exact Nat.succ_pred live
  | readTo sink length =>
    have kept := readTo_references b sink length
    rw [apply]
    split <;> simp_all [BufferEntry.isReleased, BufferEntry.isRetained]
  | readBool | readByte | readU8 | readShort | readInt | readLong | readFloat | readDouble | readBytes
  | readVec => exact reading_references (fun _ _ => read_references) pool _
  | readInto => exact reading_references (fun _ _ => readInto_references) pool _
  | writeBool | writeByte | writeU8 | writeShort | writeInt | writeLong | writeFloat | writeDouble
  | writeBytes => exact writing_references (fun _ _ => write_references) pool
  | writeFrom => exact writing_references (fun _ _ => writeFrom_references) pool
  | skip => exact changing_references (fun _ => skip_references) pool
  | setReader => exact changing_references (fun _ => setReader_references) pool
  | setWriter => exact changing_references (fun _ => setWriter_references) pool
  | mark | reset | getBytes | views | viewsOf | view | viewOf | toBytes => rfl

/-- **Exactly the operation that gives the last reference back tells so.** -/
theorem isLast_apply (b : Buffer) (pool : Pool) (action : BufferAction) :
    BufferEntry.isLast (action, (b.apply pool action).1) = true ↔
      b.references ≠ 0 ∧ (b.apply pool action).2.1.references = 0 := by
  have count := b.apply_references pool action
  cases action with
  | release =>
    by_cases live : b.references = 0
    · simp [apply, release_of_released live, live]
      rfl
    · have one : b.references - 1 = 0 ↔ b.references = 1 := by omega
      simp [apply, release_of_live live, live, reading, BufferEntry.isLast, one]
  | _ =>
    refine iff_of_false Bool.false_ne_true ?_
    rintro ⟨live, dead⟩
    rw [dead] at count
    exact live (Nat.add_eq_zero_iff.mp (count.symm.trans (Nat.zero_add _))).1

/-! ### After the last release -/

section Released

variable (dead : b.references = 0)
include dead

lemma ensureLive_of_released : b.ensureLive = .error .released :=
  if_pos dead

lemma ensureReadable_of_released (op : BufferOp) (length : Nat) : b.ensureReadable op length = .error .released := by
  rw [ensureReadable, ensureLive_of_released dead]
  rfl

lemma read_of_released (op : BufferOp) (length : Nat) : b.read op length = .error .released := by
  rw [read, ensureReadable_of_released dead]
  rfl

lemma readInto_of_released (target : Bytes) (index length : Nat) :
    b.readInto target index length =
      (checkSpan .readBytesInto index length target.length >>= fun _ => .error .released) := by
  rw [readInto, read_of_released dead]
  rfl

lemma readTo_of_released (sink : Sink) (length : Nat) : b.readTo sink length = (b, [], some .released) := by
  rw [readTo, ensureReadable_of_released dead]

lemma skip_of_released (length : Nat) : b.skip length = .error .released := by
  rw [skip, ensureReadable_of_released dead]
  rfl

lemma getBytes_of_released (index length : Nat) : b.getBytes index length = .error .released := by
  rw [getBytes, ensureLive_of_released dead]
  rfl

lemma write_of_released (pool : Pool) (bytes : Bytes) : b.write pool bytes = .error .released := by
  rw [write, reserve, ensureLive_of_released dead]
  rfl

lemma writeFrom_of_released (pool : Pool) (source : Bytes) (index length : Nat) :
    b.writeFrom pool source index length =
      (checkSpan .writeBytesFrom index length source.length >>= fun _ => .error .released) := by
  rw [writeFrom, write_of_released dead]

lemma setReader_of_released (index : Nat) : b.setReader index = .error .released := by
  rw [setReader, ensureLive_of_released dead]
  rfl

lemma setWriter_of_released (index : Nat) : b.setWriter index = .error .released := by
  rw [setWriter, ensureLive_of_released dead]
  rfl

lemma viewsOf_of_released (index length : Nat) : b.viewsOf index length = .error .released := by
  rw [viewsOf, ensureLive_of_released dead]
  rfl

lemma viewOf_of_released (index length : Nat) : b.viewOf index length = .error .released := by
  rw [viewOf, viewsOf_of_released dead]
  rfl

lemma toBytes_of_released : b.toBytes = .error .released := by
  rw [toBytes, view, viewOf_of_released dead]
  rfl

end Released

/-- What an operation makes of a buffer whose last reference was given back. -/
def belated (b : Buffer) : BufferAction → Buffer
  | .mark => b.markWriter
  | .reset => b.resetWriter
  | _ => b

/-- **Every operation after the last release** is answered without regard to the buffer, takes nothing from its pool and
leaves the buffer alone, but for the mark and the reset. -/
theorem apply_of_released (dead : b.references = 0) (pool : Pool) (action : BufferAction) :
    b.apply pool action = ({ result := action.belated }, b.belated action, pool) := by
  cases action with
  | readInto target index length =>
    rw [apply, readInto_of_released dead, BufferAction.belated]
    cases checkSpan .readBytesInto index length target.length <;> rfl
  | writeFrom source index length =>
    rw [apply, writeFrom_of_released dead, BufferAction.belated]
    cases checkSpan .writeBytesFrom index length source.length <;> rfl
  | readTo sink length => rw [apply, readTo_of_released dead]; rfl
  | readBool | readByte | readU8 | readShort | readInt | readLong | readFloat | readDouble | readBytes | readVec =>
    rw [apply, read_of_released dead]; rfl
  | skip => rw [apply, skip_of_released dead]; rfl
  | getBytes => rw [apply, getBytes_of_released dead]; rfl
  | writeBool | writeByte | writeU8 | writeShort | writeInt | writeLong | writeFloat | writeDouble | writeBytes =>
    rw [apply, write_of_released dead]; rfl
  | setReader => rw [apply, setReader_of_released dead]; rfl
  | setWriter => rw [apply, setWriter_of_released dead]; rfl
  | views => rw [apply, views, viewsOf_of_released dead]; rfl
  | viewsOf => rw [apply, viewsOf_of_released dead]; rfl
  | view => rw [apply, view, viewOf_of_released dead]; rfl
  | viewOf => rw [apply, viewOf_of_released dead]; rfl
  | toBytes => rw [apply, toBytes_of_released dead]; rfl
  | retain => rw [apply, retain_of_released dead]; rfl
  | release => rw [apply, release_of_released dead]; rfl
  | mark | reset => rfl

end Buffer

/-- Only the mark and the reset succeed then. -/
lemma BufferAction.belated_ok {action : BufferAction} {y : BufferYield} (h : action.belated = .ok y) :
    action = .mark ∨ action = .reset := by
  cases action with
  | mark => exact .inl rfl
  | reset => exact .inr rfl
  | readInto target index length =>
    obtain ⟨_, -, h⟩ := exists_of_bind_eq_ok h
    cases h
  | writeFrom source index length =>
    obtain ⟨_, -, h⟩ := exists_of_bind_eq_ok h
    cases h
  | _ => cases h

namespace Buffer

variable {b b' : Buffer}

/-- What becomes of a buffer whose last reference was given back, whatever is still done to it. No operation finds a
reference or moves the reading position, the capacity or the bytes; the writing position stays or goes where a reset
would have taken it when the last reference was given back. -/
structure Final (b : Buffer) (later : List (Pool × BufferAction)) : Prop where
  answered : ∀ e ∈ b.log later, e.2 = { result := e.1.belated }
  failed : ∀ e ∈ b.log later, (∃ y, e.2.result = .ok y) → e.1 = .mark ∨ e.1 = .reset
  references_eq : (b.after later).references = 0
  segments_eq : (b.after later).segments = b.segments
  capacity_eq : (b.after later).capacity = b.capacity
  reader_eq : (b.after later).reader = b.reader
  writer_eq : (∀ e ∈ later, e.2 ≠ .reset) → (b.after later).writer = b.writer
  writer_cases : (b.after later).writer = b.writer ∨ (b.after later).writer = max (b.mark.getD 0) b.reader

/-- What is left of a buffer after some of that. -/
structure Lingers (b b' : Buffer) : Prop where
  references_eq : b'.references = 0
  segments_eq : b'.segments = b.segments
  capacity_eq : b'.capacity = b.capacity
  reader_eq : b'.reader = b.reader
  writer_cases : b'.writer = b.writer ∨ b'.writer = max (b.mark.getD 0) b.reader
  /-- Where a reset would take the writing position. -/
  target_cases : max (b'.mark.getD 0) b.reader = b.writer ∨ max (b'.mark.getD 0) b.reader = max (b.mark.getD 0) b.reader

lemma Lingers.belated (h : b.Lingers b') (action : BufferAction) : b.Lingers (b'.belated action) := by
  cases action with
  | mark =>
    have le : b.reader ≤ b'.writer := h.reader_eq ▸ b'.reader_le
    refine ⟨h.references_eq, h.segments_eq, h.capacity_eq, h.reader_eq, h.writer_cases, ?_⟩
    change max b'.writer b.reader = _ ∨ max b'.writer b.reader = _
    rw [max_eq_left le]
    exact h.writer_cases
  | reset =>
    refine ⟨h.references_eq, h.segments_eq, h.capacity_eq, h.reader_eq, ?_, h.target_cases⟩
    change max (b'.mark.getD 0) b'.reader = _ ∨ max (b'.mark.getD 0) b'.reader = _
    rw [h.reader_eq]
    exact h.target_cases
  | _ => exact h

lemma Lingers.after (h : b.Lingers b') (later : List (Pool × BufferAction)) :
    b.Lingers (b'.after later) ∧ (∀ e ∈ b'.log later, e.2 = { result := e.1.belated }) ∧
      ((∀ e ∈ later, e.2 ≠ .reset) → (b'.after later).writer = b'.writer) := by
  induction later generalizing b' with
  | nil => exact ⟨h, by simp [log], fun _ => rfl⟩
  | cons e later ih =>
    obtain ⟨pool, action⟩ := e
    obtain ⟨lingers, answered, writer⟩ := ih (h.belated action)
    simp only [Buffer.after, log, apply_of_released h.references_eq, List.forall_mem_cons]
    refine ⟨lingers, ⟨trivial, answered⟩, fun ⟨hne, hrest⟩ => (writer hrest).trans ?_⟩
    cases action <;> first | rfl | exact absurd rfl hne

lemma final_of_released (dead : b.references = 0) (later : List (Pool × BufferAction)) : b.Final later := by
  obtain ⟨lingers, answered, writer⟩ :=
    Lingers.after (b := b) ⟨dead, rfl, rfl, rfl, .inl rfl, .inr rfl⟩ later
  refine ⟨answered, fun e he ⟨y, hy⟩ => ?_, lingers.references_eq, lingers.segments_eq, lingers.capacity_eq,
    lingers.reader_eq, writer, lingers.writer_cases⟩
  rw [answered e he] at hy
  exact BufferAction.belated_ok hy

/-! ### The whole life of a buffer -/

/-- How many references a buffer has that was made with one, when the last one is given back, and what is left then. -/
structure ReleasedOnce (b : Buffer) (past : List (Pool × BufferAction)) : Prop where
  references_add : (b.after past).references + (b.log past).countP BufferEntry.isReleased =
    1 + (b.log past).countP BufferEntry.isRetained
  last_iff : ∀ pool action,
    (action = .release ∧ ((b.after past).apply pool action).1.result = .ok (.bool true)) ↔
      (b.after past).references ≠ 0 ∧ ((b.after past).apply pool action).2.1.references = 0
  once : (b.log past).countP BufferEntry.isLast = if (b.after past).references = 0 then 1 else 0
  final : (b.after past).references = 0 → ∀ later, (b.after past).Final later

lemma references_after (b : Buffer) (past : List (Pool × BufferAction)) :
    (b.after past).references + (b.log past).countP BufferEntry.isReleased =
      b.references + (b.log past).countP BufferEntry.isRetained := by
  induction past generalizing b with
  | nil => rfl
  | cons e past ih =>
    obtain ⟨pool, action⟩ := e
    have first := b.apply_references pool action
    have rest := ih (b.apply pool action).2.1
    simp only [Buffer.after, log, List.countP_cons]
    omega

lemma countP_isLast (b : Buffer) (past : List (Pool × BufferAction)) :
    (b.log past).countP BufferEntry.isLast =
      if b.references ≠ 0 ∧ (b.after past).references = 0 then 1 else 0 := by
  induction past generalizing b with
  | nil => simp [log, Buffer.after]
  | cons e past ih =>
    obtain ⟨pool, action⟩ := e
    have last := b.isLast_apply pool action
    have stays : (b.apply pool action).2.1.references = 0 → ((b.apply pool action).2.1.after past).references = 0 :=
      fun dead => (final_of_released dead past).references_eq
    have revived : b.references = 0 → (b.apply pool action).2.1.references = 0 := fun dead => by
      rw [apply_of_released dead]
      cases action <;> exact dead
    simp only [Buffer.after, log, List.countP_cons, ih, last]
    by_cases live : b.references = 0 <;> by_cases dead : (b.apply pool action).2.1.references = 0 <;> simp_all

lemma build_references (bench : Bench) (origin : BufferOrigin) : (bench.build origin).1.references = 1 := by
  cases origin with
  | segments segments =>
    change (wrapSegments segments).references = 1
    rw [wrapSegments]
    split <;> rfl
  | allocator a =>
    change (a.allocate a.pool).1.references = 1
    rw [Allocator.allocate]
    split <;> rfl
  | _ => rfl

lemma isLast_iff {action : BufferAction} {o : BufferOutcome} :
    BufferEntry.isLast (action, o) = true ↔ action = .release ∧ o.result = .ok (.bool true) := by
  constructor
  · intro h
    cases action with
    | release =>
      rw [BufferEntry.isLast] at h
      split at h
      next last hr => exact ⟨rfl, h ▸ hr⟩
      next => cases h
    | _ => cases h
  · rintro ⟨rfl, hr⟩
    simp only [BufferEntry.isLast, hr]

/-- **Final release is final, but for the reset.** However a buffer was made and whatever was done to it, over whatever
pools: it has one reference, one more for each retain and one less for each release that succeeded. The release that
gives the last one back says so, and no other operation does. From then on there are no references, every operation
fails that can, and none touches the reading position, the capacity or the bytes. Nor is the writing position touched
if there is no reset; a reset takes it where it would have taken it before. -/
theorem release_final (bench : Bench) (origin : BufferOrigin) (past : List (Pool × BufferAction)) :
    (bench.build origin).1.ReleasedOnce past := by
  have one := build_references bench origin
  refine ⟨?_, fun pool action => ?_, ?_, fun dead later => final_of_released dead later⟩
  · rw [references_after, one]
  · rw [← isLast_iff, isLast_apply]
  · simp [countP_isLast, one]

/-- **A reset moves the writing position of a released buffer**: of three bytes, none counts as written any more. -/
theorem released_reset_moves :
    let b := (wrap [97, 98, 99]).after [(.make 1 0 false, .release)]
    b.references = 0 ∧ b.writer = 3 ∧
      ¬ ∀ pool action, (b.apply pool action).2.1.writer = b.writer := by
  refine ⟨rfl, rfl, fun kept => ?_⟩
  exact absurd (kept (.make 1 0 false) .reset) (by decide)

end Buffer

end GraphServer
