import GraphServer.Buffer.Error
import GraphServer.Buffer.Pool
import GraphServer.Buffer.Segments

/-!
Byte buffers with a reading and a writing position over several segments.

The bytes before the reading position are read, those up to the writing position are written and not
yet read, and those up to the capacity are free. A growable buffer takes another segment when what is
written no longer fits, from the pool that it belongs to or of its own, until its maximum capacity is
reached. A buffer counts its references; once the count is zero no operation that yields a result
succeeds any more.

The order of the positions and the agreement of the capacity with the segments are part of the type.
An operation that fails yields no buffer: the one it was given is still there, unchanged.
-/

namespace GraphServer

/-- How far a buffer grows. -/
inductive Growth where
  | fixed
  | growable (maximum : Nat)
  deriving DecidableEq, Repr

/-- A byte buffer. -/
structure Buffer where
  segments : List Bytes
  capacity : Nat
  reader : Nat
  writer : Nat
  /-- The writing position to go back to. -/
  mark : Option Nat
  growth : Growth
  direct : Bool
  /-- Whether its segments come from a pool and go back to it. -/
  pooled : Bool
  references : Nat
  capacity_eq : capacity = totalLength segments
  reader_le : reader ≤ writer
  writer_le : writer ≤ capacity
  mark_le : ∀ m ∈ mark, m ≤ capacity
  segments_ne : segments ≠ []

namespace Buffer

/-! ### Making buffers -/

/-- The greatest capacity of a buffer that names none. -/
def defaultMaximum : Nat := 0x7FFFFFFF

/-- The first capacity of a buffer that names none. -/
def defaultInitial : Nat := 256

/-- A buffer over segments of which `written` bytes are written. -/
def ofSegments (first : Bytes) (rest : List Bytes) (written : Nat) (growth : Growth)
    (direct pooled : Bool) (h : written ≤ totalLength (first :: rest)) : Buffer where
  segments := first :: rest
  capacity := totalLength (first :: rest)
  reader := 0
  writer := written
  mark := none
  growth
  direct
  pooled
  references := 1
  capacity_eq := rfl
  reader_le := Nat.zero_le _
  writer_le := h
  mark_le := by simp
  segments_ne := by simp

/-- An empty buffer that never grows. -/
def fixed (capacity : Nat) : Buffer :=
  ofSegments (zeros capacity) [] 0 .fixed false false (Nat.zero_le _)

/-- An empty buffer that grows up to a maximum. -/
def growable (initial maximum : Nat) : Buffer :=
  ofSegments (zeros (min initial maximum)) [] 0 (.growable maximum) false false (Nat.zero_le _)

/-- An empty buffer of the usual size that grows without a practical limit. -/
def default : Buffer :=
  growable defaultInitial defaultMaximum

/-- A buffer full of given bytes, all unread. -/
def wrap (bytes : Bytes) : Buffer :=
  ofSegments bytes [] bytes.length .fixed false false (Nat.le_refl _)

/-- A buffer full of the bytes of the given segments, all unread; empty segments are left out. -/
def wrapSegments (segments : List Bytes) : Buffer :=
  match segments.filter (!·.isEmpty) with
  | [] => wrap []
  | s :: rest =>
    ofSegments s rest (totalLength (s :: rest)) .fixed false false (Nat.le_refl _)

/-- An empty buffer over one segment of a pool. -/
def ofPool (pool : Pool) (maximum : Nat) : Buffer × Pool :=
  let (segment, pool) := pool.acquire 1
  (ofSegments segment [] 0 (.growable maximum) pool.direct true (Nat.zero_le _), pool)

/-- Gives the segments of a buffer that is no longer used back to its pool. -/
def drop (b : Buffer) (pool : Pool) : Pool :=
  if b.pooled then pool.recycle b.segments else pool

/-! ### Positions -/

/-- The number of bytes written and not yet read. -/
def readable (b : Buffer) : Nat := b.writer - b.reader

/-- The number of bytes free without growing. -/
def writable (b : Buffer) : Nat := b.capacity - b.writer

/-- Fails once the last reference is given back. -/
def ensureLive (b : Buffer) : Except BufferError Unit :=
  if b.references = 0 then .error .released else .ok ()

/-- Fails if a span reaches beyond a limit. -/
def checkSpan (op : BufferOp) (index length limit : Nat) : Except BufferError Unit :=
  if index + length ≤ limit then .ok () else .error (.outOfBounds op index length limit)

/-- Moves the reading position, at most up to the writing position. -/
def setReader (b : Buffer) (index : Nat) : Except BufferError Buffer := do
  b.ensureLive
  if h : index ≤ b.writer then
    return { b with reader := index, reader_le := h }
  else throw (.outOfBounds .setReaderIndex index 0 b.writer)

/-- Moves the writing position, between the reading position and the capacity. -/
def setWriter (b : Buffer) (index : Nat) : Except BufferError Buffer := do
  b.ensureLive
  if h : b.reader ≤ index ∧ index ≤ b.capacity then
    return { b with writer := index, reader_le := h.1, writer_le := h.2 }
  else throw (.outOfBounds .setWriterIndex index 0 b.capacity)

/-- Remembers the writing position. -/
def markWriter (b : Buffer) : Buffer :=
  { b with mark := some b.writer, mark_le := by simpa using b.writer_le }

/-- Goes back to the remembered writing position, or to the start, but not before the reading
position. -/
def resetWriter (b : Buffer) : Buffer :=
  { b with
    writer := max (b.mark.getD 0) b.reader
    reader_le := Nat.le_max_right _ _
    writer_le := by
      have hr := Nat.le_trans b.reader_le b.writer_le
      have hm : b.mark.getD 0 ≤ b.capacity := by
        cases h : b.mark with
        | none => exact Nat.zero_le _
        | some m => exact b.mark_le m (by simp [h])
      exact Nat.max_le.2 ⟨hm, hr⟩ }

/-! ### References -/

/-- Adds a reference to a live buffer. -/
def retain (b : Buffer) : Except BufferError Buffer := do
  b.ensureLive
  return { b with references := b.references + 1 }

/-- Gives a reference back; tells whether it was the last one. -/
def release (b : Buffer) : Except BufferError (Bool × Buffer) :=
  if b.references = 0 then .error .illegalReferenceCount
  else .ok (b.references == 1, { b with references := b.references - 1 })

/-! ### Reading -/

/-- Fails unless `length` bytes are there to be read. -/
def ensureReadable (b : Buffer) (op : BufferOp) (length : Nat) : Except BufferError Unit := do
  b.ensureLive
  if length ≤ b.readable then return ()
  else throw (.outOfBounds op b.reader length b.writer)

/-- The bytes of a span. -/
def span (b : Buffer) (index length : Nat) : Bytes :=
  (slices b.segments index length).flatten

/-- Moves the reading position on, at most up to the writing position. -/
def advance (b : Buffer) (length : Nat) : Buffer :=
  { b with reader := min (b.reader + length) b.writer, reader_le := Nat.min_le_right _ _ }

/-- Reads bytes, under the name of an operation. -/
def read (b : Buffer) (op : BufferOp) (length : Nat) : Except BufferError (Bytes × Buffer) := do
  b.ensureReadable op length
  return (b.span b.reader length, b.advance length)

/-- Passes over bytes. -/
def skip (b : Buffer) (length : Nat) : Except BufferError Buffer := do
  b.ensureReadable .skipBytes length
  return b.advance length

/-- Puts the bytes of `source` into `target` from `index` on. -/
def place (target : Bytes) (index : Nat) (source : Bytes) : Bytes :=
  target.take index ++ source ++ target.drop (index + source.length)

/-- Reads into a span of `target`, which yields the new target. -/
def readInto (b : Buffer) (target : Bytes) (index length : Nat) :
    Except BufferError (Bytes × Buffer) := do
  checkSpan .readBytesInto index length target.length
  let (bytes, b) ← b.read .readBytes length
  return (place target index bytes, b)

/-- Copies bytes from any place within the capacity. -/
def getBytes (b : Buffer) (index length : Nat) : Except BufferError Bytes := do
  b.ensureLive
  checkSpan .getBytes index length b.capacity
  return b.span index length

/-! ### Writing -/

/-- The segment that a growable buffer takes on when `missing` bytes do not fit: from its pool, or of
its own, doubling the capacity as far as the maximum allows. -/
def nextSegment (b : Buffer) (pool : Pool) (maximum missing : Nat) : Bytes × Pool :=
  if b.pooled then pool.acquire missing
  else (zeros (max (min (max b.capacity missing) (maximum - b.capacity)) missing), pool)

/-- Takes on one more segment. -/
def addSegment (b : Buffer) (segment : Bytes) : Buffer :=
  { b with
    segments := b.segments ++ [segment]
    capacity := b.capacity + segment.length
    capacity_eq := by simp [b.capacity_eq, totalLength_eq]
    writer_le := Nat.le_trans b.writer_le (Nat.le_add_right _ _)
    mark_le := fun m hm => Nat.le_trans (b.mark_le m hm) (Nat.le_add_right _ _)
    segments_ne := by simp }

/-- Makes room for `length` more bytes. -/
def reserve (b : Buffer) (pool : Pool) (length : Nat) : Except BufferError (Buffer × Pool) := do
  b.ensureLive
  let required := b.writer + length
  if required ≤ b.capacity then return (b, pool)
  else
    match b.growth with
    | .fixed => throw (.outOfBounds .write b.writer length b.capacity)
    | .growable maximum =>
      if maximum < required then throw (.outOfBounds .write b.writer length maximum)
      else
        let (segment, pool) := b.nextSegment pool maximum (required - b.capacity)
        return (b.addSegment segment, pool)

/-- Puts bytes at the writing position, as many as the capacity leaves room for, and moves it on. -/
def fill (b : Buffer) (bytes : Bytes) : Buffer :=
  let bytes := bytes.take b.writable
  { b with
    segments := overwrite b.segments b.writer bytes
    writer := b.writer + bytes.length
    capacity_eq := by rw [totalLength_overwrite, b.capacity_eq]
    reader_le := Nat.le_trans b.reader_le (Nat.le_add_right _ _)
    writer_le := by
      have := b.writer_le
      simp only [List.length_take, writable, bytes]
      omega
    segments_ne := by
      intro h
      have := map_length_overwrite b.segments b.writer bytes
      rw [h] at this
      exact b.segments_ne (by simpa using this.symm) }

/-- Writes bytes; the pool is the one that the buffer belongs to, if it belongs to one. -/
def write (b : Buffer) (pool : Pool) (bytes : Bytes) : Except BufferError (Buffer × Pool) := do
  let (b, pool) ← b.reserve pool bytes.length
  return (b.fill bytes, pool)

/-- Writes a span of `source`. -/
def writeFrom (b : Buffer) (pool : Pool) (source : Bytes) (index length : Nat) :
    Except BufferError (Buffer × Pool) := do
  checkSpan .writeBytesFrom index length source.length
  b.write pool ((source.drop index).take length)

/-! ### Views of what is written -/

/-- The pieces of a span of the written bytes, one for each segment that it meets; a single empty piece
when it meets none. -/
def viewsOf (b : Buffer) (index length : Nat) : Except BufferError (List Bytes) := do
  b.ensureLive
  checkSpan .views index length b.writer
  match slices b.segments index length with
  | [] => return [[]]
  | pieces => return pieces

/-- The pieces of the unread bytes. -/
def views (b : Buffer) : Except BufferError (List Bytes) :=
  b.viewsOf b.reader b.readable

/-- A span of the written bytes in one piece. -/
structure View where
  bytes : Bytes
  /-- Whether the span lies in one segment, so that nothing had to be copied. -/
  borrowed : Bool
  deriving DecidableEq, Repr

/-- A span of the written bytes in one piece. -/
def viewOf (b : Buffer) (index length : Nat) : Except BufferError View := do
  let pieces ← b.viewsOf index length
  return { bytes := pieces.flatten, borrowed := pieces.length == 1 }

/-- The unread bytes in one piece. -/
def view (b : Buffer) : Except BufferError View :=
  b.viewOf b.reader b.readable

/-- A copy of the unread bytes. -/
def toBytes (b : Buffer) : Except BufferError Bytes := do
  return (← b.view).bytes

end Buffer

end GraphServer
