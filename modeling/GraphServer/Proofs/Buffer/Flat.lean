import GraphServer.Buffer.Operation
import Mathlib.Tactic

/-!
One array of bytes with the positions of a buffer: what a buffer is when the cut into segments is
forgotten.

* `FlatBuffer.apply` performs an operation on the one array: reading copies a span, writing replaces one,
  growing appends zeros;
* `FlatBuffer.Performs` says what an operation on a segmented buffer may answer and what it may leave
  behind. It is `FlatBuffer.apply`, except for what only a cut can decide: into how many pieces views fall,
  and after which of them a failing sink stopped the copying (`FlatBuffer.Drains`).
-/

namespace GraphServer

/-- One array of bytes with a reading and a writing position. -/
structure FlatBuffer where
  bytes : Bytes
  reader : Nat
  writer : Nat
  mark : Option Nat
  growth : Growth
  pooled : Bool
  references : Nat

namespace FlatBuffer

/-! ### Reading and writing one array -/

/-- The bytes of a span. -/
def span (f : FlatBuffer) (index length : Nat) : Bytes :=
  (f.bytes.drop index).take length

/-- Fails once the last reference is given back. -/
def ensureLive (f : FlatBuffer) : Except BufferError Unit :=
  if f.references = 0 then .error .released else .ok ()

/-- Fails unless `length` bytes are there to be read. -/
def ensureReadable (f : FlatBuffer) (op : BufferOp) (length : Nat) : Except BufferError Unit := do
  f.ensureLive
  if f.reader + length ≤ f.writer then return ()
  else throw (.outOfBounds op f.reader length f.writer)

/-- Moves the reading position on. -/
def advance (f : FlatBuffer) (length : Nat) : FlatBuffer :=
  { f with reader := f.reader + length }

/-- Copies the next bytes and passes over them. -/
def read (f : FlatBuffer) (op : BufferOp) (length : Nat) : Except BufferError (Bytes × FlatBuffer) := do
  f.ensureReadable op length
  return (f.span f.reader length, f.advance length)

/-- Reads into a span of `target`. -/
def readInto (f : FlatBuffer) (target : Bytes) (index length : Nat) :
    Except BufferError (Bytes × FlatBuffer) := do
  Buffer.checkSpan .readBytesInto index length target.length
  let (bytes, f) ← f.read .readBytes length
  return (Buffer.place target index bytes, f)

/-- How many zeros are appended when `missing` bytes do not fit: a pooled array grows by a whole segment,
any other doubles as far as its maximum allows, and each by what is missing at the least. -/
def growth? (f : FlatBuffer) (segmentSize maximum missing : Nat) : Nat :=
  if f.pooled then max segmentSize missing
  else max (min (max f.bytes.length missing) (maximum - f.bytes.length)) missing

/-- The array with room for `length` more bytes. -/
def reserve (f : FlatBuffer) (segmentSize length : Nat) : Except BufferError FlatBuffer := do
  f.ensureLive
  let required := f.writer + length
  if required ≤ f.bytes.length then return f
  else
    match f.growth with
    | .fixed => throw (.outOfBounds .write f.writer length f.bytes.length)
    | .growable maximum =>
      if maximum < required then throw (.outOfBounds .write f.writer length maximum)
      else
        let added := f.growth? segmentSize maximum (required - f.bytes.length)
        return { f with bytes := f.bytes ++ zeros added }

/-- Replaces the bytes at the writing position and moves it on. -/
def write (f : FlatBuffer) (segmentSize : Nat) (bytes : Bytes) : Except BufferError FlatBuffer := do
  let f ← f.reserve segmentSize bytes.length
  return { f with bytes := Buffer.place f.bytes f.writer bytes, writer := f.writer + bytes.length }

/-- Writes a span of `source`. -/
def writeFrom (f : FlatBuffer) (segmentSize : Nat) (source : Bytes) (index length : Nat) :
    Except BufferError FlatBuffer := do
  Buffer.checkSpan .writeBytesFrom index length source.length
  f.write segmentSize ((source.drop index).take length)

/-- Moves the reading position. -/
def setReader (f : FlatBuffer) (index : Nat) : Except BufferError FlatBuffer := do
  f.ensureLive
  if index ≤ f.writer then return { f with reader := index }
  else throw (.outOfBounds .setReaderIndex index 0 f.writer)

/-- Moves the writing position. -/
def setWriter (f : FlatBuffer) (index : Nat) : Except BufferError FlatBuffer := do
  f.ensureLive
  if f.reader ≤ index ∧ index ≤ f.bytes.length then return { f with writer := index }
  else throw (.outOfBounds .setWriterIndex index 0 f.bytes.length)

/-- Passes over bytes. -/
def skip (f : FlatBuffer) (length : Nat) : Except BufferError FlatBuffer := do
  f.ensureReadable .skipBytes length
  return f.advance length

/-- Copies bytes from any place of the array. -/
def getBytes (f : FlatBuffer) (index length : Nat) : Except BufferError Bytes := do
  f.ensureLive
  Buffer.checkSpan .getBytes index length f.bytes.length
  return f.span index length

/-- A span of the written bytes. -/
def viewOf (f : FlatBuffer) (index length : Nat) : Except BufferError Bytes := do
  f.ensureLive
  Buffer.checkSpan .views index length f.writer
  return f.span index length

/-- The unread bytes. -/
def view (f : FlatBuffer) : Except BufferError Bytes :=
  f.viewOf f.reader (f.writer - f.reader)

/-- Adds a reference to a live array. -/
def retain (f : FlatBuffer) : Except BufferError FlatBuffer := do
  f.ensureLive
  return { f with references := f.references + 1 }

/-- Gives a reference back; tells whether it was the last one. -/
def release (f : FlatBuffer) : Except BufferError (Bool × FlatBuffer) :=
  if f.references = 0 then .error .illegalReferenceCount
  else .ok (f.references == 1, { f with references := f.references - 1 })

/-- Copies bytes to a sink, offering all of them at once. -/
def readTo (f : FlatBuffer) (sink : Sink) (length : Nat) : FlatBuffer × Bytes × Option BufferError :=
  match f.ensureReadable .readBytesTo length with
  | .error e => (f, [], some e)
  | .ok () =>
    match sink.writeAll [] (f.span f.reader length) with
    | (taken, some e) => (f, taken, some e)
    | (taken, none) => (f.advance length, taken, none)

/-! ### Operations as data -/

/-- Performs an operation that may change the array. -/
def changing {α : Type} (f : FlatBuffer) (r : Except BufferError (α × FlatBuffer))
    (yield : α → BufferYield) : BufferOutcome × FlatBuffer :=
  match r with
  | .ok (x, f) => ({ result := .ok (yield x) }, f)
  | .error e => ({ result := .error e }, f)

/-- Performs an operation that yields nothing but the changed array. -/
def moving (f : FlatBuffer) (r : Except BufferError FlatBuffer) : BufferOutcome × FlatBuffer :=
  f.changing ((fun f => ((), f)) <$> r) fun _ => .done

/-- Performs an operation that leaves the array alone. -/
def looking {α : Type} (f : FlatBuffer) (r : Except BufferError α) (yield : α → BufferYield) :
    BufferOutcome × FlatBuffer :=
  ({ result := yield <$> r }, f)

/-- Performs an operation; `segmentSize` is the size of a segment of the pool, if there is one. -/
def apply (f : FlatBuffer) (segmentSize : Nat) : BufferAction → BufferOutcome × FlatBuffer
  | .readBool => f.changing (f.read .readBool 1) fun s => .bool (s.toNat != 0)
  | .readByte => f.changing (f.read .readByte 1) fun s => .number (UInt8.ofNat s.toNat).toInt8.toInt
  | .readU8 => f.changing (f.read .readU8 1) fun s => .number s.toNat
  | .readShort => f.changing (f.read .readShort 2) fun s => .number (UInt16.ofNat s.toNat).toInt16.toInt
  | .readInt => f.changing (f.read .readInt 4) fun s => .number (UInt32.ofNat s.toNat).toInt32.toInt
  | .readLong => f.changing (f.read .readLong 8) fun s => .long (UInt64.ofNat s.toNat).toInt64
  | .readFloat => f.changing (f.read .readFloat 4) .bytes
  | .readDouble => f.changing (f.read .readDouble 8) .bytes
  | .readBytes length => f.changing (f.read .readBytes length) .bytes
  | .readVec length => f.changing (f.read .readVec length) .bytes
  | .readInto target index length => f.changing (f.readInto target index length) .bytes
  | .readTo sink length =>
    match f.readTo sink length with
    | (f, taken, none) => ({ result := .ok .done, taken }, f)
    | (f, taken, some e) => ({ result := .error e, taken }, f)
  | .skip length => f.moving (f.skip length)
  | .getBytes index length => f.looking (f.getBytes index length) .bytes
  | .writeBool x => f.moving (f.write segmentSize (Bytes.ofNat 1 (if x then 1 else 0)))
  | .writeByte n => f.moving (f.write segmentSize (Bytes.ofNat 1 n.toUInt8.toNat))
  | .writeU8 n => f.moving (f.write segmentSize (Bytes.ofNat 1 n.toNat))
  | .writeShort n => f.moving (f.write segmentSize (Bytes.ofNat 2 n.toUInt16.toNat))
  | .writeInt n => f.moving (f.write segmentSize (Bytes.ofNat 4 n.toUInt32.toNat))
  | .writeLong n => f.moving (f.write segmentSize (Bytes.ofNat 8 n.toUInt64.toNat))
  | .writeFloat bits => f.moving (f.write segmentSize (Bytes.ofNat 4 bits.toNat))
  | .writeDouble bits => f.moving (f.write segmentSize (Bytes.ofNat 8 bits.toNat))
  | .writeBytes bytes => f.moving (f.write segmentSize bytes)
  | .writeFrom source index length => f.moving (f.writeFrom segmentSize source index length)
  | .setReader index => f.moving (f.setReader index)
  | .setWriter index => f.moving (f.setWriter index)
  | .mark => f.moving (.ok { f with mark := some f.writer })
  | .reset => f.moving (.ok { f with writer := max (f.mark.getD 0) f.reader })
  | .views => f.looking f.view fun s => .pieces [s]
  | .viewsOf index length => f.looking (f.viewOf index length) fun s => .pieces [s]
  | .view => f.looking f.view .bytes
  | .viewOf index length => f.looking (f.viewOf index length) .bytes
  | .toBytes => f.looking f.view .bytes
  | .retain => f.moving f.retain
  | .release => f.changing f.release .bool

end FlatBuffer

/-! ### What a cut into segments leaves open -/

/-- A sink that takes something of every offer. -/
def Sink.Willing (sink : Sink) : Prop :=
  ∀ taken offered, offered ≠ [] → ∃ n, sink taken offered = .accepted (n + 1)

/-- What an operation yields when its pieces are joined and a view is taken for its bytes. -/
def BufferYield.joined : BufferYield → BufferYield
  | .pieces parts => .pieces [parts.flatten]
  | .view v => .bytes v.bytes
  | y => y

/-- The outcome of an operation with its pieces joined. -/
def BufferOutcome.joined (o : BufferOutcome) : BufferOutcome :=
  { o with result := BufferYield.joined <$> o.result }

namespace FlatBuffer

/-- Copying `length` bytes to a sink. Too long a span is refused and touches nothing. Otherwise the sink gets
the next bytes in order: all of them, which are then read, or, if it fails, the first of them, of which some
are then read. A sink that takes a byte of every offer does not fail. -/
structure Drains (f : FlatBuffer) (sink : Sink) (length : Nat) (o : BufferOutcome) (f' : FlatBuffer) :
    Prop where
  refused : ∀ e, f.ensureReadable .readBytesTo length = .error e →
    o.result = .error e ∧ o.taken = [] ∧ f' = f
  result_ok : f.ensureReadable .readBytesTo length = .ok () →
    sink.Willing → o.result = .ok .done
  complete : o.result = .ok .done → o.taken = f.span f.reader length ∧ f' = f.advance length
  broken : ∀ e, f.ensureReadable .readBytesTo length = .ok () → o.result = .error e →
    (∃ text, e = .io text) ∧ o.taken <+: f.span f.reader length ∧
      ∃ k ≤ o.taken.length, f' = f.advance k

/-- What a segmented buffer may answer to an operation and be afterwards, seen as one array. -/
def Performs (f : FlatBuffer) (segmentSize : Nat) : BufferAction → BufferOutcome → FlatBuffer → Prop
  | .readTo sink length, o, f' => f.Drains sink length o f'
  | action, o, f' => (o.joined, f') = f.apply segmentSize action

/-- A run of operations and what each may answer. -/
inductive Runs (segmentSize : Nat) :
    FlatBuffer → List BufferAction → List BufferOutcome → FlatBuffer → Prop
  | nil (f : FlatBuffer) : Runs segmentSize f [] [] f
  | cons {f f₁ f₂ : FlatBuffer} {action : BufferAction} {outcome : BufferOutcome}
    {actions : List BufferAction} {outcomes : List BufferOutcome} :
    f.Performs segmentSize action outcome f₁ → Runs segmentSize f₁ actions outcomes f₂ →
      Runs segmentSize f (action :: actions) (outcome :: outcomes) f₂

end FlatBuffer

/-- The buffer as one array. -/
def Buffer.flat (b : Buffer) : FlatBuffer where
  bytes := b.segments.flatten
  reader := b.reader
  writer := b.writer
  mark := b.mark
  growth := b.growth
  pooled := b.pooled
  references := b.references

end GraphServer
