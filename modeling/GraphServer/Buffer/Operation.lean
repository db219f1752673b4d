import GraphServer.Buffer.Sink

/-!
The operations on a buffer as data, so that a history of a buffer is a list of them.

`Buffer.apply` performs one operation on a buffer and its pool. Whatever fails leaves both as they were,
except for copying to a sink, which keeps count of the pieces that the sink took whole.
-/

namespace GraphServer

/-- An operation on a buffer. -/
inductive BufferAction where
  | readBool | readByte | readU8 | readShort | readInt | readLong | readFloat | readDouble
  | readBytes (length : Nat)
  | readVec (length : Nat)
  | readInto (target : Bytes) (index length : Nat)
  | readTo (sink : Sink) (length : Nat)
  | skip (length : Nat)
  | getBytes (index length : Nat)
  | writeBool (b : Bool) | writeByte (n : Int8) | writeU8 (n : UInt8) | writeShort (n : Int16)
  | writeInt (n : Int32) | writeLong (n : Int64) | writeFloat (bits : UInt32) | writeDouble (bits : UInt64)
  | writeBytes (bytes : Bytes)
  | writeFrom (source : Bytes) (index length : Nat)
  | setReader (index : Nat) | setWriter (index : Nat) | mark | reset
  | views | viewsOf (index length : Nat) | view | viewOf (index length : Nat) | toBytes
  | retain | release

/-- What a successful operation yields. -/
inductive BufferYield where
  | done
  | bool (b : Bool)
  /-- A number of at most 32 bits. -/
  | number (n : Int)
  | long (n : Int64)
  | bytes (bytes : Bytes)
  | pieces (pieces : List Bytes)
  | view (v : Buffer.View)
  deriving DecidableEq, Repr

/-- The outcome of an operation: what it yields or how it fails, and what a sink took, if one took part. -/
structure BufferOutcome where
  result : Except BufferError BufferYield
  taken : Bytes := []

namespace Buffer

/-- Performs a reading operation. -/
def reading {α : Type} (b : Buffer) (pool : Pool) (r : Except BufferError (α × Buffer))
    (yield : α → BufferYield) : BufferOutcome × Buffer × Pool :=
  match r with
  | .ok (x, b) => ({ result := .ok (yield x) }, b, pool)
  | .error e => ({ result := .error e }, b, pool)

/-- Performs an operation that changes the buffer alone and yields nothing. -/
def changing (b : Buffer) (pool : Pool) (r : Except BufferError Buffer) : BufferOutcome × Buffer × Pool :=
  b.reading pool ((fun b => ((), b)) <$> r) fun _ => .done

/-- Performs an operation that leaves the buffer alone. -/
def looking {α : Type} (b : Buffer) (pool : Pool) (r : Except BufferError α) (yield : α → BufferYield) :
    BufferOutcome × Buffer × Pool :=
  ({ result := yield <$> r }, b, pool)

/-- Performs a writing operation. -/
def writing (b : Buffer) (pool : Pool) (r : Except BufferError (Buffer × Pool)) :
    BufferOutcome × Buffer × Pool :=
  match r with
  | .ok (b, pool) => ({ result := .ok .done }, b, pool)
  | .error e => ({ result := .error e }, b, pool)

/-- Performs an operation. -/
def apply (b : Buffer) (pool : Pool) : BufferAction → BufferOutcome × Buffer × Pool
  | .readBool => b.reading pool (b.read .readBool 1) fun s => .bool (s.toNat != 0)
  | .readByte => b.reading pool (b.read .readByte 1) fun s => .number (UInt8.ofNat s.toNat).toInt8.toInt
  | .readU8 => b.reading pool (b.read .readU8 1) fun s => .number s.toNat
  | .readShort => b.reading pool (b.read .readShort 2) fun s => .number (UInt16.ofNat s.toNat).toInt16.toInt
  | .readInt => b.reading pool (b.read .readInt 4) fun s => .number (UInt32.ofNat s.toNat).toInt32.toInt
  | .readLong => b.reading pool (b.read .readLong 8) fun s => .long (UInt64.ofNat s.toNat).toInt64
  | .readFloat => b.reading pool (b.read .readFloat 4) .bytes
  | .readDouble => b.reading pool (b.read .readDouble 8) .bytes
  | .readBytes length => b.reading pool (b.read .readBytes length) .bytes
  | .readVec length => b.reading pool (b.read .readVec length) .bytes
  | .readInto target index length => b.reading pool (b.readInto target index length) .bytes
  | .readTo sink length =>
    match b.readTo sink length with
    | (b, taken, none) => ({ result := .ok .done, taken }, b, pool)
    | (b, taken, some e) => ({ result := .error e, taken }, b, pool)
  | .skip length => b.changing pool (b.skip length)
  | .getBytes index length => b.looking pool (b.getBytes index length) .bytes
  | .writeBool x => b.writing pool (b.write pool (Bytes.ofNat 1 (if x then 1 else 0)))
  | .writeByte n => b.writing pool (b.write pool (Bytes.ofNat 1 n.toUInt8.toNat))
  | .writeU8 n => b.writing pool (b.write pool (Bytes.ofNat 1 n.toNat))
  | .writeShort n => b.writing pool (b.write pool (Bytes.ofNat 2 n.toUInt16.toNat))
  | .writeInt n => b.writing pool (b.write pool (Bytes.ofNat 4 n.toUInt32.toNat))
  | .writeLong n => b.writing pool (b.write pool (Bytes.ofNat 8 n.toUInt64.toNat))
  | .writeFloat bits => b.writing pool (b.write pool (Bytes.ofNat 4 bits.toNat))
  | .writeDouble bits => b.writing pool (b.write pool (Bytes.ofNat 8 bits.toNat))
  | .writeBytes bytes => b.writing pool (b.write pool bytes)
  | .writeFrom source index length => b.writing pool (b.writeFrom pool source index length)
  | .setReader index => b.changing pool (b.setReader index)
  | .setWriter index => b.changing pool (b.setWriter index)
  | .mark => b.changing pool (.ok b.markWriter)
  | .reset => b.changing pool (.ok b.resetWriter)
  | .views => b.looking pool b.views .pieces
  | .viewsOf index length => b.looking pool (b.viewsOf index length) .pieces
  | .view => b.looking pool b.view .view
  | .viewOf index length => b.looking pool (b.viewOf index length) .view
  | .toBytes => b.looking pool b.toBytes .bytes
  | .retain => b.changing pool b.retain
  | .release => b.reading pool b.release .bool

end Buffer

end GraphServer
