import GraphServer.Error

/-!
The output of an encoder: the chunks that it writes one after the other and, if it gives up, the error
with which it does so after them.

Encodings are joined by `++`: what comes after an error is never written. A buffer takes the chunks in
order and may itself refuse one, so the division into chunks decides how much of an encoding a full
buffer holds.
-/

namespace GraphServer

/-- The chunks written in order, and the error after them, if any. -/
structure Encoding where
  chunks : List Bytes
  error? : Option Error
  deriving DecidableEq, Repr

namespace Encoding

/-- Writes nothing. -/
def empty : Encoding := ⟨[], none⟩

/-- Writes one chunk. -/
def chunk (bytes : Bytes) : Encoding := ⟨[bytes], none⟩

/-- Gives up without writing. -/
def fail (e : Error) : Encoding := ⟨[], some e⟩

/-- Gives up with a fault in the encoding. -/
def fault (f : CodecFault) : Encoding := fail (.serialization f)

/-- One encoding after the other; an error ends the output. -/
def append (a b : Encoding) : Encoding :=
  match a.error? with
  | none => ⟨a.chunks ++ b.chunks, b.error?⟩
  | some _ => a

instance : Append Encoding := ⟨append⟩

/-- Encodings in order. -/
def concat : List Encoding → Encoding
  | [] => empty
  | a :: rest => a ++ concat rest

/-- The encodings of all items in order. -/
def each {α : Type} (items : List α) (encode : α → Encoding) : Encoding :=
  concat (items.map encode)

/-- All bytes written. -/
def bytes (a : Encoding) : Bytes := a.chunks.flatten

/-- The bytes, unless the encoder gave up. -/
def result (a : Encoding) : Except Error Bytes :=
  match a.error? with
  | none => .ok a.bytes
  | some e => .error e

@[simp] theorem empty_append (a : Encoding) : empty ++ a = a := rfl

@[simp] theorem append_empty (a : Encoding) : a ++ empty = a := by
  obtain ⟨chunks, _ | e⟩ := a
  · change (⟨chunks ++ [], none⟩ : Encoding) = _
    rw [List.append_nil]
  · rfl

theorem append_assoc (a b c : Encoding) : a ++ b ++ c = a ++ (b ++ c) := by
  obtain ⟨ca, _ | ea⟩ := a
  · obtain ⟨cb, _ | eb⟩ := b
    · change (⟨ca ++ cb ++ c.chunks, c.error?⟩ : Encoding) = ⟨ca ++ (cb ++ c.chunks), c.error?⟩
      rw [List.append_assoc]
    · rfl
  · rfl

/-! ### Fixed-width numbers -/

/-- One byte. -/
def u8 (n : UInt8) : Encoding := chunk (Bytes.ofNat 1 n.toNat)

/-- A boolean as one byte. -/
def bool (b : Bool) : Encoding := u8 (if b then 1 else 0)

/-- A signed 8-bit number. -/
def byte (n : Int8) : Encoding := chunk (Bytes.ofNat 1 n.toUInt8.toNat)

/-- A signed 16-bit number. -/
def short (n : Int16) : Encoding := chunk (Bytes.ofNat 2 n.toUInt16.toNat)

/-- A signed 32-bit number. -/
def int (n : Int32) : Encoding := chunk (Bytes.ofNat 4 n.toUInt32.toNat)

/-- A signed 64-bit number. -/
def long (n : Int64) : Encoding := chunk (Bytes.ofNat 8 n.toUInt64.toNat)

/-- The bits of a single-precision number. -/
def float (bits : UInt32) : Encoding := chunk (Bytes.ofNat 4 bits.toNat)

/-- The bits of a double-precision number. -/
def double (bits : UInt64) : Encoding := chunk (Bytes.ofNat 8 bits.toNat)

/-- An identifier as two 64-bit halves. -/
def uuid (id : Uuid) : Encoding :=
  chunk (Bytes.ofNat 8 id.hi.toNat) ++ chunk (Bytes.ofNat 8 id.lo.toNat)

end Encoding

end GraphServer
