import GraphServer.Error

/-!
Reading from the front of a byte string.

A `Cursor` is the unread rest together with its place in the whole; a `Decode` reads from a cursor and
yields a value or an error, and in both cases the cursor that it leaves, because whoever reads on, or
reports how far the reading came, needs it. Every step first checks that enough bytes are left and
takes nothing when they are not.
-/

namespace GraphServer

/-- The unread bytes and the number of bytes before them. -/
structure Cursor where
  position : Nat
  rest : Bytes
  deriving DecidableEq, Repr

/-- The place at which the bytes end. -/
def Cursor.limit (c : Cursor) : Nat :=
  c.position + c.rest.length

/-- Reads from a cursor. -/
abbrev Decode := EStateM Error Cursor

/-- The first `n` items and the rest, if there are as many. -/
def splitExactly? {α : Type} : Nat → List α → Option (List α × List α)
  | 0, rest => some ([], rest)
  | _ + 1, [] => none
  | n + 1, x :: xs => (splitExactly? n xs).map fun (front, rest) => (x :: front, rest)

theorem splitExactly?_eq {α : Type} (n : Nat) (xs : List α) :
    splitExactly? n xs = if n ≤ xs.length then some (xs.take n, xs.drop n) else none := by
  induction n generalizing xs with
  | zero => simp [splitExactly?]
  | succ n ih =>
    cases xs with
    | nil => simp [splitExactly?]
    | cons x xs =>
      rw [splitExactly?, ih]
      by_cases h : n ≤ xs.length <;> simp [h]

namespace Decode

/-- The next `n` bytes, or the report that `op` reaches beyond the end. -/
def take (op : BufferOp) (n : Nat) : Decode Bytes := fun c =>
  match splitExactly? n c.rest with
  | some (front, rest) => .ok front ⟨c.position + n, rest⟩
  | none => .error (.buffer (.outOfBounds op c.position n c.limit)) c

/-- The number of unread bytes. -/
def readable : Decode Nat := fun c =>
  .ok c.rest.length c

/-- Gives up with a fault in the encoding. -/
def fault {α : Type} (f : CodecFault) : Decode α :=
  throw (.serialization f)

/-- The next `n` bytes as a big-endian number. -/
def number (op : BufferOp) (n : Nat) : Decode Nat :=
  Bytes.toNat <$> take op n

/-! ### Fixed-width numbers -/

/-- One byte. -/
def u8 : Decode UInt8 :=
  UInt8.ofNat <$> number .readU8 1

/-- One byte, of which zero is false and anything else true. -/
def bool : Decode Bool :=
  (· ≠ 0) <$> number .readBool 1

/-- A signed 8-bit number. -/
def byte : Decode Int8 :=
  (fun n => (UInt8.ofNat n).toInt8) <$> number .readByte 1

/-- A signed 16-bit number. -/
def short : Decode Int16 :=
  (fun n => (UInt16.ofNat n).toInt16) <$> number .readShort 2

/-- A signed 32-bit number. -/
def int : Decode Int32 :=
  (fun n => (UInt32.ofNat n).toInt32) <$> number .readInt 4

/-- A signed 64-bit number. -/
def long : Decode Int64 :=
  (fun n => (UInt64.ofNat n).toInt64) <$> number .readLong 8

/-- The bits of a single-precision number. -/
def float : Decode UInt32 :=
  UInt32.ofNat <$> number .readFloat 4

/-- The bits of a double-precision number. -/
def double : Decode UInt64 :=
  UInt64.ofNat <$> number .readDouble 8

/-- An identifier as two 64-bit halves. -/
def uuid : Decode Uuid := do
  let hi ← number .readLong 8
  let lo ← number .readLong 8
  return ⟨UInt64.ofNat hi, UInt64.ofNat lo⟩

/-! ### Sequences -/

/-- Reads `n` times, one after the other. -/
def times {α : Type} : Nat → Decode α → Decode (List α)
  | 0, _ => pure []
  | n + 1, read => do
    let x ← read
    let xs ← times n read
    return x :: xs

end Decode

end GraphServer
