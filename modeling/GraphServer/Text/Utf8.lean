import GraphServer.Bytes

/-!
UTF-8 text as bytes.

A sequence is read by the table of well-formed sequences: the lead byte fixes how many
continuation bytes follow and narrows the range of the first of them, which rules out overlong
forms, surrogates and numbers above `10FFFF`. A text that is refused is refused with the place where
the longest well-formed part ends:

* `Utf8.Fault.invalid start length`: the `length` bytes from `start` cannot begin any sequence that
  the next byte continues;
* `Utf8.Fault.incomplete start`: the bytes end inside a sequence that began at `start`.
-/

namespace GraphServer.Utf8

/-! ### Writing -/

/-- The bytes of a text. -/
def encode (text : String) : Bytes :=
  text.toList.flatMap String.utf8EncodeChar

/-! ### Reading -/

/-- Where and how a byte string stops being UTF-8. -/
inductive Fault where
  | invalid (start length : Nat)
  | incomplete (start : Nat)
  deriving DecidableEq, Repr

/-- The description of a fault. -/
def Fault.message : Fault → String
  | .invalid start length => s!"invalid utf-8 sequence of {length} bytes from index {start}"
  | .incomplete start => s!"incomplete utf-8 byte sequence from index {start}"

/-- A sequence that has begun: the bounds of its next byte, how many bytes are owed after that one,
how many have been seen, and the bits gathered so far. -/
structure Pending where
  low : UInt8
  high : UInt8
  owed : Nat
  seen : Nat
  bits : Nat
  deriving DecidableEq, Repr

/-- What a lead byte announces. -/
inductive Lead where
  | complete (c : Char)
  | more (pending : Pending)
  | refused

/-- Reads a lead byte. -/
def lead (b : UInt8) : Lead :=
  if b ≤ 0x7F then .complete (Char.ofNat b.toNat)
  else if b < 0xC2 then .refused
  else if b ≤ 0xDF then .more ⟨0x80, 0xBF, 0, 1, b.toNat - 0xC0⟩
  else if b = 0xE0 then .more ⟨0xA0, 0xBF, 1, 1, 0⟩
  else if b = 0xED then .more ⟨0x80, 0x9F, 1, 1, 0xD⟩
  else if b ≤ 0xEF then .more ⟨0x80, 0xBF, 1, 1, b.toNat - 0xE0⟩
  else if b = 0xF0 then .more ⟨0x90, 0xBF, 2, 1, 0⟩
  else if b ≤ 0xF3 then .more ⟨0x80, 0xBF, 2, 1, b.toNat - 0xF0⟩
  else if b = 0xF4 then .more ⟨0x80, 0x8F, 2, 1, 4⟩
  else .refused

/-- Adds a continuation byte that lies within the bounds. -/
def Pending.add (p : Pending) (b : UInt8) : Pending :=
  { low := 0x80, high := 0xBF, owed := p.owed - 1, seen := p.seen + 1,
    bits := p.bits * 64 + (b.toNat - 0x80) }

/-- Reads characters from a place where a sequence may be under way; `start` is the index of its
lead byte, or of the next byte when none is. -/
def decodeFrom (start : Nat) : Option Pending → Bytes → Except Fault (List Char)
  | none, [] => .ok []
  | some _, [] => .error (.incomplete start)
  | none, b :: rest =>
    match lead b with
    | .complete c => (c :: ·) <$> decodeFrom (start + 1) none rest
    | .more p => decodeFrom start (some p) rest
    | .refused => .error (.invalid start 1)
  | some p, b :: rest =>
    if p.low ≤ b ∧ b ≤ p.high then
      let p' := p.add b
      if p.owed = 0 then (Char.ofNat p'.bits :: ·) <$> decodeFrom (start + p'.seen) none rest
      else decodeFrom start (some p') rest
    else .error (.invalid start p.seen)

/-- The characters of a byte string, or its first fault. -/
def decodeChars (bytes : Bytes) : Except Fault (List Char) :=
  decodeFrom 0 none bytes

/-- The text of a byte string, or its first fault. -/
def decode (bytes : Bytes) : Except Fault String :=
  String.ofList <$> decodeChars bytes

end GraphServer.Utf8
