import GraphServer.Codec.Cursor
import GraphServer.Codec.Encoding

/-!
Payloads that start with a count, texts and single characters.

A count is a signed 32-bit number. Before anything is set aside for it, it is held against the bytes
that are left: `Widths` gives the least width of one counted item, and a count that needs more than
what is left is refused at once. A text is its length in bytes and its UTF-8 bytes; a character is its
UTF-8 bytes alone, whose number the first of them tells.
-/

namespace GraphServer

/-- The least encoded width of one counted item. -/
abbrev Widths := Counted → Nat

namespace Widths

/-- The widths by which counts are checked: one byte of a text, two bytes of a value, and what an
entry of a map or a bulk set holds. -/
def encoded : Widths
  | .string | .byteBuffer => 1
  | .list | .set => 2
  | .map => 4
  | .bulkSet => 10

/-- Widths that let every count pass. -/
def unchecked : Widths := fun _ => 0

end Widths

/-- The greatest count. -/
def maxLength : Nat := 0x7FFFFFFF

namespace Decode

/-- A count that is not negative and does not need more bytes than are left. -/
def length (widths : Widths) (what : Counted) : Decode Nat := do
  let n ← int
  if n < 0 then fault (.negativeLength what n.toInt)
  else
    let count := n.toInt.toNat
    let left ← readable
    if left < count * widths what then fault (.lengthExceedsInput what count left)
    else return count

/-- A text. -/
def string (widths : Widths) : Decode String := do
  let n ← length widths .string
  let bytes ← take .readVec n
  match Utf8.decode bytes with
  | .ok text => return text
  | .error f => fault (.invalidUtf8 f)

/-- How many bytes a character has by its first one; the range of first bytes is wider here than in
well-formed text, which is checked when all bytes are there. -/
def charWidth? (first : UInt8) : Option Nat :=
  if first ≤ 0x7F then some 1
  else if first < 0xC0 then none
  else if first ≤ 0xDF then some 2
  else if first ≤ 0xEF then some 3
  else if first ≤ 0xF7 then some 4
  else none

/-- A single character. -/
def char : Decode Char := do
  let first ← u8
  match charWidth? first with
  | none => fault (.charLead first)
  | some width =>
    let others ← take .readBytes (width - 1)
    match Utf8.decodeChars (first :: others) with
    | .ok (c :: _) => return c
    | _ => fault .charSequence

end Decode

namespace Encoding

/-- A count. -/
def length (n : Nat) : Encoding :=
  if n ≤ maxLength then chunk (Bytes.ofNat 4 n) else fault (.lengthTooLarge n)

/-- A text. -/
def string (text : String) : Encoding :=
  let bytes := Utf8.encode text
  length bytes.length ++ chunk bytes

/-- A single character. -/
def char (c : Char) : Encoding :=
  chunk (String.utf8EncodeChar c)

end Encoding

end GraphServer
