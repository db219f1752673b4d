import GraphServer.Bytes

/-!
Universally unique identifiers: 128 bits, written as thirty-two hexadecimal digits in groups of
8, 4, 4, 4 and 12 with hyphens between them.
-/

namespace GraphServer

/-- A 128-bit identifier as its more and its less significant half. -/
structure Uuid where
  hi : UInt64
  lo : UInt64
  deriving DecidableEq, Repr, Inhabited

namespace Uuid

/-- The identifier of all zero bits. -/
def nil : Uuid := ⟨0, 0⟩

/-- The sixteen bytes, most significant first. -/
def toBytes (id : Uuid) : Bytes :=
  Bytes.ofNat 8 id.hi.toNat ++ Bytes.ofNat 8 id.lo.toNat

/-- The identifier spelled by sixteen bytes. -/
def ofBytes (bytes : Bytes) : Uuid :=
  ⟨UInt64.ofNat (Bytes.toNat (bytes.take 8)), UInt64.ofNat (Bytes.toNat (bytes.drop 8))⟩

/-- The hyphenated lower-case text. -/
def text (id : Uuid) : String :=
  let bytes := id.toBytes
  String.intercalate "-" [Bytes.hex (bytes.take 4), Bytes.hex ((bytes.drop 4).take 2),
    Bytes.hex ((bytes.drop 6).take 2), Bytes.hex ((bytes.drop 8).take 2), Bytes.hex (bytes.drop 10)]

/-- Reads thirty-two hexadecimal digits, hyphens left out. -/
def ofText? (text : String) : Option Uuid := do
  let bytes ← Bytes.ofHexDigits? (text.toList.filter (· ≠ '-'))
  guard (bytes.length = 16)
  return ofBytes bytes

end Uuid

end GraphServer
