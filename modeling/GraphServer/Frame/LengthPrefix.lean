import GraphServer.Error

/-!
The length prefix of a frame: four bytes, most significant first, before the frame itself.
-/

namespace GraphServer.LengthPrefix

/-- The number of bytes of a prefix. -/
def width : Nat := 4

/-- The length of the longest frame that has a prefix. -/
def maximum : Nat := 0x7FFFFFFF

/-- The prefix of a frame of a given length. -/
def encode (length : Nat) : Except Error Bytes :=
  if length ≤ maximum then .ok (Bytes.ofNat width length)
  else .error (.protocol (.frameTooLarge length maximum))

/-- The length that the first bytes spell, if there are enough of them. -/
def decode? (bytes : Bytes) : Option Nat :=
  if (bytes.take width).length < width then none else some (Bytes.toNat (bytes.take width))

end GraphServer.LengthPrefix
