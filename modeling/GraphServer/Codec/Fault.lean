import GraphServer.Text.Utf8
import GraphServer.Value.Kind

/-!
What can be wrong with the encoding of a value or of a message, and the wording of each fault.
-/

namespace GraphServer

/-- A payload that starts with a count. -/
inductive Counted where
  | string | byteBuffer | list | set | map | bulkSet
  deriving DecidableEq, Repr

/-- The name of a counted payload in messages. -/
def Counted.name : Counted → String
  | string => "string"
  | byteBuffer => "byte buffer"
  | list => "list"
  | set => "set"
  | map => "map"
  | bulkSet => "bulk set"

/-- A fault in an encoding. -/
inductive CodecFault where
  /-- A present value of the kind that only null has. -/
  | nullWithoutFlag
  /-- A value lies within more containers than the reader allows. -/
  | nestedTooDeep (limit : Nat)
  /-- A value is replaced by another one over and over. -/
  | transformDiverged
  /-- A null stands where only a present value may. -/
  | nullNotAllowed (kind : Kind)
  /-- A type code is not the expected one. -/
  | wrongTypeCode (expected : Kind) (found : UInt8)
  /-- A value of one kind was handed to the serializer of another. -/
  | mismatch (expected found : Kind)
  /-- A count is below zero. -/
  | negativeLength (what : Counted) (length : Int)
  /-- A count needs more bytes than are left. -/
  | lengthExceedsInput (what : Counted) (length readable : Nat)
  /-- A count does not fit its 32 bits. -/
  | lengthTooLarge (length : Nat)
  /-- A text is not UTF-8. -/
  | invalidUtf8 (fault : Utf8.Fault)
  /-- No character starts with this byte. -/
  | charLead (byte : UInt8)
  /-- The bytes of a character are not UTF-8. -/
  | charSequence
  /-- A list holds something other than the elements that belong there. -/
  | unexpectedElement (what : String) (found : Kind)
  /-- Something other than a list stands where a list of elements belongs. -/
  | unexpectedList (what : String) (found : Kind)
  /-- A path does not have a label set for every object. -/
  | pathLengths (labels objects : Nat)
  /-- A message starts with an unknown version. -/
  | messageVersion (byte : UInt8)
  /-- A response has an unknown status. -/
  | unknownStatus (code : Int)
  /-- Bytes follow the end of a message. -/
  | trailingBytes (count : Nat)
  /-- A map has more entries than its count can hold. -/
  | mapTooLarge
  /-- A key of a message's map is not a text. -/
  | mapKey (found : Kind)
  /-- Something other than a map stands where a map belongs. -/
  | notAMap
  /-- A serializer's own fault. -/
  | other (text : String)
  deriving DecidableEq, Repr

/-- The wording of a fault. -/
def CodecFault.message : CodecFault → String
  | nullWithoutFlag => "unspecified null type code without the null flag"
  | nestedTooDeep limit => s!"value nested deeper than {limit} levels"
  | transformDiverged => "transform did not converge"
  | nullNotAllowed kind => s!"null is not allowed for a non-nullable {kind.name}"
  | wrongTypeCode expected found =>
    s!"expected type code {expected.display} but found 0x{Bytes.hexPair found}"
  | mismatch expected found => s!"{expected.name} serializer cannot write a {found.name} value"
  | negativeLength what length => s!"negative {what.name} length {length}"
  | lengthExceedsInput what length readable =>
    s!"{what.name} length {length} exceeds {readable} readable bytes"
  | lengthTooLarge length => s!"length {length} exceeds i32::MAX"
  | invalidUtf8 fault => s!"invalid UTF-8: {fault.message}"
  | charLead byte => s!"invalid UTF-8 lead byte 0x{Bytes.hexPair byte} for char"
  | charSequence => "invalid UTF-8 sequence for char"
  | unexpectedElement what found => s!"expected {what} but found {found.name}"
  | unexpectedList what found => s!"expected a list of {what} but found {found.name}"
  | pathLengths labels objects => s!"path has {labels} label sets for {objects} objects"
  | messageVersion byte => s!"unsupported message version 0x{Bytes.hexPair byte}"
  | unknownStatus code => s!"unknown status code {code}"
  | trailingBytes count => s!"{count} trailing bytes after message"
  | mapTooLarge => "map too large"
  | mapKey found => s!"map key must be a String, found {found.name}"
  | notAMap => "expected a map"
  | other text => text

end GraphServer
