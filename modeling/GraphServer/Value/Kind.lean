import GraphServer.Bytes

/-!
The kinds of values and the one-byte type codes that name them on the wire.

* `Kind.code` and `Kind.ofCode?` are inverse to each other (`ofCode?_code`, `code_ofCode?`);
* `Kind.all` lists the kinds in the order of their codes.
-/

namespace GraphServer

/-- A kind of value. -/
inductive Kind where
  | int | long | string | date | timestamp | class_ | double | float | list | map | set | uuid
  | edge | path | property | vertex | vertexProperty | traverser | byte | byteBuffer | short
  | boolean | bulkSet | char | duration | mapEntry | unspecifiedNull
  deriving DecidableEq, Repr, Inhabited

namespace Kind

/-- Every kind, in the order of the codes. -/
def all : List Kind :=
  [int, long, string, date, timestamp, class_, double, float, list, map, set, uuid, edge, path,
    property, vertex, vertexProperty, traverser, byte, byteBuffer, short, boolean, bulkSet, char,
    duration, mapEntry, unspecifiedNull]

/-- The type code on the wire. -/
def code : Kind → UInt8
  | int => 0x01
  | long => 0x02
  | string => 0x03
  | date => 0x04
  | timestamp => 0x05
  | class_ => 0x06
  | double => 0x07
  | float => 0x08
  | list => 0x09
  | map => 0x0A
  | set => 0x0B
  | uuid => 0x0C
  | edge => 0x0D
  | path => 0x0E
  | property => 0x0F
  | vertex => 0x11
  | vertexProperty => 0x12
  | traverser => 0x21
  | byte => 0x24
  | byteBuffer => 0x25
  | short => 0x26
  | boolean => 0x27
  | bulkSet => 0x2A
  | char => 0x80
  | duration => 0x81
  | mapEntry => 0xF0
  | unspecifiedNull => 0xFE

/-- The kind that a type code names. -/
def ofCode? (code : UInt8) : Option Kind :=
  all.find? (·.code = code)

/-- The name used in messages. -/
def name : Kind → String
  | int => "Int"
  | long => "Long"
  | string => "String"
  | date => "Date"
  | timestamp => "Timestamp"
  | class_ => "Class"
  | double => "Double"
  | float => "Float"
  | list => "List"
  | map => "Map"
  | set => "Set"
  | uuid => "UUID"
  | edge => "Edge"
  | path => "Path"
  | property => "Property"
  | vertex => "Vertex"
  | vertexProperty => "VertexProperty"
  | traverser => "Traverser"
  | byte => "Byte"
  | byteBuffer => "ByteBuffer"
  | short => "Short"
  | boolean => "Boolean"
  | bulkSet => "BulkSet"
  | char => "Char"
  | duration => "Duration"
  | mapEntry => "MapEntry"
  | unspecifiedNull => "UnspecifiedNull"

/-- The name used in a listing of kinds, where the identifier kind is not in capitals. -/
def label : Kind → String
  | uuid => "Uuid"
  | kind => kind.name

/-- The name with the code in hexadecimal. -/
def display (kind : Kind) : String :=
  s!"{kind.name}(0x{Bytes.hexPair kind.code})"

/-- The kind that a name stands for. -/
def ofName? (name : String) : Option Kind :=
  all.find? (·.name = name)

theorem mem_all (kind : Kind) : kind ∈ all := by
  cases kind <;> decide

theorem ofCode?_code (kind : Kind) : ofCode? kind.code = some kind := by
  cases kind <;> decide

theorem code_ofCode? {code : UInt8} {kind : Kind} (h : ofCode? code = some kind) :
    kind.code = code := by
  simpa using List.find?_some h

theorem code_injective {a b : Kind} (h : a.code = b.code) : a = b := by
  simpa [ofCode?_code] using congrArg ofCode? h

end Kind

/-! ### The flags byte, after a type code or before a nullable payload -/

namespace ValueFlags

/-- The flags of a present value. -/
def present : UInt8 := 0x00

/-- The flags of a null value, whose payload is left out. -/
def null : UInt8 := 0x01

/-- Bit 0 marks a null; the other bits are not looked at. -/
def isNull (flags : UInt8) : Bool :=
  flags &&& 1 != 0

end ValueFlags

end GraphServer
