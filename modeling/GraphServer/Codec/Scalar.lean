import GraphServer.Codec.Registry

/-!
The serializers of the kinds that hold no other values. Numbers have a fixed width, most significant
byte first; texts and byte strings start with their length; a duration is its seconds and then its
nanoseconds.
-/

namespace GraphServer.Serializer

/-- The serializer of a kind without nested values. The writer answers for the values of its kind, and
every other value is a mismatch. -/
def leaf (kind : Kind) (read : Decode Value) (write? : Value → Option Encoding) : Serializer where
  kind
  readPayload _ := read
  writePayload _ v :=
    match write? v with
    | some e => e
    | none => .fault (.mismatch kind v.kind)

/-- A 32-bit number. -/
def int : Serializer :=
  leaf .int (.int <$> Decode.int) fun | .int n => some (.int n) | _ => none

/-- A 64-bit number. -/
def long : Serializer :=
  leaf .long (.long <$> Decode.long) fun | .long n => some (.long n) | _ => none

/-- A 16-bit number. -/
def short : Serializer :=
  leaf .short (.short <$> Decode.short) fun | .short n => some (.short n) | _ => none

/-- An 8-bit number. -/
def byte : Serializer :=
  leaf .byte (.byte <$> Decode.byte) fun | .byte n => some (.byte n) | _ => none

/-- A boolean. -/
def boolean : Serializer :=
  leaf .boolean (.boolean <$> Decode.bool) fun | .boolean b => some (.bool b) | _ => none

/-- The bits of a single-precision number. -/
def float : Serializer :=
  leaf .float (.float <$> Decode.float) fun | .float bits => some (.float bits) | _ => none

/-- The bits of a double-precision number. -/
def double : Serializer :=
  leaf .double (.double <$> Decode.double) fun | .double bits => some (.double bits) | _ => none

/-- Milliseconds of a date. -/
def date : Serializer :=
  leaf .date (.date <$> Decode.long) fun | .date n => some (.long n) | _ => none

/-- Milliseconds of a timestamp. -/
def timestamp : Serializer :=
  leaf .timestamp (.timestamp <$> Decode.long) fun | .timestamp n => some (.long n) | _ => none

/-- A text. -/
def string (widths : Widths) : Serializer :=
  leaf .string (.string <$> Decode.string widths) fun | .string s => some (.string s) | _ => none

/-- The name of a class. -/
def class_ (widths : Widths) : Serializer :=
  leaf .class_ (.class_ <$> Decode.string widths) fun | .class_ s => some (.string s) | _ => none

/-- An identifier. -/
def uuid : Serializer :=
  leaf .uuid (.uuid <$> Decode.uuid) fun | .uuid id => some (.uuid id) | _ => none

/-- A character. -/
def char : Serializer :=
  leaf .char (.char <$> Decode.char) fun | .char c => some (.char c) | _ => none

/-- A duration. -/
def duration : Serializer :=
  leaf .duration
    (do
      let seconds ← Decode.long
      let nanos ← Decode.int
      return .duration seconds nanos)
    fun | .duration seconds nanos => some (.long seconds ++ .int nanos) | _ => none

/-- A byte string. -/
def byteBuffer (widths : Widths) : Serializer :=
  leaf .byteBuffer
    (do
      let n ← Decode.length widths .byteBuffer
      let bytes ← Decode.take .readVec n
      return .byteBuffer bytes)
    fun | .byteBuffer bytes => some (.length bytes.length ++ .chunk bytes) | _ => none

end GraphServer.Serializer
