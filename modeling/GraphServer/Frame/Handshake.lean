import GraphServer.Error

/-!
The content type at the start of a connection.

The first frame of a connection starts with the length of the content type in one byte and the content
type itself; what follows, and every later frame, is the body of a message.
-/

namespace GraphServer

/-- The content type announced where none is chosen. -/
def defaultContentType : String := "application/vnd.graphbinary-v1.0"

/-- The longest content type, whose length one byte holds. -/
def maxContentType : Nat := 255

/-- Fails unless a content type can be announced. -/
def checkContentType (contentType : String) : Except Error Unit :=
  let length := contentType.utf8ByteSize
  if length = 0 ∨ maxContentType < length then .error (.protocol (.contentTypeLength length)) else .ok ()

/-! ### Sending -/

/-- Puts the content type before the first body. -/
structure HandshakeEncoder where
  contentType : String
  sent : Bool := false
  deriving DecidableEq, Repr

namespace HandshakeEncoder

/-- An encoder that has announced nothing yet. -/
def make (contentType : String) : Except Error HandshakeEncoder := do
  checkContentType contentType
  return { contentType }

/-- The frame of a body. -/
def encode (e : HandshakeEncoder) (body : Bytes) : Bytes × HandshakeEncoder :=
  if e.sent then (body, e)
  else
    let name := Utf8.encode e.contentType
    (UInt8.ofNat name.length :: name ++ body, { e with sent := true })

end HandshakeEncoder

/-! ### Receiving -/

/-- A frame taken apart; only the first one has a content type. -/
structure Envelope where
  contentType : Option String
  body : Bytes
  deriving DecidableEq, Repr

/-- Takes the content type off the first frame. -/
structure HandshakeDecoder where
  contentType : Option String := none
  deriving DecidableEq, Repr

namespace HandshakeDecoder

/-- Takes a first frame apart. -/
def open_ : Bytes → Except Error (String × Bytes)
  | [] => .error (.protocol .emptyHandshake)
  | length :: rest =>
    let length := length.toNat
    if length = 0 then .error (.protocol .zeroContentType)
    else if rest.length < length then .error (.protocol (.truncatedContentType length rest.length))
    else
      match Utf8.decode (rest.take length) with
      | .error _ => .error (.protocol .contentTypeNotUtf8)
      | .ok contentType => .ok (contentType, rest.drop length)

/-- Takes a frame apart. -/
def decode (d : HandshakeDecoder) (frame : Bytes) : Except Error Envelope × HandshakeDecoder :=
  if d.contentType.isSome then (.ok ⟨none, frame⟩, d)
  else
    match open_ frame with
    | .error e => (.error e, d)
    | .ok (contentType, body) => (.ok ⟨some contentType, body⟩, { contentType := some contentType })

end HandshakeDecoder

end GraphServer
