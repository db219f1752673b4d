import GraphServer.Buffer.Allocator
import GraphServer.Codec.Standard
import GraphServer.Codec.Transfer
import GraphServer.Message.Basic

/-!
Requests and responses as bytes.

A request is the version, its identifier, its operation and processor and the map of its arguments. A
response is the version, the identifier of its request and its status, the message, the maps of its
attributes and of its meta data, and its data. Identifier and message of a response stand behind a flags
byte, which marks their absence. A message has no bytes after its end.

A response that cannot be encoded is replaced by one that says so: the output is rewound to where it
began and the replacement is written in its place.
-/

namespace GraphServer

/-- The version with which every message starts. -/
def messageVersion : UInt8 := 0x81

/-- Encodes and decodes messages: the serializers, the depth to which decoded values may nest, and where
the buffers for encoding come from. -/
structure MessageCodec where
  registry : Registry := .standard
  maxDepth : Nat := 256
  allocator : Allocator := {}

namespace MessageCodec

/-! ### Maps with texts as keys -/

/-- Writes a key with its type code, and the value. -/
def writeField (r : Registry) (e : String × Value) : Encoding :=
  .u8 Kind.string.code ++ .u8 ValueFlags.present ++ .string e.1 ++ r.write e.2

/-- Writes the payload of a map with texts as keys. -/
def writeFields (r : Registry) (f : Fields) : Encoding :=
  (if f.size ≤ maxLength then .chunk (Bytes.ofNat 4 f.size) else .fault .mapTooLarge)
    ++ .each f.entries (writeField r)

/-- The key of a map entry, which has to be a text. -/
def fieldOf (e : Value × Value) : Decode (String × Value) :=
  match e.1 with
  | .string key => return (key, e.2)
  | other => Decode.fault (.mapKey other.kind)

/-- Reads the payload of a map with texts as keys; of a key that occurs twice the last value stays. -/
def readFields (c : MessageCodec) : Decode Fields := do
  match ← c.registry.readBare c.maxDepth .map false with
  | .map entries => return .ofList (← entries.mapM fieldOf)
  | _ => Decode.fault .notAMap

/-! ### Messages -/

/-- Reads the version. -/
def readVersion : Decode Unit := do
  let version ← Decode.u8
  if version = messageVersion then return () else Decode.fault (.messageVersion version)

/-- Fails unless everything is read. -/
def readEnd : Decode Unit := do
  let left ← Decode.readable
  if left = 0 then return () else Decode.fault (.trailingBytes left)

/-- The encoding of a request. -/
def requestEncoding (c : MessageCodec) (r : Request) : Encoding :=
  .u8 messageVersion ++ .uuid r.id ++ .string r.op ++ .string r.processor ++ writeFields c.registry r.args

/-- Reads a request. -/
def readRequest (c : MessageCodec) : Decode Request := do
  readVersion
  let id ← Decode.uuid
  let op ← Decode.string .encoded
  let processor ← Decode.string .encoded
  let args ← c.readFields
  readEnd
  return { id, op, processor, args }

/-- Writes what may be absent behind a flags byte. -/
def writeOptional {α : Type} (write : α → Encoding) : Option α → Encoding
  | some x => .u8 ValueFlags.present ++ write x
  | none => .u8 ValueFlags.null

/-- Reads what may be absent behind a flags byte. -/
def readOptional {α : Type} (read : Decode α) : Decode (Option α) := do
  let flags ← Decode.u8
  if ValueFlags.isNull flags then return none else some <$> read

/-- The encoding of a response. -/
def responseEncoding (c : MessageCodec) (r : Response) : Encoding :=
  .u8 messageVersion ++ writeOptional .uuid r.request ++ .int r.status.code
    ++ writeOptional .string r.message ++ writeFields c.registry r.attributes
    ++ writeFields c.registry r.metadata ++ c.registry.write r.data

/-- Reads a status. -/
def readStatus : Decode Status := do
  let code ← Decode.int
  match Status.ofCode? code with
  | some status => return status
  | none => Decode.fault (.unknownStatus code.toInt)

/-- Reads a response. -/
def readResponse (c : MessageCodec) : Decode Response := do
  readVersion
  let request ← readOptional Decode.uuid
  let status ← readStatus
  let message ← readOptional (Decode.string .encoded)
  let attributes ← c.readFields
  let metadata ← c.readFields
  let data ← c.registry.read c.maxDepth
  readEnd
  return { request, status, message, attributes, data, metadata }

/-- Reads a whole byte string. -/
def decode {α : Type} (d : Decode α) (bytes : Bytes) : Except Error α :=
  match d ⟨0, bytes⟩ with
  | .ok x _ => .ok x
  | .error e _ => .error e

/-- The request that a byte string spells. -/
def decodeRequest (c : MessageCodec) (bytes : Bytes) : Except Error Request :=
  decode c.readRequest bytes

/-- The response that a byte string spells. -/
def decodeResponse (c : MessageCodec) (bytes : Bytes) : Except Error Response :=
  decode c.readResponse bytes

/-- The bytes written to a buffer, which is released and goes back to its pool. -/
def finish (b : Buffer) (pool : Pool) : Except Error Bytes × Pool :=
  let bytes := do
    let bytes ← b.toBytes
    let _ ← b.release
    return bytes
  (bytes.mapError Error.buffer, b.drop pool)

/-- The bytes of a request, and the pool after them. -/
def encodeRequest (c : MessageCodec) (pool : Pool) (r : Request) : Except Error Bytes × Pool :=
  let (b, pool) := c.allocator.allocate pool
  match b.emit pool (c.requestEncoding r) with
  | (b, pool, some e) => (.error e, b.drop pool)
  | (b, pool, none) => finish b pool

/-- What is sent in place of a response that cannot be encoded. -/
def fallback (request : Option Uuid) (e : Error) : Response :=
  .ofMessage request .serializationError s!"Error during serialization: {e.message}"

/-- The bytes of a response, or of its replacement when it cannot be encoded, and the pool after them. -/
def encodeResponse (c : MessageCodec) (pool : Pool) (r : Response) : Except Error Bytes × Pool :=
  let (b, pool) := c.allocator.allocate pool
  match b.markWriter.emit pool (c.responseEncoding r) with
  | (b, pool, none) => finish b pool
  | (b, pool, some e) =>
    match b.resetWriter.emit pool (c.responseEncoding (fallback r.request e)) with
    | (b, pool, none) => finish b pool
    | (b, pool, some e) => (.error e, b.drop pool)

end MessageCodec

end GraphServer
