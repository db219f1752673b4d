import GraphServer.Text.Quoted

/-!
How an operation on a buffer can fail: it reaches outside the bytes that it may touch, the buffer
has been released for good, a release has no reference to give back, or the sink that it copies to
fails.
-/

namespace GraphServer

/-- The operations that check a span of bytes. -/
inductive BufferOp where
  | readBool | readByte | readU8 | readShort | readInt | readLong | readFloat | readDouble
  | readBytes | readVec | readBytesTo | skipBytes | readBytesInto | write | writeBytesFrom | getBytes
  | views | setReaderIndex | setWriterIndex
  deriving DecidableEq, Repr

/-- The name of an operation in messages. -/
def BufferOp.name : BufferOp → String
  | readBool => "read_bool"
  | readByte => "read_byte"
  | readU8 => "read_u8"
  | readShort => "read_short"
  | readInt => "read_int"
  | readLong => "read_long"
  | readFloat => "read_float"
  | readDouble => "read_double"
  | readBytes => "read_bytes"
  | readVec => "read_vec"
  | readBytesTo => "read_bytes_to"
  | skipBytes => "skip_bytes"
  | readBytesInto => "read_bytes_into"
  | write => "write"
  | writeBytesFrom => "write_bytes_from"
  | getBytes => "get_bytes"
  | views => "nio_buffers"
  | setReaderIndex => "set_reader_index"
  | setWriterIndex => "set_writer_index"

/-- Why an operation on a buffer failed. -/
inductive BufferError where
  | outOfBounds (op : BufferOp) (index length limit : Nat)
  | released
  | illegalReferenceCount
  | io (text : String)
  deriving DecidableEq, Repr

namespace BufferError

/-- The name of the kind of failure. -/
def kindName : BufferError → String
  | outOfBounds _ _ _ _ => "OutOfBounds"
  | released => "Released"
  | illegalReferenceCount => "IllegalReferenceCount"
  | io _ => "Io"

/-- The description of the failure. -/
def message : BufferError → String
  | outOfBounds op index length limit =>
    s!"index out of bounds: {op.name} at index {index} with length {length} exceeds {limit}"
  | released => "buffer has already been released"
  | illegalReferenceCount => "illegal reference count decrement"
  | io text => s!"sink I/O error: {text}"

/-- The failure in full detail. -/
def detail : BufferError → String
  | outOfBounds op index length limit =>
    s!"OutOfBounds \x7b op: {Quoted.encode op.name}, index: {index}, length: {length}, limit: {limit} \x7d"
  | released => "Released"
  | illegalReferenceCount => "IllegalReferenceCount"
  | io text => s!"Io(Custom \x7b kind: BrokenPipe, error: {Quoted.encode text} \x7d)"

/-- The descriptions of what lies beneath the failure. -/
def causes : BufferError → List String
  | io text => [text]
  | _ => []

end BufferError

end GraphServer
