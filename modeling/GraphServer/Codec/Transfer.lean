import GraphServer.Buffer.Basic
import GraphServer.Codec.Cursor
import GraphServer.Codec.Encoding

/-!
Encodings into buffers and out of them.

`Buffer.emit` writes the chunks of an encoding one after the other. The buffer may refuse a chunk, which
ends the writing with that error; otherwise the encoder's own error, if any, is the outcome. Either way
the chunks before it stay written. `Buffer.decode` reads from the unread bytes and moves the reading
position as far as the reading came, whether or not it succeeded.
-/

namespace GraphServer.Buffer

/-- Writes chunks in order until one is refused. -/
def writeChunks : Buffer → Pool → List Bytes → Buffer × Pool × Option BufferError
  | b, pool, [] => (b, pool, none)
  | b, pool, bytes :: rest =>
    match b.write pool bytes with
    | .error e => (b, pool, some e)
    | .ok (b, pool) => writeChunks b pool rest

/-- Writes an encoding: the buffer, its pool and the error, if any. -/
def emit (b : Buffer) (pool : Pool) (e : Encoding) : Buffer × Pool × Option Error :=
  match b.writeChunks pool e.chunks with
  | (b, pool, some refused) => (b, pool, some (.buffer refused))
  | (b, pool, none) => (b, pool, e.error?)

/-- The unread bytes as a cursor. -/
def cursor (b : Buffer) : Cursor :=
  ⟨b.reader, b.span b.reader b.readable⟩

/-- Reads from the unread bytes. -/
def decode {α : Type} (b : Buffer) (d : Decode α) : Except Error α × Buffer :=
  match b.ensureLive with
  | .error e => (.error (.buffer e), b)
  | .ok () =>
    match d b.cursor with
    | .ok x c => (.ok x, b.advance (c.position - b.reader))
    | .error e c => (.error e, b.advance (c.position - b.reader))

/-- Reads several times, up to the first failure: what was read, the failure if any, and the buffer. -/
def decodeMany {α : Type} (d : Decode α) : Nat → Buffer → List α × Option Error × Buffer
  | 0, b => ([], none, b)
  | n + 1, b =>
    match b.decode d with
    | (.error e, b) => ([], some e, b)
    | (.ok x, b) =>
      let (xs, e, b) := decodeMany d n b
      (x :: xs, e, b)

end GraphServer.Buffer
