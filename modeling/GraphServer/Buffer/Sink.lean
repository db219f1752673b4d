import GraphServer.Buffer.Basic

/-!
Copying from a buffer to a sink that may take less than it is offered.

A sink answers each offer with the number of bytes that it takes or with a failure. Copying offers the
readable bytes segment by segment and each segment again until it is taken whole; a sink that takes
nothing of an offer has failed. The reading position moves on after each whole piece.
-/

namespace GraphServer

/-- The answer of a sink to an offer. -/
inductive SinkReply where
  | accepted (n : Nat)
  | failed (text : String)
  deriving DecidableEq, Repr

/-- A sink: its answer to an offer, given all the bytes that it has taken so far. -/
abbrev Sink := (taken offered : Bytes) → SinkReply

namespace Sink

/-- The failure of a sink that takes nothing of an offer. -/
def stuck : BufferError := .io "failed to write whole buffer"

/-- The sink that takes at most `chunk` bytes of an offer and `limit` bytes in all; at the limit it fails,
or takes nothing if `silent`. -/
def limited (text : String) (limit chunk : Nat) (silent : Bool) : Sink := fun taken offered =>
  let left := limit - taken.length
  if left = 0 then (if silent then .accepted 0 else .failed text)
  else .accepted (min (min chunk left) offered.length)

/-- Offers a piece until it is taken whole, in at most `offers` offers: all the bytes taken, and the
failure that ended the offers, if any. -/
def offer (sink : Sink) : (offers : Nat) → (taken piece : Bytes) → Bytes × Option BufferError
  | 0, taken, _ => (taken, none)
  | offers + 1, taken, piece =>
    if piece.isEmpty then (taken, none)
    else
      match sink taken piece with
      | .failed text => (taken, some (.io text))
      | .accepted 0 => (taken, some stuck)
      | .accepted n => sink.offer offers (taken ++ piece.take n) (piece.drop n)

/-- Offers a piece until it is taken whole; each offer takes a byte or is the last one. -/
def writeAll (sink : Sink) (taken piece : Bytes) : Bytes × Option BufferError :=
  sink.offer piece.length taken piece

end Sink

namespace Buffer

/-- Copies pieces to a sink in order, moving the reading position on after each. -/
def copyPieces (sink : Sink) : Buffer → (taken : Bytes) → List Bytes →
    Buffer × Bytes × Option BufferError
  | b, taken, [] => (b, taken, none)
  | b, taken, piece :: rest =>
    match sink.writeAll taken piece with
    | (taken, some e) => (b, taken, some e)
    | (taken, none) => copyPieces sink (b.advance piece.length) taken rest

/-- Reads bytes into a sink: the buffer, what the sink took, and the failure, if any. -/
def readTo (b : Buffer) (sink : Sink) (length : Nat) : Buffer × Bytes × Option BufferError :=
  match b.ensureReadable .readBytesTo length with
  | .error e => (b, [], some e)
  | .ok () => copyPieces sink b [] (slices b.segments b.reader length)

end Buffer

end GraphServer
