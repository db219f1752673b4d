import GraphServer.Frame.LengthPrefix

/-!
Cutting a stream of bytes into frames, however the stream is chunked.

A `FrameSplitter` keeps the bytes that do not yet make up a frame and whether it waits for a length
prefix or for the body that a prefix announced. A prefix above the maximum is refused and stays where it
is, so that the stream is refused from then on.
-/

namespace GraphServer

/-- What a splitter waits for. -/
inductive FrameState where
  | length
  | body (remaining : Nat)
  deriving DecidableEq, Repr

/-- The bytes of a stream that are not yet cut into frames. -/
structure FrameSplitter where
  /-- The greatest length of a frame. -/
  maximum : Nat
  buffered : Bytes := []
  state : FrameState := .length
  deriving DecidableEq, Repr

namespace FrameSplitter

/-- The greatest length of a frame where none is chosen. -/
def defaultMaximum : Nat := 64 * 1024 * 1024

/-- What one step of cutting yields. -/
inductive Cut where
  /-- More bytes are needed. -/
  | starved
  /-- A prefix was taken off. -/
  | announced (s : FrameSplitter)
  /-- A frame was taken off. -/
  | frame (body : Bytes) (s : FrameSplitter)
  /-- A prefix is above the maximum. -/
  | refused (e : Error)

/-- Takes off one prefix or one body. -/
def cut (s : FrameSplitter) : Cut :=
  match s.state with
  | .length =>
    match LengthPrefix.decode? s.buffered with
    | none => .starved
    | some length =>
      if s.maximum < length then .refused (.protocol (.frameTooLarge length s.maximum))
      else .announced { s with buffered := s.buffered.drop LengthPrefix.width, state := .body length }
  | .body remaining =>
    match splitBody remaining s.buffered with
    | none => .starved
    | some (body, rest) => .frame body { s with buffered := rest, state := .length }
where
  /-- The first `n` bytes and the rest, if there are as many. -/
  splitBody (n : Nat) (bytes : Bytes) : Option (Bytes × Bytes) :=
    if (bytes.take n).length < n then none else some (bytes.take n, bytes.drop n)

/-- Takes off frames until more bytes are needed, in at most `steps` steps. -/
def drain : (steps : Nat) → FrameSplitter → Except Error (List Bytes) × FrameSplitter
  | 0, s => (.ok [], s)
  | steps + 1, s =>
    match s.cut with
    | .starved => (.ok [], s)
    | .announced s => drain steps s
    | .refused e => (.error e, s)
    | .frame body s =>
      match drain steps s with
      | (.ok bodies, s) => (.ok (body :: bodies), s)
      | (.error e, s) => (.error e, s)

/-- Steps enough to cut everything: every frame takes four bytes of prefix and two steps. -/
def stepsFor (s : FrameSplitter) : Nat :=
  s.buffered.length + 2

/-- Adds bytes of the stream: the frames that are now complete, or the refusal of a prefix, with which
the frames before it in these bytes are lost. -/
def push (s : FrameSplitter) (bytes : Bytes) : Except Error (List Bytes) × FrameSplitter :=
  let s := { s with buffered := s.buffered ++ bytes }
  s.drain s.stepsFor

/-- Forgets all bytes. -/
def clear (s : FrameSplitter) : FrameSplitter :=
  { s with buffered := [], state := .length }

end FrameSplitter

end GraphServer
