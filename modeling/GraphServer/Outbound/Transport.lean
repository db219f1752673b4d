import GraphServer.Buffer.Sink

/-!
The transport at the end of a connection: where bytes are written, flushed and finally shut down.

A transport may be stalled, so that writing waits. Otherwise its sink says how much of each offer it
takes, and all that it has taken is its output.
-/

namespace GraphServer

/-- A transport. -/
structure Transport where
  /-- How much it takes of each offer. -/
  sink : Sink := fun _ offered => .accepted offered.length
  /-- Why it cannot be flushed, if it cannot. -/
  flushFault : Option String := none
  /-- Why it cannot be shut down, if it cannot. -/
  shutdownFault : Option String := none
  /-- Whether writing waits. -/
  stalled : Bool := false
  /-- All bytes taken. -/
  output : Bytes := []
  /-- How many bytes each write took, where it took any. -/
  writes : List Nat := []
  /-- Whether it was shut down. -/
  isShut : Bool := false

namespace Transport

/-- Writes some bytes: the transport and how many of the bytes it took, or its failure. -/
def write (t : Transport) (bytes : Bytes) : Except String (Transport × Nat) :=
  match t.sink t.output bytes with
  | .failed text => .error text
  | .accepted 0 => .ok (t, 0)
  | .accepted n =>
    .ok ({ t with output := t.output ++ bytes.take n, writes := t.writes ++ [min n bytes.length] }, n)

/-- Flushes what was written. -/
def flush (t : Transport) : Except String Unit :=
  match t.flushFault with
  | some text => .error text
  | none => .ok ()

/-- Shuts the transport down. -/
def shutdown (t : Transport) : Except String Transport :=
  match t.shutdownFault with
  | some text => .error text
  | none => .ok { t with isShut := true }

/-- The transport after its other end went away. -/
def sever (t : Transport) : Transport :=
  { t with sink := fun _ _ => .failed "broken pipe" }

end Transport

end GraphServer
