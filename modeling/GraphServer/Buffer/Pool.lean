import GraphServer.Bytes

/-!
A free list of byte segments of one size.

A segment that a buffer no longer needs is filled with zeros and kept, as long as the list is not full;
a segment of another size is let go. A request that one segment cannot meet gets a segment of its own
of exactly the wanted length.
-/

namespace GraphServer

/-- As many zero bytes. -/
def zeros (n : Nat) : Bytes :=
  List.replicate n 0

/-- A pool of segments. -/
structure Pool where
  /-- The length of a pooled segment. -/
  segmentSize : Nat
  /-- How many idle segments are kept. -/
  maxIdle : Nat
  /-- Whether its buffers count as direct. -/
  direct : Bool
  /-- The idle segments, the last one returned first. -/
  idle : List Bytes := []
  deriving DecidableEq, Repr

namespace Pool

/-- A pool without idle segments; a segment has at least one byte. -/
def make (segmentSize maxIdle : Nat) (direct : Bool) : Pool :=
  { segmentSize := max segmentSize 1, maxIdle, direct }

/-- Hands out a segment of at least `least` bytes. -/
def acquire (p : Pool) (least : Nat) : Bytes × Pool :=
  if p.segmentSize < least then (zeros least, p)
  else
    match p.idle with
    | [] => (zeros p.segmentSize, p)
    | s :: rest => (s, { p with idle := rest })

/-- Takes back segments in order until the free list is full. -/
def recycle (p : Pool) : List Bytes → Pool
  | [] => p
  | s :: rest =>
    if p.maxIdle ≤ p.idle.length then p
    else if s.length ≠ p.segmentSize then p.recycle rest
    else { p with idle := zeros p.segmentSize :: p.idle }.recycle rest

end Pool

end GraphServer
