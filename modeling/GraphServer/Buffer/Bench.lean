import GraphServer.Buffer.Allocator
import GraphServer.Buffer.Operation

/-!
Several buffers side by side, some of which share pools.

Making a buffer, each operation on it and giving it up may take segments out of its pool or put them
back, which the other buffers of the pool see.
-/

namespace GraphServer

/-- How a buffer is made. -/
inductive BufferOrigin where
  | default
  | fixed (capacity : Nat)
  | growable (initial maximum : Nat)
  | wrap (bytes : Bytes)
  | segments (segments : List Bytes)
  /-- With a pool of its own, if its allocator has one. -/
  | allocator (a : Allocator)
  /-- From a pool that it shares. -/
  | pool (name : String) (maximum : Nat)

/-- Named buffers and pools; each buffer has the name of its pool. -/
structure Bench where
  buffers : List (String × Buffer × String) := []
  pools : List (String × Pool) := []
  /-- The buffer that is looked at. -/
  current : String := ""

namespace Bench

/-- Puts a value under a name, in place of any other. -/
def put {α : Type} (name : String) (x : α) (entries : List (String × α)) : List (String × α) :=
  (name, x) :: entries.filter (·.1 ≠ name)

/-- The pool with a name. -/
def pool (b : Bench) (name : String) : Pool :=
  (b.pools.lookup name).getD (Pool.make 1 0 false)

/-- Sets a pool. -/
def setPool (b : Bench) (name : String) (p : Pool) : Bench :=
  { b with pools := put name p b.pools }

/-- The buffer that is looked at. -/
def buffer? (b : Bench) : Option (Buffer × String) :=
  b.buffers.lookup b.current

/-- Looks at another buffer. -/
def select (b : Bench) (name : String) : Bench :=
  { b with current := name }

/-- Gives a buffer up: whether there was one. -/
def discard (b : Bench) (name : String) : Bool × Bench :=
  match b.buffers.lookup name with
  | none => (false, b)
  | some (buffer, pool) =>
    (true, { b.setPool pool (buffer.drop (b.pool pool)) with buffers := b.buffers.filter (·.1 ≠ name) })

/-- A new buffer, the name of its pool and the pool after that. -/
def build (b : Bench) : BufferOrigin → Buffer × String × Pool
  | .default => (.default, "", b.pool "")
  | .fixed capacity => (.fixed capacity, "", b.pool "")
  | .growable initial maximum => (.growable initial maximum, "", b.pool "")
  | .wrap bytes => (.wrap bytes, "", b.pool "")
  | .segments segments => (.wrapSegments segments, "", b.pool "")
  | .allocator a =>
    let (buffer, pool) := a.allocate a.pool
    (buffer, s!"allocator {b.pools.length}", pool)
  | .pool name maximum =>
    let (buffer, pool) := Buffer.ofPool (b.pool name) maximum
    (buffer, name, pool)

/-- Makes a buffer, gives up the one that had its name, and looks at it. -/
def make (b : Bench) (name : String) (origin : BufferOrigin) : Bench :=
  let (buffer, poolName, pool) := b.build origin
  let b := ((b.setPool poolName pool).discard name).2
  { b with buffers := put name (buffer, poolName) b.buffers, current := name }

/-- Performs an operation on the buffer that is looked at. -/
def operate? (b : Bench) (action : BufferAction) : Option (BufferOutcome × Bench) :=
  b.buffer?.map fun (buffer, name) =>
    let (outcome, buffer, pool) := buffer.apply (b.pool name) action
    (outcome, { b.setPool name pool with buffers := put b.current (buffer, name) b.buffers })

end Bench

end GraphServer
