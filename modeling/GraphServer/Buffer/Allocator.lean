import GraphServer.Buffer.Basic

/-!
Where the buffers for outgoing messages come from: each a growable buffer of its own, or buffers that
share a pool of segments. An `Allocator` is the choice and its limits; the pool itself, which changes
with every buffer, is passed along.
-/

namespace GraphServer

/-- The kinds of allocators. -/
inductive AllocatorKind where
  | unpooledHeap | pooledHeap | pooledDirect
  deriving DecidableEq, Repr, Inhabited

namespace AllocatorKind

/-- Every kind of allocator. -/
def all : List AllocatorKind := [unpooledHeap, pooledHeap, pooledDirect]

/-- The name of a kind. -/
def name : AllocatorKind → String
  | unpooledHeap => "UnpooledHeap"
  | pooledHeap => "PooledHeap"
  | pooledDirect => "PooledDirect"

/-- The word for a kind in a configuration. -/
def keyword : AllocatorKind → String
  | unpooledHeap => "unpooled_heap"
  | pooledHeap => "pooled_heap"
  | pooledDirect => "pooled_direct"

/-- The kind that a word in a configuration stands for. -/
def ofKeyword? (word : String) : Option AllocatorKind :=
  all.find? (·.keyword = word)

/-- Whether the buffers share a pool. -/
def isPooled (kind : AllocatorKind) : Bool :=
  kind != unpooledHeap

end AllocatorKind

/-- The choice of an allocator and its limits. -/
structure Allocator where
  kind : AllocatorKind := .pooledHeap
  segmentSize : Nat := 8192
  maxCapacity : Nat := Buffer.defaultMaximum
  deriving DecidableEq, Repr, Inhabited

namespace Allocator

/-- How many idle segments an allocator's pool keeps. -/
def maxIdle : Nat := 64

/-- The pool as it is before the first buffer. -/
def pool (a : Allocator) : Pool :=
  Pool.make a.segmentSize maxIdle (a.kind == .pooledDirect)

/-- An empty buffer. -/
def allocate (a : Allocator) (pool : Pool) : Buffer × Pool :=
  if a.kind.isPooled then Buffer.ofPool pool a.maxCapacity
  else (Buffer.growable Buffer.defaultInitial a.maxCapacity, pool)

end Allocator

end GraphServer
