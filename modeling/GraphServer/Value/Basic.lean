import GraphServer.Uuid
import GraphServer.Value.Kind

/-!
The values that requests carry and responses return: scalars, containers and graph elements.

Graph elements are references: each carries its identifier, its label and whichever of its
properties its producer chose to attach, and never the element that owns it. The element records
are written over an arbitrary type of values, and `Value` closes the loop.

Floating-point numbers are kept as their bit patterns, so that every pattern, not-a-number payloads
included, survives being carried.
-/

namespace GraphServer

/-! ### Graph elements over a type of values -/

/-- A keyed value attached to an edge or to a vertex property. -/
structure Property (α : Type) where
  key : String
  value : α
  deriving Repr, DecidableEq

/-- A property of a vertex, with properties of its own. -/
structure VertexProperty (α : Type) where
  id : α
  label : String
  value : α
  properties : List (Property α)
  deriving Repr, DecidableEq

/-- The identifier and label of an element that another element refers to. -/
structure ElementRef (α : Type) where
  id : α
  label : String
  deriving Repr, DecidableEq

/-- A vertex with the attached part of its properties. -/
structure Vertex (α : Type) where
  id : α
  label : String
  properties : List (VertexProperty α)
  deriving Repr, DecidableEq

/-- An edge from its outgoing to its incoming vertex. -/
structure Edge (α : Type) where
  id : α
  label : String
  inVertex : ElementRef α
  outVertex : ElementRef α
  properties : List (Property α)
  deriving Repr, DecidableEq

/-- A walk through the graph; a well-formed one has a set of labels for every object. -/
structure Path (α : Type) where
  labels : List (List String)
  objects : List α
  deriving Repr, DecidableEq

/-- A value with the number of times that it stands for. -/
structure Traverser (α : Type) where
  bulk : Int64
  value : α
  deriving Repr, DecidableEq

/-! ### Values -/

/-- A dynamically typed value. Dates and timestamps are milliseconds since the start of 1970; a
duration is whole seconds and an adjustment in nanoseconds. -/
inductive Value where
  | null
  | boolean (b : Bool)
  | byte (n : Int8)
  | short (n : Int16)
  | int (n : Int32)
  | long (n : Int64)
  | float (bits : UInt32)
  | double (bits : UInt64)
  | char (c : Char)
  | string (s : String)
  | uuid (id : Uuid)
  | date (n : Int64)
  | timestamp (n : Int64)
  | duration (seconds : Int64) (nanos : Int32)
  | class_ (name : String)
  | byteBuffer (bytes : Bytes)
  | list (items : List Value)
  | set (items : List Value)
  | map (entries : List (Value × Value))
  | mapEntry (key value : Value)
  | vertex (v : Vertex Value)
  | edge (e : Edge Value)
  | vertexProperty (p : VertexProperty Value)
  | property (p : Property Value)
  | path (p : Path Value)
  | traverser (t : Traverser Value)
  | bulkSet (items : List (Value × Int64))
  deriving Inhabited

namespace Value

/-- The kind of a value. -/
def kind : Value → Kind
  | null => .unspecifiedNull
  | boolean _ => .boolean
  | byte _ => .byte
  | short _ => .short
  | int _ => .int
  | long _ => .long
  | float _ => .float
  | double _ => .double
  | char _ => .char
  | string _ => .string
  | uuid _ => .uuid
  | date _ => .date
  | timestamp _ => .timestamp
  | duration _ _ => .duration
  | class_ _ => .class_
  | byteBuffer _ => .byteBuffer
  | list _ => .list
  | set _ => .set
  | map _ => .map
  | mapEntry _ _ => .mapEntry
  | vertex _ => .vertex
  | edge _ => .edge
  | vertexProperty _ => .vertexProperty
  | property _ => .property
  | path _ => .path
  | traverser _ => .traverser
  | bulkSet _ => .bulkSet

/-- Whether the value is null. -/
def isNull : Value → Bool
  | null => true
  | _ => false

/-- The text of a string value. -/
def string? : Value → Option String
  | string s => some s
  | _ => none

/-- The number of an integral value. -/
def integer? : Value → Option Int64
  | byte n => some n.toInt64
  | short n => some n.toInt64
  | int n => some n.toInt64
  | long n => some n
  | _ => none

end Value

/-! ### Building elements -/

/-- Attaches one more property at the end. -/
def Vertex.attach {α : Type} (v : Vertex α) (p : VertexProperty α) : Vertex α :=
  { v with properties := v.properties ++ [p] }

/-- Attaches one more property at the end. -/
def Edge.attach {α : Type} (e : Edge α) (p : Property α) : Edge α :=
  { e with properties := e.properties ++ [p] }

/-- Takes one more step, to an object under a set of labels. -/
def Path.extend {α : Type} (p : Path α) (object : α) (labels : List String) : Path α :=
  { labels := p.labels ++ [labels], objects := p.objects ++ [object] }

end GraphServer
