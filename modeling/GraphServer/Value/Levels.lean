import GraphServer.Value.Basic

/-!
How deeply a value nests, as its reader counts: null takes no level, a scalar takes one, and a container
or element takes one more than the deepest value read inside it. The properties of an element, when it
has any, and the labels and objects of a path are read as lists, and the lists count as well. A lone map
entry counts as the map of that one entry, as which it is written.
-/

namespace GraphServer

mutual

/-- The number of levels that a reader needs for a value. -/
def Value.levels : Value → Nat
  | .null => 0
  | .boolean _ | .byte _ | .short _ | .int _ | .long _ | .float _ | .double _ | .char _ | .string _
  | .uuid _ | .date _ | .timestamp _ | .duration _ _ | .class_ _ | .byteBuffer _ => 1
  | .list items => 1 + levelsItems items
  | .set items => 1 + levelsItems items
  | .map entries => 1 + levelsEntries entries
  | .mapEntry key value => 1 + max key.levels value.levels
  | .vertex v => levelsVertex v
  | .edge e => levelsEdge e
  | .vertexProperty p => levelsVertexProperty p
  | .property p => levelsProperty p
  | .path p => levelsPath p
  | .traverser t => levelsTraverser t
  | .bulkSet items => 1 + levelsCounted items
termination_by structural v => v

/-- The most levels of any item. -/
def Value.levelsItems : List Value → Nat
  | [] => 0
  | v :: rest => max v.levels (Value.levelsItems rest)
termination_by structural v => v

/-- The most levels of a key or its value. -/
def Value.levelsEntry : Value × Value → Nat
  | (k, v) => max k.levels v.levels
termination_by structural v => v

/-- The most levels of any key or value. -/
def Value.levelsEntries : List (Value × Value) → Nat
  | [] => 0
  | e :: rest => max (Value.levelsEntry e) (Value.levelsEntries rest)
termination_by structural v => v

/-- The levels of a counted item. -/
def Value.levelsCount : Value × Int64 → Nat
  | (v, _) => v.levels
termination_by structural v => v

/-- The most levels of any counted item. -/
def Value.levelsCounted : List (Value × Int64) → Nat
  | [] => 0
  | e :: rest => max (Value.levelsCount e) (Value.levelsCounted rest)
termination_by structural v => v

/-- The levels of a property. -/
def Value.levelsProperty : Property Value → Nat
  | ⟨_, value⟩ => 1 + value.levels
termination_by structural v => v

/-- The levels of a list of properties, zero if it is empty and written as null. -/
def Value.levelsProperties : List (Property Value) → Nat
  | [] => 0
  | p :: rest => max (1 + Value.levelsProperty p) (Value.levelsProperties rest)
termination_by structural v => v

/-- The levels of a vertex property. -/
def Value.levelsVertexProperty : VertexProperty Value → Nat
  | ⟨id, _, value, properties⟩ =>
    1 + max id.levels (max value.levels (Value.levelsProperties properties))
termination_by structural v => v

/-- The levels of a list of vertex properties, zero if it is empty and written as null. -/
def Value.levelsVertexProperties : List (VertexProperty Value) → Nat
  | [] => 0
  | p :: rest => max (1 + Value.levelsVertexProperty p) (Value.levelsVertexProperties rest)
termination_by structural v => v

/-- The levels of the identifier in a reference. -/
def Value.levelsElementRef : ElementRef Value → Nat
  | ⟨id, _⟩ => id.levels
termination_by structural v => v

/-- The levels of a vertex. -/
def Value.levelsVertex : Vertex Value → Nat
  | ⟨id, _, properties⟩ => 1 + max id.levels (Value.levelsVertexProperties properties)
termination_by structural v => v

/-- The levels of an edge. -/
def Value.levelsEdge : Edge Value → Nat
  | ⟨id, _, inVertex, outVertex, properties⟩ =>
    1 + max (max id.levels (Value.levelsProperties properties))
      (max (Value.levelsElementRef inVertex) (Value.levelsElementRef outVertex))
termination_by structural v => v

/-- The levels of a path: labels are texts in sets in a list, objects are in a list. -/
def Value.levelsPath : Path Value → Nat
  | ⟨labels, objects⟩ =>
    1 + max (1 + (labels.map fun step => if step.isEmpty then 1 else 2).foldr max 0)
      (1 + Value.levelsItems objects)
termination_by structural v => v

/-- The levels of a traverser. -/
def Value.levelsTraverser : Traverser Value → Nat
  | ⟨_, value⟩ => 1 + value.levels
termination_by structural v => v

end

end GraphServer
