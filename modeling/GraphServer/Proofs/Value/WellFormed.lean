import GraphServer.Codec.Text
import GraphServer.Value.Levels
import Mathlib.Tactic

/-!
Values that have an encoding, and what comes back when they are read.

* `Value.parts`: the values directly inside a value, attached elements among them;
* `Value.WellFormed`: at every nesting the lengths fit their counts and each path has a label set for every
  object;
* `Value.expanded`: the value with every lone map entry, at any nesting, replaced by the map of that entry;
* `Value.levelsItems_le` and so on: a container fits into so many levels when each of its parts does.
-/

namespace GraphServer

namespace Value

/-! ### Well-formed values -/

/-- The values directly inside a value. -/
def parts : Value → List Value
  | list items | set items => items
  | map entries => entries.flatMap fun e => [e.1, e.2]
  | mapEntry key value => [key, value]
  | vertex v => v.id :: v.properties.map vertexProperty
  | edge e => e.id :: e.inVertex.id :: e.outVertex.id :: e.properties.map property
  | vertexProperty p => p.id :: p.value :: p.properties.map property
  | property p => [p.value]
  | path p => p.objects
  | traverser t => [t.value]
  | bulkSet items => items.map Prod.fst
  | _ => []

/-- A text whose length in bytes fits its count. -/
def Fits (text : String) : Prop :=
  (Utf8.encode text).length ≤ maxLength

/-- The counts of a value itself, not of the values inside it, fit, and a path has as many label sets as
objects. -/
def Sized : Value → Prop
  | string s | class_ s => Fits s
  | byteBuffer bytes => bytes.length ≤ maxLength
  | list items | set items => items.length ≤ maxLength
  | map entries => entries.length ≤ maxLength
  | bulkSet items => items.length ≤ maxLength
  | vertex v => Fits v.label ∧ v.properties.length ≤ maxLength
  | edge e => Fits e.label ∧ Fits e.inVertex.label ∧ Fits e.outVertex.label ∧ e.properties.length ≤ maxLength
  | vertexProperty p => Fits p.label ∧ p.properties.length ≤ maxLength
  | property p => Fits p.key
  | path p => p.labels.length = p.objects.length ∧ p.objects.length ≤ maxLength ∧
      ∀ step ∈ p.labels, step.length ≤ maxLength ∧ ∀ label ∈ step, Fits label
  | _ => True

/-- A value that is sized at every nesting. -/
inductive WellFormed : Value → Prop
  | intro {v : Value} (sized : v.Sized) (parts : ∀ w ∈ v.parts, w.WellFormed) : WellFormed v

end Value

/-! ### Lone map entries as maps -/

mutual

/-- The value with every lone map entry replaced by the map of that entry. -/
def Value.expanded : Value → Value
  | .list items => .list (expandedItems items)
  | .set items => .set (expandedItems items)
  | .map entries => .map (expandedEntries entries)
  | .mapEntry key value => .map [(key.expanded, value.expanded)]
  | .vertex v => .vertex (expandedVertex v)
  | .edge e => .edge (expandedEdge e)
  | .vertexProperty p => .vertexProperty (expandedVertexProperty p)
  | .property p => .property (expandedProperty p)
  | .path p => .path (expandedPath p)
  | .traverser t => .traverser (expandedTraverser t)
  | .bulkSet items => .bulkSet (expandedCounted items)
  | .null => .null
  | .boolean b => .boolean b
  | .byte n => .byte n
  | .short n => .short n
  | .int n => .int n
  | .long n => .long n
  | .float bits => .float bits
  | .double bits => .double bits
  | .char c => .char c
  | .string s => .string s
  | .uuid id => .uuid id
  | .date n => .date n
  | .timestamp n => .timestamp n
  | .duration seconds nanos => .duration seconds nanos
  | .class_ name => .class_ name
  | .byteBuffer bytes => .byteBuffer bytes
termination_by structural v => v

/-- Items, each expanded. -/
def Value.expandedItems : List Value → List Value
  | [] => []
  | v :: rest => v.expanded :: Value.expandedItems rest
termination_by structural v => v

/-- A key and its value, each expanded. -/
def Value.expandedEntry : Value × Value → Value × Value
  | (k, v) => (k.expanded, v.expanded)
termination_by structural v => v

/-- Entries, each expanded. -/
def Value.expandedEntries : List (Value × Value) → List (Value × Value)
  | [] => []
  | e :: rest => Value.expandedEntry e :: Value.expandedEntries rest
termination_by structural v => v

/-- A counted item, expanded. -/
def Value.expandedCount : Value × Int64 → Value × Int64
  | (v, n) => (v.expanded, n)
termination_by structural v => v

/-- Counted items, each expanded. -/
def Value.expandedCounted : List (Value × Int64) → List (Value × Int64)
  | [] => []
  | e :: rest => Value.expandedCount e :: Value.expandedCounted rest
termination_by structural v => v

/-- A property, its value expanded. -/
def Value.expandedProperty : Property Value → Property Value
  | ⟨key, value⟩ => ⟨key, value.expanded⟩
termination_by structural v => v

/-- Properties, each expanded. -/
def Value.expandedProperties : List (Property Value) → List (Property Value)
  | [] => []
  | p :: rest => Value.expandedProperty p :: Value.expandedProperties rest
termination_by structural v => v

/-- A vertex property, its values expanded. -/
def Value.expandedVertexProperty : VertexProperty Value → VertexProperty Value
  | ⟨id, label, value, properties⟩ =>
    ⟨id.expanded, label, value.expanded, Value.expandedProperties properties⟩
termination_by structural v => v

/-- Vertex properties, each expanded. -/
def Value.expandedVertexProperties : List (VertexProperty Value) → List (VertexProperty Value)
  | [] => []
  | p :: rest => Value.expandedVertexProperty p :: Value.expandedVertexProperties rest
termination_by structural v => v

/-- A reference, its identifier expanded. -/
def Value.expandedElementRef : ElementRef Value → ElementRef Value
  | ⟨id, label⟩ => ⟨id.expanded, label⟩
termination_by structural v => v

/-- A vertex, its values expanded. -/
def Value.expandedVertex : Vertex Value → Vertex Value
  | ⟨id, label, properties⟩ => ⟨id.expanded, label, Value.expandedVertexProperties properties⟩
termination_by structural v => v

/-- An edge, its values expanded. -/
def Value.expandedEdge : Edge Value → Edge Value
  | ⟨id, label, inVertex, outVertex, properties⟩ =>
    ⟨id.expanded, label, Value.expandedElementRef inVertex, Value.expandedElementRef outVertex,
      Value.expandedProperties properties⟩
termination_by structural v => v

/-- A path, its objects expanded. -/
def Value.expandedPath : Path Value → Path Value
  | ⟨labels, objects⟩ => ⟨labels, Value.expandedItems objects⟩
termination_by structural v => v

/-- A traverser, its value expanded. -/
def Value.expandedTraverser : Traverser Value → Traverser Value
  | ⟨bulk, value⟩ => ⟨bulk, value.expanded⟩
termination_by structural v => v

end

namespace Value

lemma expandedItems_eq (items : List Value) : expandedItems items = items.map expanded := by
  induction items with
  | nil => rfl
  | cons v rest ih => rw [expandedItems, ih, List.map_cons]

lemma expandedEntries_eq (entries : List (Value × Value)) :
    expandedEntries entries = entries.map fun e => (e.1.expanded, e.2.expanded) := by
  induction entries with
  | nil => rfl
  | cons e rest ih => rw [expandedEntries, ih, List.map_cons, expandedEntry]

lemma expandedCounted_eq (items : List (Value × Int64)) :
    expandedCounted items = items.map fun e => (e.1.expanded, e.2) := by
  induction items with
  | nil => rfl
  | cons e rest ih => rw [expandedCounted, ih, List.map_cons, expandedCount]

lemma expandedProperties_eq (properties : List (Property Value)) :
    expandedProperties properties = properties.map expandedProperty := by
  induction properties with
  | nil => rfl
  | cons p rest ih => rw [expandedProperties, ih, List.map_cons]

lemma expandedVertexProperties_eq (properties : List (VertexProperty Value)) :
    expandedVertexProperties properties = properties.map expandedVertexProperty := by
  induction properties with
  | nil => rfl
  | cons p rest ih => rw [expandedVertexProperties, ih, List.map_cons]

/-! ### Levels of containers -/

lemma levelsItems_le {items : List Value} {m : Nat} :
    levelsItems items ≤ m ↔ ∀ v ∈ items, v.levels ≤ m := by
  induction items with
  | nil => simp [levelsItems]
  | cons v rest ih => rw [levelsItems, max_le_iff, ih, List.forall_mem_cons]

lemma levelsEntries_le {entries : List (Value × Value)} {m : Nat} :
    levelsEntries entries ≤ m ↔ ∀ e ∈ entries, e.1.levels ≤ m ∧ e.2.levels ≤ m := by
  induction entries with
  | nil => simp [levelsEntries]
  | cons e rest ih => rw [levelsEntries, max_le_iff, ih, List.forall_mem_cons, levelsEntry, max_le_iff]

lemma levelsCounted_le {items : List (Value × Int64)} {m : Nat} :
    levelsCounted items ≤ m ↔ ∀ e ∈ items, e.1.levels ≤ m := by
  induction items with
  | nil => simp [levelsCounted]
  | cons e rest ih => rw [levelsCounted, max_le_iff, ih, List.forall_mem_cons, levelsCount]

lemma levelsProperties_le {properties : List (Property Value)} {m : Nat} :
    levelsProperties properties ≤ m ↔ ∀ p ∈ properties, 1 + (property p).levels ≤ m := by
  induction properties with
  | nil => simp [levelsProperties]
  | cons p rest ih => rw [levelsProperties, max_le_iff, ih, List.forall_mem_cons, levels]

lemma levelsVertexProperties_le {properties : List (VertexProperty Value)} {m : Nat} :
    levelsVertexProperties properties ≤ m ↔ ∀ p ∈ properties, 1 + (vertexProperty p).levels ≤ m := by
  induction properties with
  | nil => simp [levelsVertexProperties]
  | cons p rest ih => rw [levelsVertexProperties, max_le_iff, ih, List.forall_mem_cons, levels]

/-- The levels of a label set: its own and, unless it is empty, that of its texts. -/
def levelsStep (step : List String) : Nat :=
  if step.isEmpty then 1 else 2

lemma levelsSteps_le {labels : List (List String)} {m : Nat} :
    (labels.map fun step => if step.isEmpty then 1 else 2).foldr max 0 ≤ m ↔
      ∀ step ∈ labels, levelsStep step ≤ m := by
  induction labels with
  | nil => simp
  | cons step rest ih => rw [List.map_cons, List.foldr_cons, max_le_iff, ih, List.forall_mem_cons, levelsStep]

end Value

end GraphServer
