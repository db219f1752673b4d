import GraphServer.Codec.Registry

/-!
The serializers of graph elements, paths and traversers.

An element is written as a reference: the slot for the element that owns it holds a null, and whatever
it holds is skipped on reading. Attached properties are a list with the type code of each, or a null
when there are none. A path is the list of its label sets and the list of its objects, both always
written.
-/

namespace GraphServer.Serializer

/-! ### Lists of elements -/

/-- Reads a list of elements, null standing for none; `pick` takes the elements that belong there. -/
def readElements {α : Type} (what : String) (pick : Value → Option α) (nested : Decode Value) :
    Decode (List α) := do
  match ← nested with
  | .null => return []
  | .list items =>
    items.mapM fun item =>
      match pick item with
      | some x => pure x
      | none => Decode.fault (.unexpectedElement what item.kind)
  | other => Decode.fault (.unexpectedList what other.kind)

/-- The header of a present value. -/
def present (kind : Kind) : Encoding :=
  .u8 kind.code ++ .u8 ValueFlags.present

/-- Writes a list of elements of one kind, or a null when there are none. -/
def writeElements {α : Type} (kind : Kind) (write : α → Encoding) (items : List α) : Encoding :=
  if items.isEmpty then Registry.nullEncoding
  else present .list ++ .length items.length ++ .each items fun x => present kind ++ write x

/-- Reads a list of properties. -/
def readProperties : Decode Value → Decode (List (Property Value)) :=
  readElements "Property" fun | .property p => some p | _ => none

/-- Writes the payload of a property. -/
def writeProperty (nested : Value → Encoding) (p : Property Value) : Encoding :=
  .string p.key ++ nested p.value ++ Registry.nullEncoding

/-- Writes a list of properties. -/
def writeProperties (nested : Value → Encoding) : List (Property Value) → Encoding :=
  writeElements .property (writeProperty nested)

/-- Writes the payload of a vertex property. -/
def writeVertexProperty (nested : Value → Encoding) (p : VertexProperty Value) : Encoding :=
  nested p.id ++ .string p.label ++ nested p.value ++ Registry.nullEncoding
    ++ writeProperties nested p.properties

/-! ### Elements -/

/-- A property: key, value and owner. -/
def property (widths : Widths) : Serializer where
  kind := .property
  readPayload nested := do
    let key ← Decode.string widths
    let value ← nested
    let _owner ← nested
    return .property ⟨key, value⟩
  writePayload nested
    | .property p => writeProperty nested p
    | v => .fault (.mismatch .property v.kind)

/-- A vertex property: identifier, label, value, owner and properties. -/
def vertexProperty (widths : Widths) : Serializer where
  kind := .vertexProperty
  readPayload nested := do
    let id ← nested
    let label ← Decode.string widths
    let value ← nested
    let _owner ← nested
    let properties ← readProperties nested
    return .vertexProperty ⟨id, label, value, properties⟩
  writePayload nested
    | .vertexProperty p => writeVertexProperty nested p
    | v => .fault (.mismatch .vertexProperty v.kind)

/-- A vertex: identifier, label and properties. -/
def vertex (widths : Widths) : Serializer where
  kind := .vertex
  readPayload nested := do
    let id ← nested
    let label ← Decode.string widths
    let properties ← readElements "VertexProperty"
      (fun | .vertexProperty p => some p | _ => none) nested
    return .vertex ⟨id, label, properties⟩
  writePayload nested
    | .vertex v =>
      nested v.id ++ .string v.label
        ++ writeElements .vertexProperty (writeVertexProperty nested) v.properties
    | v => .fault (.mismatch .vertex v.kind)

/-- Reads the identifier and the label of an element that another one refers to. -/
def readElementRef (widths : Widths) (nested : Decode Value) : Decode (ElementRef Value) := do
  let id ← nested
  let label ← Decode.string widths
  return ⟨id, label⟩

/-- An edge: identifier, label, incoming and outgoing vertex, owner and properties. -/
def edge (widths : Widths) : Serializer where
  kind := .edge
  readPayload nested := do
    let id ← nested
    let label ← Decode.string widths
    let inVertex ← readElementRef widths nested
    let outVertex ← readElementRef widths nested
    let _owner ← nested
    let properties ← readProperties nested
    return .edge ⟨id, label, inVertex, outVertex, properties⟩
  writePayload nested
    | .edge e =>
      nested e.id ++ .string e.label
        ++ nested e.inVertex.id ++ .string e.inVertex.label
        ++ nested e.outVertex.id ++ .string e.outVertex.label
        ++ Registry.nullEncoding ++ writeProperties nested e.properties
    | v => .fault (.mismatch .edge v.kind)

/-! ### Paths and traversers -/

/-- The labels in a set of texts. -/
def labels? : Value → Option (List String)
  | .set items => items.mapM Value.string?
  | _ => none

/-- Reads the objects of a path, null standing for none. -/
def readObjects (nested : Decode Value) : Decode (List Value) := do
  match ← nested with
  | .list objects => return objects
  | .null => return []
  | other => Decode.fault (.mismatch .list other.kind)

/-- Writes the label set of one step. -/
def writeLabels (step : List String) : Encoding :=
  present .set ++ .length step.length ++ .each step fun label => present .string ++ .string label

/-- A path: its label sets and its objects, as many of the one as of the other. -/
def path : Serializer where
  kind := .path
  readPayload nested := do
    let labels ← readElements "Set" labels? nested
    let objects ← readObjects nested
    if labels.length ≠ objects.length then
      Decode.fault (.pathLengths labels.length objects.length)
    else return .path ⟨labels, objects⟩
  writePayload nested
    | .path p =>
      present .list ++ .length p.labels.length ++ .each p.labels writeLabels
        ++ present .list ++ .length p.objects.length ++ .each p.objects nested
    | v => .fault (.mismatch .path v.kind)

/-- A traverser: its bulk and its value. -/
def traverser : Serializer where
  kind := .traverser
  readPayload nested := do
    let bulk ← Decode.long
    let value ← nested
    return .traverser ⟨bulk, value⟩
  writePayload nested
    | .traverser t => .long t.bulk ++ nested t.value
    | v => .fault (.mismatch .traverser v.kind)

end GraphServer.Serializer
