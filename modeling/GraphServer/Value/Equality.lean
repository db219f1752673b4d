import GraphServer.Value.Binary64
import GraphServer.Value.Basic

/-!
Structural equality of values.

Two values are equal when they are of one kind and their parts are equal in order; floating-point
parts are equal as numbers, so the two zeros are equal and not-a-number differs from itself.
-/

namespace GraphServer

mutual

/-- Structural equality. -/
def Value.beq : Value → Value → Bool
  | .null, b => match b with | .null => true | _ => false
  | .boolean x, b => match b with | .boolean y => x == y | _ => false
  | .byte x, b => match b with | .byte y => x == y | _ => false
  | .short x, b => match b with | .short y => x == y | _ => false
  | .int x, b => match b with | .int y => x == y | _ => false
  | .long x, b => match b with | .long y => x == y | _ => false
  | .float x, b => match b with | .float y => Binary64.beq (.ofBinary32 x) (.ofBinary32 y) | _ => false
  | .double x, b => match b with | .double y => Binary64.beq ⟨x⟩ ⟨y⟩ | _ => false
  | .char x, b => match b with | .char y => x == y | _ => false
  | .string x, b => match b with | .string y => x == y | _ => false
  | .uuid x, b => match b with | .uuid y => x == y | _ => false
  | .date x, b => match b with | .date y => x == y | _ => false
  | .timestamp x, b => match b with | .timestamp y => x == y | _ => false
  | .duration s n, b => match b with | .duration s' n' => s == s' && n == n' | _ => false
  | .class_ x, b => match b with | .class_ y => x == y | _ => false
  | .byteBuffer x, b => match b with | .byteBuffer y => x == y | _ => false
  | .list x, b => match b with | .list y => beqItems x y | _ => false
  | .set x, b => match b with | .set y => beqItems x y | _ => false
  | .map x, b => match b with | .map y => beqEntries x y | _ => false
  | .mapEntry k v, b => match b with | .mapEntry k' v' => k.beq k' && v.beq v' | _ => false
  | .vertex x, b => match b with | .vertex y => beqVertex x y | _ => false
  | .edge x, b => match b with | .edge y => beqEdge x y | _ => false
  | .vertexProperty x, b => match b with | .vertexProperty y => beqVertexProperty x y | _ => false
  | .property x, b => match b with | .property y => beqProperty x y | _ => false
  | .path x, b => match b with | .path y => beqPath x y | _ => false
  | .traverser x, b => match b with | .traverser y => beqTraverser x y | _ => false
  | .bulkSet x, b => match b with | .bulkSet y => beqCounted x y | _ => false
termination_by structural a => a

/-- Equality of two sequences, item by item. -/
def Value.beqItems : List Value → List Value → Bool
  | [], ys => ys.isEmpty
  | x :: xs, ys => match ys with | y :: ys => x.beq y && Value.beqItems xs ys | [] => false
termination_by structural a => a

/-- Equality of a key and its value. -/
def Value.beqEntry : Value × Value → Value × Value → Bool
  | (k, v), e => k.beq e.1 && v.beq e.2
termination_by structural a => a

/-- Equality of two sequences of keys with values, in order. -/
def Value.beqEntries : List (Value × Value) → List (Value × Value) → Bool
  | [], ys => ys.isEmpty
  | x :: xs, ys => match ys with | y :: ys => Value.beqEntry x y && Value.beqEntries xs ys | [] => false
termination_by structural a => a

/-- Equality of an item and its count. -/
def Value.beqCount : Value × Int64 → Value × Int64 → Bool
  | (v, n), e => v.beq e.1 && n == e.2
termination_by structural a => a

/-- Equality of two sequences of counted items, in order. -/
def Value.beqCounted : List (Value × Int64) → List (Value × Int64) → Bool
  | [], ys => ys.isEmpty
  | x :: xs, ys => match ys with | y :: ys => Value.beqCount x y && Value.beqCounted xs ys | [] => false
termination_by structural a => a

/-- Equality of two properties. -/
def Value.beqProperty : Property Value → Property Value → Bool
  | ⟨key, value⟩, p => key == p.key && value.beq p.value
termination_by structural a => a

/-- Equality of two sequences of properties, in order. -/
def Value.beqProperties : List (Property Value) → List (Property Value) → Bool
  | [], ys => ys.isEmpty
  | x :: xs, ys =>
    match ys with | y :: ys => Value.beqProperty x y && Value.beqProperties xs ys | [] => false
termination_by structural a => a

/-- Equality of two vertex properties. -/
def Value.beqVertexProperty : VertexProperty Value → VertexProperty Value → Bool
  | ⟨id, label, value, properties⟩, p =>
    id.beq p.id && label == p.label && value.beq p.value && Value.beqProperties properties p.properties
termination_by structural a => a

/-- Equality of two sequences of vertex properties, in order. -/
def Value.beqVertexProperties : List (VertexProperty Value) → List (VertexProperty Value) → Bool
  | [], ys => ys.isEmpty
  | x :: xs, ys =>
    match ys with
    | y :: ys => Value.beqVertexProperty x y && Value.beqVertexProperties xs ys
    | [] => false
termination_by structural a => a

/-- Equality of two references to elements. -/
def Value.beqElementRef : ElementRef Value → ElementRef Value → Bool
  | ⟨id, label⟩, r => id.beq r.id && label == r.label
termination_by structural a => a

/-- Equality of two vertices. -/
def Value.beqVertex : Vertex Value → Vertex Value → Bool
  | ⟨id, label, properties⟩, v =>
    id.beq v.id && label == v.label && Value.beqVertexProperties properties v.properties
termination_by structural a => a

/-- Equality of two edges. -/
def Value.beqEdge : Edge Value → Edge Value → Bool
  | ⟨id, label, inVertex, outVertex, properties⟩, e =>
    id.beq e.id && label == e.label && Value.beqElementRef inVertex e.inVertex
      && Value.beqElementRef outVertex e.outVertex && Value.beqProperties properties e.properties
termination_by structural a => a

/-- Equality of two paths. -/
def Value.beqPath : Path Value → Path Value → Bool
  | ⟨labels, objects⟩, p => labels == p.labels && Value.beqItems objects p.objects
termination_by structural a => a

/-- Equality of two traversers. -/
def Value.beqTraverser : Traverser Value → Traverser Value → Bool
  | ⟨bulk, value⟩, t => bulk == t.bulk && value.beq t.value
termination_by structural a => a

end

instance : BEq Value := ⟨Value.beq⟩

end GraphServer
