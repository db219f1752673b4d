import GraphServer.Proofs.Value.WellFormed

/-!
Properties that a value has at every nesting.

* `Value.wellFormed_iff_throughout`: a value is well formed when it is sized at every nesting;
* `Value.expanded_eq_self`: a value without lone map entries is what it is expanded to.
-/

namespace GraphServer.Value

/-- A value that has a property at every nesting. -/
inductive Throughout (P : Value → Prop) : Value → Prop
  | intro {v : Value} (here : P v) (parts : ∀ w ∈ v.parts, w.Throughout P) : Throughout P v

variable {P Q : Value → Prop} {v : Value}

lemma Throughout.here (h : v.Throughout P) : P v := by
  cases h with
  | intro here parts => exact here

lemma Throughout.of_mem_parts (h : v.Throughout P) {w : Value} (hw : w ∈ v.parts) : w.Throughout P := by
  cases h with
  | intro here parts => exact parts w hw

lemma Throughout.leaf (here : P v) (h : v.parts = []) : v.Throughout P :=
  .intro here fun w hw => by simp [h] at hw

lemma Throughout.mono (hPQ : ∀ v, P v → Q v) (h : v.Throughout P) : v.Throughout Q := by
  induction h with
  | intro here _ ih => exact .intro (hPQ _ here) ih

lemma wellFormed_iff_throughout : v.WellFormed ↔ v.Throughout Sized := by
  constructor <;> intro h <;> induction h with
  | intro here _ ih => exact .intro here ih

/-- A path, if the value is one, with as many label sets as objects. -/
def Even : Value → Prop
  | path p => p.labels.length = p.objects.length
  | _ => True

lemma Sized.even (h : v.Sized) : v.Even := by
  cases v with
  | path p => exact h.1
  | _ => trivial

/-- All paths in a well-formed value have as many label sets as objects. -/
lemma WellFormed.even (h : v.WellFormed) : v.Throughout Even :=
  (wellFormed_iff_throughout.mp h).mono fun _ => Sized.even

/-! ### Values without lone map entries -/

lemma map_eq_self {α : Type} {f : α → α} {xs : List α} (h : ∀ x ∈ xs, f x = x) : xs.map f = xs :=
  (List.map_congr_left h).trans xs.map_id'

lemma expandedProperties_eq_self {properties : List (Property Value)}
    (h : ∀ p ∈ properties, (property p).expanded = property p) : expandedProperties properties = properties := by
  rw [expandedProperties_eq]
  refine map_eq_self fun p hp => ?_
  have hp := h p hp
  rw [expanded] at hp
  exact property.inj hp

lemma expandedVertexProperties_eq_self {properties : List (VertexProperty Value)}
    (h : ∀ p ∈ properties, (vertexProperty p).expanded = vertexProperty p) :
    expandedVertexProperties properties = properties := by
  rw [expandedVertexProperties_eq]
  refine map_eq_self fun p hp => ?_
  have hp := h p hp
  rw [expanded] at hp
  exact vertexProperty.inj hp

/-- A value without lone map entries is what it is expanded to. -/
theorem expanded_eq_self (h : v.Throughout fun w => w.kind ≠ .mapEntry) : v.expanded = v := by
  induction h with
  | @intro v here _ ih =>
    cases v with
    | list items =>
      rw [expanded, expandedItems_eq]
      exact congrArg _ (map_eq_self ih)
    | set items =>
      rw [expanded, expandedItems_eq]
      exact congrArg _ (map_eq_self ih)
    | map entries =>
      rw [expanded, expandedEntries_eq]
      refine congrArg _ (map_eq_self fun e he => ?_)
      rw [ih e.1 (List.mem_flatMap.mpr ⟨e, he, by simp⟩), ih e.2 (List.mem_flatMap.mpr ⟨e, he, by simp⟩)]
    | mapEntry key value => exact absurd rfl here
    | vertex v =>
      obtain ⟨id, label, properties⟩ := v
      rw [expanded, expandedVertex, ih id (by simp [parts]),
        expandedVertexProperties_eq_self fun p hp => ih _ (by simp [parts, hp])]
    | edge e =>
      obtain ⟨id, label, ⟨inId, inLabel⟩, ⟨outId, outLabel⟩, properties⟩ := e
      rw [expanded, expandedEdge, expandedElementRef, expandedElementRef, ih id (by simp [parts]),
        ih inId (by simp [parts]), ih outId (by simp [parts]),
        expandedProperties_eq_self fun p hp => ih _ (by simp [parts, hp])]
    | vertexProperty p =>
      obtain ⟨id, label, value, properties⟩ := p
      rw [expanded, expandedVertexProperty, ih id (by simp [parts]), ih value (by simp [parts]),
        expandedProperties_eq_self fun p hp => ih _ (by simp [parts, hp])]
    | property p =>
      obtain ⟨key, value⟩ := p
      rw [expanded, expandedProperty, ih value (by simp [parts])]
    | path p =>
      obtain ⟨labels, objects⟩ := p
      have hobjects : objects.map expanded = objects := map_eq_self ih
      rw [expanded, expandedPath, expandedItems_eq, hobjects]
    | traverser t =>
      obtain ⟨bulk, value⟩ := t
      rw [expanded, expandedTraverser, ih value (by simp [parts])]
    | bulkSet items =>
      rw [expanded, expandedCounted_eq]
      refine congrArg _ (map_eq_self fun e he => ?_)
      rw [ih e.1 (List.mem_map.mpr ⟨e, he, rfl⟩)]
    | _ => rfl

end GraphServer.Value
