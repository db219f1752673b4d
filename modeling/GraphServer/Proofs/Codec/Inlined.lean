import GraphServer.Message.Codec
import GraphServer.Proofs.Codec.RoundTrip

/-!
The parts of elements, paths and messages that are written without the registry.

A list of attached properties, the label sets of a path and a map with texts as keys are written by the code of what
holds them: type codes, flags and counts stand there as constants, and a serializer is looked up only for the values
inside. `Inlined` lists these parts, with the value that each of them stands for and the values inside it.

* `Serializer.payload_vertex` and so on: where they stand in what holds them;
* `Inlined.byHand_congr`: two writers that agree on the values inside give the same part;
* `Serializer.writePayload_congr`: the same of every standard serializer and the values of fewer levels.
-/

namespace GraphServer

lemma Encoding.each_congr {α : Type} {items : List α} {f g : α → Encoding} (h : ∀ x ∈ items, f x = g x) :
    each items f = each items g :=
  congrArg concat (List.map_congr_left h)

/-- A part of an element, a path or a message that is written by hand. -/
inductive Inlined where
  | properties (items : List (Property Value))
  | vertexProperties (items : List (VertexProperty Value))
  | labels (steps : List (List String))
  | fields (f : Fields)

namespace Inlined

open Serializer

/-- The part as the code of what holds it writes it, `nested` writing the values inside. -/
def byHand (nested : Value → Encoding) : Inlined → Encoding
  | properties items => writeProperties nested items
  | vertexProperties items => writeElements .vertexProperty (writeVertexProperty nested) items
  | labels steps => present .list ++ .length steps.length ++ .each steps writeLabels
  | fields f =>
    (if f.size ≤ maxLength then .chunk (Bytes.ofNat 4 f.size) else .fault .mapTooLarge)
      ++ .each f.entries fun e => present .string ++ .string e.1 ++ nested e.2

/-- The value that elements stand for: their list, or a null when there are none. -/
def elements {α : Type} (item : α → Value) (items : List α) : Value :=
  if items.isEmpty then .null else .list (items.map item)

/-- The value that the part stands for. -/
def value : Inlined → Value
  | properties items => elements .property items
  | vertexProperties items => elements .vertexProperty items
  | labels steps => .list (steps.map fun step => .set (step.map .string))
  | fields f => .map (f.entries.map fun e => (.string e.1, e.2))

/-- The part as the registry writes the value that it stands for, a map bare. -/
def registered (r : Registry) : Inlined → Encoding
  | properties items => r.write (properties items).value
  | vertexProperties items => r.write (vertexProperties items).value
  | labels steps => r.write (labels steps).value
  | fields f => r.writeBare .map false (fields f).value

/-- The kinds in a list of elements of one kind. -/
def elementKinds {α : Type} (kind : Kind) (items : List α) : List Kind :=
  if items.isEmpty then [] else [.list, kind]

/-- The kinds of the values that are written by hand. -/
def kinds : Inlined → List Kind
  | properties items => elementKinds .property items
  | vertexProperties items => elementKinds .vertexProperty items
  | labels steps =>
    .list :: (if steps.isEmpty then [] else [.set]) ++ (if steps.flatten.isEmpty then [] else [.string])
  | fields f => .map :: if f.entries.isEmpty then [] else [.string]

/-- The values inside that are handed to the writer. -/
def nested : Inlined → List Value
  | properties items => items.map Property.value
  | vertexProperties items => items.flatMap fun p => p.id :: p.value :: p.properties.map Property.value
  | labels _ => []
  | fields f => f.entries.map Prod.snd

end Inlined

namespace Serializer

open Inlined

variable {f g : Value → Encoding}

/-! ### Where they stand -/

lemma payload_vertex (f : Value → Encoding) (widths : Widths) (v : Vertex Value) :
    (vertex widths).writePayload f (.vertex v) =
      f v.id ++ .string v.label ++ (vertexProperties v.properties).byHand f := rfl

lemma payload_vertexProperty (f : Value → Encoding) (widths : Widths) (p : VertexProperty Value) :
    (vertexProperty widths).writePayload f (.vertexProperty p) =
      f p.id ++ .string p.label ++ f p.value ++ Registry.nullEncoding ++ (properties p.properties).byHand f := rfl

lemma payload_edge (f : Value → Encoding) (widths : Widths) (e : Edge Value) :
    (edge widths).writePayload f (.edge e) =
      f e.id ++ .string e.label ++ f e.inVertex.id ++ .string e.inVertex.label ++ f e.outVertex.id
        ++ .string e.outVertex.label ++ Registry.nullEncoding ++ (properties e.properties).byHand f := rfl

lemma payload_path (f : Value → Encoding) (p : Path Value) :
    path.writePayload f (.path p) =
      (labels p.labels).byHand f ++ present .list ++ .length p.objects.length ++ .each p.objects f := rfl

lemma writeFields_eq (r : Registry) (f : Fields) : MessageCodec.writeFields r f = (fields f).byHand r.write := rfl

/-! ### Writers that agree on the values inside -/

lemma writeElements_congr {α : Type} {kind : Kind} {write write' : α → Encoding} {items : List α}
    (h : ∀ x ∈ items, write x = write' x) : writeElements kind write items = writeElements kind write' items := by
  rw [writeElements, writeElements, Encoding.each_congr fun x hx => by rw [h x hx]]

lemma writeProperties_congr {items : List (Property Value)} (h : ∀ v ∈ items.map Property.value, f v = g v) :
    writeProperties f items = writeProperties g items :=
  writeElements_congr fun p hp => by rw [writeProperty, writeProperty, h p.value (List.mem_map_of_mem hp)]

lemma writeVertexProperty_congr {p : VertexProperty Value}
    (h : ∀ v ∈ p.id :: p.value :: p.properties.map Property.value, f v = g v) :
    writeVertexProperty f p = writeVertexProperty g p := by
  simp only [List.forall_mem_cons] at h
  rw [writeVertexProperty, writeVertexProperty, h.1, h.2.1, writeProperties_congr h.2.2]

end Serializer

namespace Value

lemma levels_property (p : Property Value) : (property p).levels = 1 + p.value.levels := by
  cases p
  rfl

lemma levels_vertexProperty (p : VertexProperty Value) :
    (vertexProperty p).levels = 1 + max p.id.levels (max p.value.levels (levelsProperties p.properties)) := by
  cases p
  rfl

lemma levelsProperties_le_list (items : List (Property Value)) :
    levelsProperties items ≤ (list (items.map property)).levels :=
  levelsProperties_le.mpr fun _ hp => Nat.add_le_add_left (levelsItems_le.mp le_rfl _ (List.mem_map_of_mem hp)) 1

lemma levelsVertexProperties_le_list (items : List (VertexProperty Value)) :
    levelsVertexProperties items ≤ (list (items.map vertexProperty)).levels :=
  levelsVertexProperties_le.mpr fun _ hp => Nat.add_le_add_left (levelsItems_le.mp le_rfl _ (List.mem_map_of_mem hp)) 1

lemma levels_vertex (v : Vertex Value) :
    (vertex v).levels = 1 + max v.id.levels (levelsVertexProperties v.properties) := by
  cases v
  rfl

lemma levels_edge (e : Edge Value) :
    (edge e).levels = 1 + max (max e.id.levels (levelsProperties e.properties))
      (max e.inVertex.id.levels e.outVertex.id.levels) := by
  obtain ⟨id, label, ⟨inId, inLabel⟩, ⟨outId, outLabel⟩, properties⟩ := e
  rfl

lemma levelsItems_lt_path (p : Path Value) : levelsItems p.objects + 1 < (path p).levels := by
  obtain ⟨labels, objects⟩ := p
  simp only [levels, levelsPath]
  omega

lemma levels_traverser (t : Traverser Value) : (traverser t).levels = 1 + t.value.levels := by
  cases t
  rfl

lemma isNull_of_levels_eq_zero {v : Value} (h : v.levels = 0) : v.isNull = true := by
  cases v with
  | null => rfl
  | vertex v => rw [levels_vertex] at h; omega
  | edge e => rw [levels_edge] at h; omega
  | vertexProperty p => rw [levels_vertexProperty] at h; omega
  | property p => rw [levels_property] at h; omega
  | path p => have := levelsItems_lt_path p; omega
  | traverser t => rw [levels_traverser] at h; omega
  | _ => simp [levels] at h

end Value

namespace Inlined

open Serializer

/-- **The values inside are all that a part leaves to the writer.** -/
theorem byHand_congr {p : Inlined} {f g : Value → Encoding} (h : ∀ v ∈ p.nested, f v = g v) :
    p.byHand f = p.byHand g := by
  cases p with
  | properties items => exact writeProperties_congr h
  | vertexProperties items =>
    exact writeElements_congr fun p hp => writeVertexProperty_congr fun v hv => h v (List.mem_flatMap.mpr ⟨p, hp, hv⟩)
  | labels steps => rfl
  | fields entries =>
    rw [byHand, byHand, Encoding.each_congr fun e he => by rw [h e.2 (List.mem_map_of_mem he)]]

/-! ### The levels of the values inside -/

lemma levels_lt_properties {items : List (Property Value)} {v : Value} (h : v ∈ (properties items).nested) :
    v.levels + 1 < Value.levelsProperties items := by
  obtain ⟨p, hp, rfl⟩ := List.mem_map.mp h
  have hitem := Value.levelsProperties_le.mp le_rfl p hp
  rw [Value.levels_property] at hitem
  omega

lemma levels_lt_vertexProperty {p : VertexProperty Value} {v : Value}
    (h : v ∈ p.id :: p.value :: p.properties.map Property.value) : v.levels < (Value.vertexProperty p).levels := by
  rw [Value.levels_vertexProperty]
  obtain rfl | h := List.mem_cons.mp h
  · omega
  obtain rfl | h := List.mem_cons.mp h
  · omega
  have := levels_lt_properties h
  omega

lemma levels_lt_vertexProperties {items : List (VertexProperty Value)} {v : Value}
    (h : v ∈ (vertexProperties items).nested) : v.levels + 1 < Value.levelsVertexProperties items := by
  obtain ⟨p, hp, hv⟩ := List.mem_flatMap.mp h
  have hitem := Value.levelsVertexProperties_le.mp le_rfl p hp
  have := levels_lt_vertexProperty hv
  omega

end Inlined

namespace Serializer

open Inlined

/-- **What a standard serializer writes depends on how values of fewer levels are written, and on nothing else.** -/
theorem writePayload_congr {v : Value} {s : Serializer} {f g : Value → Encoding}
    (hs : Registry.standard.find? v.kind = some s) (h : ∀ w, w.levels < v.levels → f w = g w) :
    s.writePayload f v = s.writePayload g v := by
  cases v with
  | null => cases hs
  | list items | set items =>
    cases hs
    have hitems := Value.levelsItems_le.mp (le_refl (Value.levelsItems items))
    change writeItems f items = writeItems g items
    rw [writeItems, writeItems, Encoding.each_congr fun v hv => h v (Nat.lt_one_add_iff.mpr (hitems v hv))]
  | map entries =>
    cases hs
    have hentries := Value.levelsEntries_le.mp (le_refl (Value.levelsEntries entries))
    have hentry : ∀ e ∈ entries, f e.1 ++ f e.2 = g e.1 ++ g e.2 := fun e he => by
      rw [h e.1 (Nat.lt_one_add_iff.mpr (hentries e he).1), h e.2 (Nat.lt_one_add_iff.mpr (hentries e he).2)]
    exact congrArg (Encoding.length entries.length ++ ·) (Encoding.each_congr hentry)
  | vertex v =>
    cases hs
    rw [Value.levels_vertex] at h
    have hproperties : (vertexProperties v.properties).byHand f = (vertexProperties v.properties).byHand g :=
      byHand_congr fun w hw => h w (by have := levels_lt_vertexProperties hw; omega)
    rw [payload_vertex, payload_vertex, hproperties, h v.id (by omega)]
  | edge e =>
    cases hs
    rw [Value.levels_edge] at h
    have hproperties : (properties e.properties).byHand f = (properties e.properties).byHand g :=
      byHand_congr fun w hw => h w (by have := levels_lt_properties hw; omega)
    rw [payload_edge, payload_edge, hproperties, h e.id (by omega), h e.inVertex.id (by omega),
      h e.outVertex.id (by omega)]
  | vertexProperty p =>
    cases hs
    exact writeVertexProperty_congr fun w hw => h w (levels_lt_vertexProperty hw)
  | property p =>
    cases hs
    rw [Value.levels_property] at h
    change writeProperty f p = writeProperty g p
    rw [writeProperty, writeProperty, h p.value (by omega)]
  | path p =>
    cases hs
    have hlevels := Value.levelsItems_lt_path p
    have hobjects := Value.levelsItems_le.mp (le_refl (Value.levelsItems p.objects))
    have hlabels : (labels p.labels).byHand f = (labels p.labels).byHand g := rfl
    rw [payload_path, payload_path, hlabels, Encoding.each_congr fun w hw => h w (by have := hobjects w hw; omega)]
  | traverser t =>
    cases hs
    rw [Value.levels_traverser] at h
    exact congrArg (Encoding.long t.bulk ++ ·) (h t.value (by omega))
  | bulkSet items =>
    cases hs
    have hitems := Value.levelsCounted_le.mp (le_refl (Value.levelsCounted items))
    have hitem : ∀ e ∈ items, f e.1 ++ Encoding.long e.2 = g e.1 ++ Encoding.long e.2 := fun e he => by
      rw [h e.1 (Nat.lt_one_add_iff.mpr (hitems e he))]
    exact congrArg (Encoding.length items.length ++ ·) (Encoding.each_congr hitem)
  | _ => cases hs; rfl

end Serializer

end GraphServer
