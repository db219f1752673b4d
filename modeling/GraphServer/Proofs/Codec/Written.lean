import GraphServer.Proofs.Codec.Carries
import GraphServer.Proofs.Codec.Nests
import GraphServer.Proofs.Codec.RoundTrip
import GraphServer.Proofs.Value.Throughout

/-!
Values that the standard serializers write without giving up.

An encoding of several parts is written when each of them is, so that what is written of a value has counts
that fit and parts that are written, at one level less. The one thing that the writer does not look at is
whether a path has a label set for every object.

* `Encoding.written_append`, `Encoding.written_each`: an encoding is written when its parts are;
* `Registry.wellFormed_of_written`: **a value that is written is well formed, if its paths are even**.
-/

namespace GraphServer

namespace Encoding

variable {a b : Encoding}

lemma written_append : (a ++ b).error? = none ↔ a.error? = none ∧ b.error? = none := by
  change (append a b).error? = none ↔ _
  rw [append]
  cases ha : a.error? with
  | none => simp
  | some e => simp [ha]

lemma written_each {α : Type} {items : List α} {encode : α → Encoding} :
    (each items encode).error? = none ↔ ∀ x ∈ items, (encode x).error? = none := by
  induction items with
  | nil => simp [each, concat, empty]
  | cons x xs ih =>
    change (encode x ++ each xs encode).error? = none ↔ _
    rw [written_append, ih, List.forall_mem_cons]

lemma written_length {n : Nat} : (length n).error? = none ↔ n ≤ maxLength := by
  rw [length]
  split
  next h => exact iff_of_true rfl h
  next h => exact iff_of_false (by simp [fault, fail]) h

lemma written_string {text : String} : (string text).error? = none ↔ Value.Fits text := by
  rw [string, written_append, written_length]
  exact and_iff_left rfl

lemma not_written_fault (f : CodecFault) : (fault f).error? ≠ none := by
  simp [fault, fail]

end Encoding

namespace Registry

open Serializer Encoding

/-- A value with an encoding of its own that is written, is written at one level more than what is inside it. -/
lemma written_payload {v : Value} {s : Serializer} (hs : standard.find? v.kind = some s)
    (htransform : s.transform v = none) (hv : v.isNull = false) {n : Nat}
    (h : (standard.writeAt n v).error? = none) :
    ∃ k, n = k + 1 ∧ (s.writePayload (standard.writeAt k) v).error? = none := by
  cases n with
  | zero =>
    rw [writeAt, resolve_eq hs htransform hv] at h
    exact absurd h (not_written_fault _)
  | succ k =>
    rw [writeAt_succ hs htransform hv, written_append] at h
    exact ⟨k, rfl, h.2⟩

lemma written_elements {α : Type} {kind : Kind} {write : α → Encoding} {items : List α}
    (h : (writeElements kind write items).error? = none) :
    items.length ≤ maxLength ∧ ∀ x ∈ items, (present kind ++ write x).error? = none := by
  rw [writeElements] at h
  split at h
  next hempty => simp [List.isEmpty_iff.mp hempty]
  next hfull =>
    rw [written_append, written_append] at h
    exact ⟨written_length.mp h.1.2, written_each.mp h.2⟩

/-- An attached property that is written, is written alone at one level more. -/
lemma written_attached {p : Property Value} {n : Nat}
    (h : (present .property ++ writeProperty (standard.writeAt n) p).error? = none) :
    (standard.writeAt (n + 1) (.property p)).error? = none := by
  rwa [writeAt_succ (r := standard) (v := .property p) (s := property .encoded) rfl rfl rfl]

lemma written_attachedVertexProperty {p : VertexProperty Value} {n : Nat}
    (h : (present .vertexProperty ++ writeVertexProperty (standard.writeAt n) p).error? = none) :
    (standard.writeAt (n + 1) (.vertexProperty p)).error? = none := by
  rwa [writeAt_succ (r := standard) (v := .vertexProperty p) (s := vertexProperty .encoded) rfl rfl rfl]

lemma written_labels {step : List String} (h : (writeLabels step).error? = none) :
    step.length ≤ maxLength ∧ ∀ label ∈ step, Value.Fits label := by
  rw [writeLabels, written_append, written_append, written_each] at h
  exact ⟨written_length.mp h.1.2, fun label hl => written_string.mp (written_append.mp (h.2 label hl)).2⟩

/-- The payload of a map: its count fits, and its keys and values are written. -/
lemma written_entries {write : Value → Encoding} {entries : List (Value × Value)}
    (h : ((map .encoded).writePayload write (.map entries)).error? = none) :
    entries.length ≤ maxLength ∧ ∀ e ∈ entries, (write e.1).error? = none ∧ (write e.2).error? = none := by
  obtain ⟨hlen, hentries⟩ := written_append.mp h
  exact ⟨written_length.mp hlen, fun e he => written_append.mp (written_each.mp hentries e he)⟩

/-! ### The parts of a layout -/

variable {write : Value → Encoding}

lemma written_vertex {v : Vertex Value} (h : ((vertex .encoded).writePayload write (.vertex v)).error? = none) :
    (write v.id).error? = none ∧ Value.Fits v.label ∧ v.properties.length ≤ maxLength ∧
      ∀ p ∈ v.properties, (present .vertexProperty ++ writeVertexProperty write p).error? = none := by
  obtain ⟨hfront, hproperties⟩ := written_append.mp h
  obtain ⟨hid, hlabel⟩ := written_append.mp hfront
  exact ⟨hid, written_string.mp hlabel, written_elements hproperties⟩

lemma written_edge {e : Edge Value} (h : ((edge .encoded).writePayload write (.edge e)).error? = none) :
    ((write e.id).error? = none ∧ (write e.inVertex.id).error? = none ∧ (write e.outVertex.id).error? = none) ∧
      (Value.Fits e.label ∧ Value.Fits e.inVertex.label ∧ Value.Fits e.outVertex.label ∧
        e.properties.length ≤ maxLength) ∧
      ∀ p ∈ e.properties, (present .property ++ writeProperty write p).error? = none := by
  obtain ⟨hfront, hproperties⟩ := written_append.mp h
  obtain ⟨hfront, -⟩ := written_append.mp hfront
  obtain ⟨hfront, houtLabel⟩ := written_append.mp hfront
  obtain ⟨hfront, hout⟩ := written_append.mp hfront
  obtain ⟨hfront, hinLabel⟩ := written_append.mp hfront
  obtain ⟨hfront, hin⟩ := written_append.mp hfront
  obtain ⟨hid, hlabel⟩ := written_append.mp hfront
  obtain ⟨hlen, hproperties⟩ := written_elements hproperties
  exact ⟨⟨hid, hin, hout⟩,
    ⟨written_string.mp hlabel, written_string.mp hinLabel, written_string.mp houtLabel, hlen⟩, hproperties⟩

lemma written_vertexProperty {p : VertexProperty Value} (h : (writeVertexProperty write p).error? = none) :
    (write p.id).error? = none ∧ (write p.value).error? = none ∧
      (Value.Fits p.label ∧ p.properties.length ≤ maxLength) ∧
      ∀ q ∈ p.properties, (present .property ++ writeProperty write q).error? = none := by
  obtain ⟨hfront, hproperties⟩ := written_append.mp h
  obtain ⟨hfront, -⟩ := written_append.mp hfront
  obtain ⟨hfront, hvalue⟩ := written_append.mp hfront
  obtain ⟨hid, hlabel⟩ := written_append.mp hfront
  obtain ⟨hlen, hproperties⟩ := written_elements hproperties
  exact ⟨hid, hvalue, ⟨written_string.mp hlabel, hlen⟩, hproperties⟩

/-- Of a path nothing tells that there is a label set for every object. -/
lemma written_path {p : Path Value} (h : (path.writePayload write (.path p)).error? = none) :
    p.objects.length ≤ maxLength ∧ (∀ v ∈ p.objects, (write v).error? = none) ∧
      ∀ step ∈ p.labels, step.length ≤ maxLength ∧ ∀ label ∈ step, Value.Fits label := by
  obtain ⟨hfront, hobjects⟩ := written_append.mp h
  obtain ⟨hfront, hlen⟩ := written_append.mp hfront
  obtain ⟨hfront, -⟩ := written_append.mp hfront
  obtain ⟨-, hlabels⟩ := written_append.mp hfront
  exact ⟨written_length.mp hlen, written_each.mp hobjects,
    fun step hs => written_labels (written_each.mp hlabels step hs)⟩

/-! ### Values -/

/-- **A value that is written is well formed, if its paths are even**, by induction on its parts, each of which
is written at some level. -/
theorem wellFormed_of_written {v : Value} (h : v.Throughout Value.Even) {n : Nat}
    (hw : (standard.writeAt n v).error? = none) : v.WellFormed := by
  induction h generalizing n with
  | @intro v even _ ih =>
    cases v with
    | null | boolean | byte | short | int | long | float | double | char | uuid | date | timestamp | duration =>
      exact .leaf trivial rfl
    | string text =>
      obtain ⟨k, rfl, payload⟩ := written_payload (s := string .encoded) rfl rfl rfl hw
      exact .leaf (written_string.mp payload) rfl
    | class_ name =>
      obtain ⟨k, rfl, payload⟩ := written_payload (s := class_ .encoded) rfl rfl rfl hw
      exact .leaf (written_string.mp payload) rfl
    | byteBuffer bytes =>
      obtain ⟨k, rfl, payload⟩ := written_payload (s := byteBuffer .encoded) rfl rfl rfl hw
      exact .leaf (written_length.mp (written_append.mp payload).1) rfl
    | list items =>
      obtain ⟨k, rfl, payload⟩ := written_payload (s := list .encoded) rfl rfl rfl hw
      obtain ⟨hlen, hitems⟩ := written_append.mp payload
      exact .intro (written_length.mp hlen) fun v hv => ih v hv (written_each.mp hitems v hv)
    | set items =>
      obtain ⟨k, rfl, payload⟩ := written_payload (s := set .encoded) rfl rfl rfl hw
      obtain ⟨hlen, hitems⟩ := written_append.mp payload
      exact .intro (written_length.mp hlen) fun v hv => ih v hv (written_each.mp hitems v hv)
    | map entries =>
      obtain ⟨k, rfl, payload⟩ := written_payload (s := map .encoded) rfl rfl rfl hw
      obtain ⟨hlen, hentries⟩ := written_entries payload
      refine .intro hlen fun v hv => ?_
      obtain ⟨e, he, hv⟩ := List.mem_flatMap.mp hv
      have hkey := ih e.1 (List.mem_flatMap.mpr ⟨e, he, by simp⟩) (hentries e he).1
      have hvalue := ih e.2 (List.mem_flatMap.mpr ⟨e, he, by simp⟩) (hentries e he).2
      obtain rfl | hv := List.mem_cons.mp hv
      · exact hkey
      · exact List.mem_singleton.mp hv ▸ hvalue
    | mapEntry key value =>
      -- written as the map of the entry
      cases n with
      | zero => exact absurd hw (not_written_fault _)
      | succ n =>
        rw [writeAt_mapEntry] at hw
        obtain ⟨k, -, payload⟩ := written_payload (v := .map [(key, value)]) (s := map .encoded) rfl rfl rfl hw
        obtain ⟨hkey, hvalue⟩ := (written_entries payload).2 _ (List.mem_singleton_self _)
        refine .intro trivial ?_
        simp only [Value.parts, List.forall_mem_cons]
        exact ⟨ih key (by simp [Value.parts]) hkey, ih value (by simp [Value.parts]) hvalue, by simp⟩
    | vertex v =>
      obtain ⟨k, rfl, payload⟩ := written_payload (s := vertex .encoded) rfl rfl rfl hw
      obtain ⟨hid, hlabel, hlen, hproperties⟩ := written_vertex payload
      refine .intro ⟨hlabel, hlen⟩ ?_
      simp only [Value.parts, List.forall_mem_cons, List.forall_mem_map]
      exact ⟨ih _ (by simp [Value.parts]) hid, fun p hp =>
        ih _ (by simp [Value.parts, hp]) (written_attachedVertexProperty (hproperties p hp))⟩
    | edge e =>
      obtain ⟨k, rfl, payload⟩ := written_payload (s := edge .encoded) rfl rfl rfl hw
      obtain ⟨⟨hid, hin, hout⟩, sized, hproperties⟩ := written_edge payload
      refine .intro sized ?_
      simp only [Value.parts, List.forall_mem_cons, List.forall_mem_map]
      exact ⟨ih _ (by simp [Value.parts]) hid, ih _ (by simp [Value.parts]) hin,
        ih _ (by simp [Value.parts]) hout, fun p hp =>
          ih _ (by simp [Value.parts, hp]) (written_attached (hproperties p hp))⟩
    | vertexProperty p =>
      obtain ⟨k, rfl, payload⟩ := written_payload (s := vertexProperty .encoded) rfl rfl rfl hw
      obtain ⟨hid, hvalue, sized, hproperties⟩ := written_vertexProperty payload
      refine .intro sized ?_
      simp only [Value.parts, List.forall_mem_cons, List.forall_mem_map]
      exact ⟨ih _ (by simp [Value.parts]) hid, ih _ (by simp [Value.parts]) hvalue, fun q hq =>
        ih _ (by simp [Value.parts, hq]) (written_attached (hproperties q hq))⟩
    | property p =>
      obtain ⟨k, rfl, payload⟩ := written_payload (s := property .encoded) rfl rfl rfl hw
      obtain ⟨hfront, -⟩ := written_append.mp payload
      obtain ⟨hkey, hvalue⟩ := written_append.mp hfront
      refine .intro (written_string.mp hkey) ?_
      simp only [Value.parts, List.forall_mem_cons]
      exact ⟨ih _ (by simp [Value.parts]) hvalue, by simp⟩
    | path p =>
      obtain ⟨k, rfl, payload⟩ := written_payload (s := path) rfl rfl rfl hw
      obtain ⟨hlen, hobjects, hlabels⟩ := written_path payload
      exact .intro ⟨even, hlen, hlabels⟩ fun v hv => ih v hv (hobjects v hv)
    | traverser t =>
      obtain ⟨k, rfl, payload⟩ := written_payload (s := traverser) rfl rfl rfl hw
      refine .intro trivial ?_
      simp only [Value.parts, List.forall_mem_cons]
      exact ⟨ih _ (by simp [Value.parts]) (written_append.mp payload).2, by simp⟩
    | bulkSet items =>
      obtain ⟨k, rfl, payload⟩ := written_payload (s := bulkSet .encoded) rfl rfl rfl hw
      obtain ⟨hlen, hitems⟩ := written_append.mp payload
      refine .intro (written_length.mp hlen) ?_
      simp only [Value.parts, List.forall_mem_map]
      exact fun e he => ih _ (List.mem_map.mpr ⟨e, he, rfl⟩) (written_append.mp (written_each.mp hitems e he)).1

end Registry

end GraphServer
