import GraphServer.Proofs.Codec.Nests

/-!
The payloads of composite values, given that the values inside them are read back.

* `Serializer.carries_values`: values behind their count, of which lists, sets and maps are made;
* `Serializer.carries_elements`: elements whose headers are written by hand, null when there are none;
* `Serializer.fills_property` to `Serializer.fills_traverser`: each kind of element, part by part in the order
  in which it is written.
-/

namespace GraphServer.Serializer

open Registry

/-! ### Containers -/

lemma foldr_max_le {l : List Nat} {m : Nat} : l.foldr max 0 ≤ m ↔ ∀ n ∈ l, n ≤ m := by
  induction l with
  | nil => simp
  | cons n l ih => rw [List.foldr_cons, max_le_iff, ih, List.forall_mem_cons]

/-- Values behind their count. -/
lemma carries_values {α : Type} {what : Counted} (hwidth : Widths.encoded what = 2) {items : List α}
    {write : α → Encoding} {levels : α → Nat} {val : α → Value} (hlen : items.length ≤ maxLength)
    (h : ∀ x ∈ items, Nests (write x) (levels x) (val x)) (limit m : Nat) :
    (.length items.length ++ .each items write : Encoding).Carries
      (readItems .encoded what (standard.readAt limit m)) (∀ x ∈ items, levels x ≤ m) (items.map val)
      (tooDeep limit) := by
  refine Encoding.Carries.length_bind hlen ?_ ?_
  · rw [hwidth]
    exact Encoding.length_each items fun x hx => ⟨((h x hx).carries 0 0).written, (h x hx).two_le⟩
  · exact Encoding.carries_each items fun x hx => (h x hx).carries limit m

/-- A list of values nests one level deeper than the deepest of them. -/
lemma nests_list {α : Type} {items : List α} {write : α → Encoding} {levels : α → Nat} {val : α → Value}
    (hlen : items.length ≤ maxLength) (h : ∀ x ∈ items, Nests (write x) (levels x) (val x)) {deepest : Nat}
    (hdeepest : ∀ m, deepest ≤ m ↔ ∀ x ∈ items, levels x ≤ m) :
    Nests (present .list ++ (.length items.length ++ .each items write)) (1 + deepest)
      (.list (items.map val)) :=
  Fills.nests (s := list .encoded) rfl fun limit m =>
    ((carries_values rfl hlen h limit m).map Value.list).congr (hdeepest m).symm

lemma nests_set {α : Type} {items : List α} {write : α → Encoding} {levels : α → Nat} {val : α → Value}
    (hlen : items.length ≤ maxLength) (h : ∀ x ∈ items, Nests (write x) (levels x) (val x)) {deepest : Nat}
    (hdeepest : ∀ m, deepest ≤ m ↔ ∀ x ∈ items, levels x ≤ m) :
    Nests (present .set ++ (.length items.length ++ .each items write)) (1 + deepest)
      (.set (items.map val)) :=
  Fills.nests (s := set .encoded) rfl fun limit m =>
    ((carries_values rfl hlen h limit m).map Value.set).congr (hdeepest m).symm

section Containers

variable {write : Value → Encoding}

/-- A value as it is written stands for what it is expanded to. -/
def Stands (write : Value → Encoding) (v : Value) : Prop :=
  Nests (write v) v.levels v.expanded

lemma Stands.written {v : Value} (h : Stands write v) : (write v).error? = none :=
  (h.carries 0 0).written

/-- Items behind their count. -/
lemma carries_items {what : Counted} (hwidth : Widths.encoded what = 2) {items : List Value}
    (hlen : items.length ≤ maxLength) (h : ∀ v ∈ items, Stands write v) (limit m : Nat) :
    (writeItems write items).Carries (readItems .encoded what (standard.readAt limit m))
      (Value.levelsItems items ≤ m) (items.map Value.expanded) (tooDeep limit) :=
  (carries_values hwidth hlen h limit m).congr Value.levelsItems_le.symm

lemma carries_entry {e : Value × Value} (hk : Stands write e.1) (hv : Stands write e.2) (limit m : Nat) :
    (write e.1 ++ write e.2).Carries (readEntry (standard.readAt limit m))
      (e.1.levels ≤ m ∧ e.2.levels ≤ m) (e.1.expanded, e.2.expanded) (tooDeep limit) :=
  (hk.carries limit m).bind ((hv.carries limit m).bind_pure _)

/-- The payload of a map. -/
lemma carries_map {entries : List (Value × Value)} (hlen : entries.length ≤ maxLength)
    (h : ∀ e ∈ entries, Stands write e.1 ∧ Stands write e.2) :
    Fills (map .encoded) ((map .encoded).writePayload write (.map entries)) (Value.levelsEntries entries)
      (.map (entries.map fun e => (e.1.expanded, e.2.expanded))) := by
  intro limit m
  refine Encoding.Carries.length_bind hlen ?_ ?_
  · refine Encoding.length_each entries fun e he => ?_
    obtain ⟨hk, hv⟩ := h e he
    have hkey := hk.two_le
    have hvalue := hv.two_le
    rw [Encoding.error?_append hk.written, Encoding.bytes_append hk.written, List.length_append]
    exact ⟨hv.written, by change 4 ≤ _; omega⟩
  · have heach := Encoding.carries_each entries fun e he => carries_entry (h e he).1 (h e he).2 limit m
    exact (heach.bind_pure Value.map).congr Value.levelsEntries_le.symm

lemma carries_counted {e : Value × Int64} (h : Stands write e.1) (limit m : Nat) :
    (write e.1 ++ .long e.2).Carries (readCounted (standard.readAt limit m)) (e.1.levels ≤ m)
      (e.1.expanded, e.2) (tooDeep limit) := by
  have step := (h.carries limit m).bind (f := fun item => do
    let bulk ← Decode.long
    return (item, bulk)) ((Encoding.carries_long e.2 _).bind_pure _)
  exact step.congr (and_iff_left trivial)

/-- The payload of a bulk set. -/
lemma carries_bulkSet {items : List (Value × Int64)} (hlen : items.length ≤ maxLength)
    (h : ∀ e ∈ items, Stands write e.1) :
    Fills (bulkSet .encoded) ((bulkSet .encoded).writePayload write (.bulkSet items))
      (Value.levelsCounted items) (.bulkSet (items.map fun e => (e.1.expanded, e.2))) := by
  intro limit m
  refine Encoding.Carries.length_bind hlen ?_ ?_
  · refine Encoding.length_each items fun e he => ?_
    have hitem := (h e he).two_le
    rw [Encoding.error?_append (h e he).written, Encoding.bytes_append (h e he).written, List.length_append,
      Encoding.long, Encoding.bytes_chunk, Bytes.length_ofNat]
    exact ⟨rfl, by change 10 ≤ _; omega⟩
  · have heach := Encoding.carries_each items fun e he => carries_counted (h e he) limit m
    exact (heach.bind_pure Value.bulkSet).congr Value.levelsCounted_le.symm

end Containers

/-! ### Lists of elements -/

section Elements

variable {α : Type} {what : String} {kind : Kind} {pick : Value → Option α} {write : α → Encoding}
  {wrap : α → Value} {levels : α → Nat} {g : α → α}

lemma mapM_map_wrap {f : Value → Decode α} (hf : ∀ x, f (wrap x) = pure x) (items : List α) :
    (items.map wrap).mapM f = pure items := by
  induction items with
  | nil => rfl
  | cons x xs ih => rw [List.map_cons, List.mapM_cons, hf, ih, pure_bind, pure_bind]

/-- What stands for null or for a list of elements is read as those elements. -/
lemma carries_readElements {nested : Decode Value} {enc : Encoding} {fits : Prop} {e : Error}
    (hpick : ∀ x, pick (wrap x) = some x) {items : List α} {v : Value}
    (hv : v = .list (items.map wrap) ∨ v = .null ∧ items = []) (h : enc.Carries nested fits v e) :
    enc.Carries (readElements what pick nested) fits items e := by
  have step : (enc ++ .empty).Carries (readElements what pick nested) (fits ∧ True) items e := by
    refine h.bind ?_
    obtain rfl | ⟨rfl, rfl⟩ := hv
    · simp only
      rw [mapM_map_wrap]
      · exact Encoding.carries_pure items e
      · exact fun x => by simp only [hpick]
    · exact Encoding.carries_pure [] e
  rw [Encoding.append_empty] at step
  exact step.congr (and_iff_left trivial)

/-- A list of elements, null when there are none. -/
lemma carries_elements {items : List α} (hlen : items.length ≤ maxLength)
    (hpick : ∀ x, pick (wrap x) = some x)
    (h : ∀ x ∈ items, Nests (present kind ++ write x) (levels x) (wrap (g x))) (limit m : Nat) :
    (writeElements kind write items).Carries (readElements what pick (standard.readAt limit m))
      (∀ x ∈ items, 1 + levels x ≤ m) (items.map g) (tooDeep limit) := by
  cases items with
  | nil =>
    refine (carries_readElements hpick (.inr ⟨rfl, rfl⟩) (nests_null.carries limit m)).congr ?_
    simp
  | cons x xs =>
    have hdeepest (m : Nat) : ((x :: xs).map levels).foldr max 0 ≤ m ↔ ∀ y ∈ x :: xs, levels y ≤ m := by
      rw [foldr_max_le, List.forall_mem_map]
    have hlist := (nests_list hlen h hdeepest).carries limit m
    rw [← Encoding.append_assoc] at hlist
    have hval : (x :: xs).map (fun x => wrap (g x)) = ((x :: xs).map g).map wrap := List.map_map.symm
    refine (carries_readElements hpick (.inl (congrArg _ hval)) hlist).congr ?_
    cases m with
    | zero => exact iff_of_false (by omega) fun hle => absurd (hle x (List.mem_cons_self ..)) (by omega)
    | succ m => simp only [Nat.add_comm 1, Nat.add_le_add_iff_right, hdeepest]

end Elements

/-! ### Elements, paths and traversers -/

section Payloads

open Encoding

variable {write : Value → Encoding}

/-- A property attached to an element, as it is written. -/
def StandsAttached (write : Value → Encoding) (p : Property Value) : Prop :=
  Nests (present .property ++ writeProperty write p) (Value.property p).levels
    (.property (Value.expandedProperty p))

lemma carries_properties {properties : List (Property Value)} (hlen : properties.length ≤ maxLength)
    (h : ∀ p ∈ properties, StandsAttached write p) (limit m : Nat) :
    (writeProperties write properties).Carries (readProperties (standard.readAt limit m))
      (Value.levelsProperties properties ≤ m) (Value.expandedProperties properties) (tooDeep limit) := by
  rw [Value.expandedProperties_eq]
  exact (carries_elements hlen (fun _ => rfl) h limit m).congr Value.levelsProperties_le.symm

lemma fills_property {p : Property Value} (hkey : Value.Fits p.key) (hvalue : Stands write p.value) :
    Fills (property .encoded) (writeProperty write p) p.value.levels (.property ⟨p.key, p.value.expanded⟩) := by
  intro limit m
  rw [writeProperty, append_assoc]
  refine Carries.congr ((carries_string rfl hkey _).bind_of_true
    ((hvalue.carries limit m).bind ((nests_null.carries limit m).bind_pure _))) ?_
  exact and_iff_left (Nat.zero_le m)

lemma fills_vertexProperty {p : VertexProperty Value} (hid : Stands write p.id) (hlabel : Value.Fits p.label)
    (hvalue : Stands write p.value) (hlen : p.properties.length ≤ maxLength)
    (hproperties : ∀ q ∈ p.properties, StandsAttached write q) :
    Fills (vertexProperty .encoded) (writeVertexProperty write p)
      (max p.id.levels (max p.value.levels (Value.levelsProperties p.properties)))
      (.vertexProperty ⟨p.id.expanded, p.label, p.value.expanded, Value.expandedProperties p.properties⟩) := by
  intro limit m
  rw [writeVertexProperty, append_assoc, append_assoc, append_assoc]
  refine Carries.congr ((hid.carries limit m).bind ((carries_string rfl hlabel _).bind_of_true
    ((hvalue.carries limit m).bind ((nests_null.carries limit m).bind
      ((carries_properties hlen hproperties limit m).bind_pure _))))) ?_
  rw [max_le_iff, max_le_iff]
  simp

lemma fills_vertex {v : Vertex Value} (hid : Stands write v.id) (hlabel : Value.Fits v.label)
    (hlen : v.properties.length ≤ maxLength)
    (hproperties : ∀ p ∈ v.properties, Nests (present .vertexProperty ++ writeVertexProperty write p)
      (Value.vertexProperty p).levels (.vertexProperty (Value.expandedVertexProperty p))) :
    Fills (vertex .encoded) ((vertex .encoded).writePayload write (.vertex v))
      (max v.id.levels (Value.levelsVertexProperties v.properties))
      (.vertex ⟨v.id.expanded, v.label, Value.expandedVertexProperties v.properties⟩) := by
  intro limit m
  rw [Value.expandedVertexProperties_eq]
  change (write v.id ++ .string v.label ++ _).Carries _ _ _ _
  rw [append_assoc]
  refine Carries.congr ((hid.carries limit m).bind ((carries_string rfl hlabel _).bind_of_true
    ((carries_elements hlen (fun _ => rfl) hproperties limit m).bind_pure _))) ?_
  rw [max_le_iff, Value.levelsVertexProperties_le]

lemma carries_elementRef {r : ElementRef Value} (hid : Stands write r.id) (hlabel : Value.Fits r.label)
    (limit m : Nat) :
    (write r.id ++ .string r.label).Carries (readElementRef .encoded (standard.readAt limit m))
      (r.id.levels ≤ m) ⟨r.id.expanded, r.label⟩ (tooDeep limit) :=
  ((hid.carries limit m).bind ((carries_string rfl hlabel _).bind_pure _)).congr (and_iff_left trivial)

lemma fills_edge {d : Edge Value} (hid : Stands write d.id) (hlabel : Value.Fits d.label)
    (hin : Stands write d.inVertex.id) (hinLabel : Value.Fits d.inVertex.label)
    (hout : Stands write d.outVertex.id) (houtLabel : Value.Fits d.outVertex.label)
    (hlen : d.properties.length ≤ maxLength) (hproperties : ∀ p ∈ d.properties, StandsAttached write p) :
    Fills (edge .encoded) ((edge .encoded).writePayload write (.edge d))
      (max (max d.id.levels (Value.levelsProperties d.properties))
        (max d.inVertex.id.levels d.outVertex.id.levels))
      (.edge ⟨d.id.expanded, d.label, ⟨d.inVertex.id.expanded, d.inVertex.label⟩,
        ⟨d.outVertex.id.expanded, d.outVertex.label⟩, Value.expandedProperties d.properties⟩) := by
  intro limit m
  have hwritten : (edge .encoded).writePayload write (.edge d) =
      write d.id ++ (.string d.label ++ ((write d.inVertex.id ++ .string d.inVertex.label) ++
        ((write d.outVertex.id ++ .string d.outVertex.label) ++
          (nullEncoding ++ writeProperties write d.properties)))) := by
    simp only [append_assoc]
    change write d.id ++ .string d.label ++ write d.inVertex.id ++ .string d.inVertex.label ++
      write d.outVertex.id ++ .string d.outVertex.label ++ nullEncoding ++ writeProperties write d.properties = _
    simp only [append_assoc]
  rw [hwritten]
  refine Carries.congr ((hid.carries limit m).bind ((carries_string rfl hlabel _).bind_of_true
    ((carries_elementRef hin hinLabel limit m).bind ((carries_elementRef hout houtLabel limit m).bind
      ((nests_null.carries limit m).bind ((carries_properties hlen hproperties limit m).bind_pure _)))))) ?_
  simp only [max_le_iff, Nat.zero_le, true_and]
  tauto

/-! A path is read as a list of sets of texts and a list of objects. -/

lemma nests_label {label : String} (h : Value.Fits label) :
    Nests (present .string ++ .string label) 1 (.string label) := by
  have hfills : Fills (string .encoded) (.string label) 0 (.string label) := fun limit m =>
    ((carries_string rfl h _).map Value.string).congr (by simp)
  exact hfills.nests rfl

lemma nests_step {step : List String} (hlen : step.length ≤ maxLength) (h : ∀ label ∈ step, Value.Fits label) :
    Nests (writeLabels step) (Value.levelsStep step) (.set (step.map Value.string)) := by
  have hdeepest (m : Nat) : (if step.isEmpty then 0 else 1) ≤ m ↔ ∀ label ∈ step, 1 ≤ m := by
    cases step with
    | nil => simp
    | cons label rest => exact ⟨fun hm _ _ => hm, fun hm => hm label (List.mem_cons_self ..)⟩
  have hset := nests_set hlen (fun label hl => nests_label (h label hl)) hdeepest
  have hlevels : 1 + (if step.isEmpty then 0 else 1) = Value.levelsStep step := by
    rw [Value.levelsStep]
    split <;> rfl
  rw [hlevels] at hset
  rwa [writeLabels, append_assoc]

lemma labels?_set (step : List String) : labels? (.set (step.map Value.string)) = some step := by
  change (step.map Value.string).mapM Value.string? = some step
  induction step with
  | nil => rfl
  | cons label step ih =>
    rw [List.map_cons, List.mapM_cons, ih]
    rfl

lemma carries_labels {labels : List (List String)} (hlen : labels.length ≤ maxLength)
    (hsteps : ∀ step ∈ labels, step.length ≤ maxLength ∧ ∀ label ∈ step, Value.Fits label) (limit m : Nat) :
    (present .list ++ (.length labels.length ++ .each labels writeLabels)).Carries
      (readElements "Set" labels? (standard.readAt limit m))
      (1 + (labels.map fun step => if step.isEmpty then 1 else 2).foldr max 0 ≤ m) labels (tooDeep limit) := by
  have hlist := nests_list hlen (fun step hs => nests_step (hsteps step hs).1 (hsteps step hs).2)
    fun m => Value.levelsSteps_le
  exact carries_readElements labels?_set (.inl rfl) (hlist.carries limit m)

lemma carries_objects {objects : List Value} (hlen : objects.length ≤ maxLength)
    (h : ∀ v ∈ objects, Stands write v) (limit m : Nat) :
    (present .list ++ (.length objects.length ++ .each objects write)).Carries
      (readObjects (standard.readAt limit m)) (1 + Value.levelsItems objects ≤ m)
      (Value.expandedItems objects) (tooDeep limit) := by
  have hlist := (nests_list hlen h fun m => Value.levelsItems_le).carries limit m
  rw [Value.expandedItems_eq]
  have step : (present .list ++ (.length objects.length ++ .each objects write) ++ .empty).Carries
      (readObjects (standard.readAt limit m)) (1 + Value.levelsItems objects ≤ m ∧ True)
      (objects.map Value.expanded) (tooDeep limit) :=
    hlist.bind (carries_pure _ _)
  rw [append_empty] at step
  exact step.congr (and_iff_left trivial)

lemma fills_path {p : Path Value} (hsame : p.labels.length = p.objects.length)
    (hlen : p.objects.length ≤ maxLength)
    (hsteps : ∀ step ∈ p.labels, step.length ≤ maxLength ∧ ∀ label ∈ step, Value.Fits label)
    (hobjects : ∀ v ∈ p.objects, Stands write v) :
    Fills path (path.writePayload write (.path p))
      (max (1 + (p.labels.map fun step => if step.isEmpty then 1 else 2).foldr max 0)
        (1 + Value.levelsItems p.objects))
      (.path ⟨p.labels, Value.expandedItems p.objects⟩) := by
  intro limit m
  have hwritten : path.writePayload write (.path p) =
      (present .list ++ (.length p.labels.length ++ .each p.labels writeLabels)) ++
        ((present .list ++ (.length p.objects.length ++ .each p.objects write)) ++ .empty) := by
    change present .list ++ .length p.labels.length ++ .each p.labels writeLabels ++ present .list ++
      .length p.objects.length ++ .each p.objects write = _
    rw [append_empty]
    simp only [append_assoc]
  have hequal : ¬p.labels.length ≠ (Value.expandedItems p.objects).length := by
    rw [Value.expandedItems_eq, List.length_map]
    exact not_not.mpr hsame
  rw [hwritten]
  refine Carries.congr ?_ (max_le_iff.trans (and_congr_right' (and_true _).to_iff.symm)).symm
  refine (carries_labels (hsame ▸ hlen) hsteps limit m).bind ((carries_objects hlen hobjects limit m).bind ?_)
  simp only [if_neg hequal]
  exact carries_pure _ _

lemma fills_traverser {t : Traverser Value} (h : Stands write t.value) :
    Fills traverser (traverser.writePayload write (.traverser t)) t.value.levels
      (.traverser ⟨t.bulk, t.value.expanded⟩) :=
  fun limit m => (carries_long t.bulk _).bind_of_true ((h.carries limit m).bind_pure _)

end Payloads

end GraphServer.Serializer
