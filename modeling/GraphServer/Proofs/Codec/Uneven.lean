import GraphServer.Proofs.Codec.Written
import GraphServer.Proofs.Codec.Yields

/-!
Values that are written and cannot be read back.

The writer does not look at whether a path has a label set for every object, and the reader does. What is written
of a value settles how it can be read at all: `Encoding.Settles enc d p x` says that a reader `d` that succeeds on the
bytes of the encoding yields `x`, stops behind them, and has seen that `p` holds. This is so of every value that is
written, with `p` that its paths are even at every nesting (`Registry.settles_writeAt`), and so a value with an
uneven path is refused however deep the reader may go.

* `Encoding.Settles.bind`, `Encoding.settles_each`: one part after the other;
* `Serializer.settles_path` and so on: the payloads of composite values, given the values inside them;
* `Registry.readable_iff_even`: **of the values that the writer takes, exactly those are read back whose paths are
  even at every nesting**.
-/

namespace GraphServer

namespace Encoding

variable {α β : Type} {a b : Encoding} {d : Decode α} {f : α → Decode β} {p q : Prop} {x : α} {y : β}

/-- If the encoding is written and a reader succeeds on its bytes, the reader has seen that `p` holds, takes exactly
these bytes and yields `x`. -/
def Settles (enc : Encoding) (d : Decode α) (p : Prop) (x : α) : Prop :=
  enc.error? = none → ∀ position rest y c, d ⟨position, enc.bytes ++ rest⟩ = .ok y c →
    p ∧ y = x ∧ c = ⟨position + enc.bytes.length, rest⟩

/-! ### Parts -/

lemma Carries.settles {e : Error} (h : a.Carries d p x e) : a.Settles d True x := by
  intro _ position rest y c hread
  by_cases hp : p
  · rw [h.answers.reads hp position rest] at hread
    cases hread
    exact ⟨trivial, rfl, rfl⟩
  · obtain ⟨c', hrefused⟩ := h.answers.refuses hp position rest
    rw [hrefused] at hread
    cases hread

lemma Settles.congr (h : a.Settles d p x) (hpq : p → q) : a.Settles d q x := fun written position rest y c hread =>
  (h written position rest y c hread).imp_left hpq

lemma settles_pure (x : α) : empty.Settles (pure x) True x := fun _ _ _ _ _ hread => by
  cases hread
  exact ⟨trivial, rfl, rfl⟩

/-- A reader that does not succeed settles whatever one likes. -/
lemma settles_throw {enc : Encoding} (e : Error) : enc.Settles (throw e) p x := fun _ _ _ _ _ hread => by cases hread

lemma Settles.bind (ha : a.Settles d p x) (hb : b.Settles (f x) q y) : (a ++ b).Settles (d >>= f) (p ∧ q) y := by
  intro written position rest z c hread
  obtain ⟨hwritten, hwritten'⟩ := written_append.mp written
  rw [bytes_append hwritten, List.append_assoc] at hread
  obtain ⟨w, c₁, hfirst, hsecond⟩ := Decode.bind_eq_ok hread
  obtain ⟨hp, rfl, rfl⟩ := ha hwritten _ _ _ _ hfirst
  obtain ⟨hq, rfl, rfl⟩ := hb hwritten' _ _ _ _ hsecond
  refine ⟨⟨hp, hq⟩, rfl, ?_⟩
  rw [bytes_append hwritten, List.length_append, Nat.add_assoc]

/-- The last part of a composite value. -/
lemma Settles.bind_pure (ha : a.Settles d p x) (g : α → β) : a.Settles (d >>= fun x => pure (g x)) p (g x) := by
  have h := ha.bind (f := fun x => pure (g x)) (settles_pure (g x))
  rw [append_empty] at h
  exact h.congr And.left

lemma Settles.map (ha : a.Settles d p x) (g : α → β) : a.Settles (g <$> d) p (g x) := by
  rw [map_eq_pure_bind]
  exact ha.bind_pure g

lemma settles_string (widths : Widths) (h1 : widths .string = 1) (text : String) :
    (string text).Settles (Decode.string widths) True text := fun written =>
  (carries_string h1 (written_string.mp written) .connectionClosed).settles written

lemma settles_long (n : Int64) : (long n).Settles Decode.long True n :=
  (carries_long n .connectionClosed).settles

/-- A count is read as it was written, if it is not held to be too large for what follows. -/
lemma settles_length (widths : Widths) (what : Counted) (n : Nat) :
    (length n).Settles (Decode.length widths what) True n := by
  intro written position rest k c hread
  have hle := written_length.mp written
  have hbytes : (length n).bytes = Bytes.ofNat 4 n := by rw [length, if_pos hle, bytes_chunk]
  rw [hbytes, decode_count hle] at hread
  split at hread
  · cases hread
  · cases hread
    exact ⟨trivial, rfl, by rw [hbytes, Bytes.length_ofNat]⟩

/-- Items one after the other. -/
lemma settles_each {γ : Type} {d : Decode β} {write : γ → Encoding} {p : γ → Prop} {g : γ → β} (items : List γ)
    (h : ∀ x, (write x).Settles d (p x) (g x)) :
    (each items write).Settles (Decode.times items.length d) (∀ x ∈ items, p x) (items.map g) := by
  induction items with
  | nil => exact (settles_pure []).congr fun _ _ hx => absurd hx List.not_mem_nil
  | cons x items ih =>
    have step := (h x).bind (f := fun x => Decode.times items.length d >>= fun xs => pure (x :: xs))
      (ih.bind_pure fun ys => g x :: ys)
    exact step.congr fun ⟨hx, hitems⟩ => List.forall_mem_cons.mpr ⟨hx, hitems⟩

end Encoding

namespace Serializer

open Registry Encoding Value

/-! ### Payloads -/

variable {limit : Nat} {write : Value → Encoding}

/-- What stands behind the header of a value settles how the value is read. -/
lemma settles_present (kind : Kind) {s : Serializer} (hs : standard.find? kind = some s) {enc : Encoding} {p : Prop}
    {v : Value} (h : ∀ m, enc.Settles (s.readPayload (standard.readAt limit m)) p v) (m : Nat) :
    (present kind ++ enc).Settles (standard.readAt limit m) p v := by
  intro written position rest y c hread
  have hwritten := (written_append.mp written).2
  have hbytes : (present kind ++ enc).bytes = kind.code :: 0 :: enc.bytes := by
    rw [bytes_append (written_present kind), bytes_present]
    rfl
  have hheader := readHeader_present hs position (enc.bytes ++ rest)
  rw [hbytes] at hread ⊢
  cases m with
  | zero =>
    obtain ⟨s?, c₁, hfirst, hsecond⟩ := Decode.bind_eq_ok hread
    erw [hheader] at hfirst
    cases hfirst
    cases hsecond
  | succ m =>
    obtain ⟨s?, c₁, hfirst, hsecond⟩ := Decode.bind_eq_ok hread
    erw [hheader] at hfirst
    cases hfirst
    obtain ⟨hp, hy, hc⟩ := h m hwritten _ _ _ _ hsecond
    refine ⟨hp, hy, hc.trans ?_⟩
    rw [List.length_cons, List.length_cons]
    congr 1
    omega

/-- The values inside a value are settled as they are written. -/
def Inside (limit : Nat) (write : Value → Encoding) : Prop :=
  ∀ m v, (write v).Settles (standard.readAt limit m) (v.Throughout Even) v.expanded

variable (h : Inside limit write)

lemma settles_null (m : Nat) : nullEncoding.Settles (standard.readAt limit m) True .null :=
  (nests_null.carries limit m).settles

include h in
lemma settles_items (what : Counted) (items : List Value) (m : Nat) :
    (writeItems write items).Settles (readItems .encoded what (standard.readAt limit m))
      (∀ v ∈ items, v.Throughout Even) (items.map expanded) :=
  ((settles_length .encoded what items.length).bind (settles_each items (h m))).congr And.right

include h in
lemma settles_list (items : List Value) (m : Nat) :
    (writeItems write items).Settles ((list .encoded).readPayload (standard.readAt limit m))
      ((Value.list items).Throughout Even) (Value.list items).expanded := by
  rw [expanded, expandedItems_eq]
  exact ((settles_items h .list items m).map Value.list).congr fun heven => .intro (v := .list items) trivial heven

include h in
lemma settles_set (items : List Value) (m : Nat) :
    (writeItems write items).Settles ((set .encoded).readPayload (standard.readAt limit m))
      ((Value.set items).Throughout Even) (Value.set items).expanded := by
  rw [expanded, expandedItems_eq]
  exact ((settles_items h .set items m).map Value.set).congr fun heven => .intro (v := .set items) trivial heven

include h in
lemma settles_map (entries : List (Value × Value)) (m : Nat) :
    ((map .encoded).writePayload write (.map entries)).Settles ((map .encoded).readPayload (standard.readAt limit m))
      ((Value.map entries).Throughout Even) (Value.map entries).expanded := by
  have hentry (e : Value × Value) : (write e.1 ++ write e.2).Settles (readEntry (standard.readAt limit m))
      (e.1.Throughout Even ∧ e.2.Throughout Even) (e.1.expanded, e.2.expanded) :=
    (h m e.1).bind ((h m e.2).bind_pure _)
  rw [expanded, expandedEntries_eq]
  refine ((settles_length .encoded .map entries.length).bind
    ((settles_each entries hentry).bind_pure Value.map)).congr fun heven => .intro trivial fun v hv => ?_
  obtain ⟨e, he, hv⟩ := List.mem_flatMap.mp hv
  obtain rfl | hv := List.mem_cons.mp hv
  · exact (heven.2 e he).1
  · exact List.mem_singleton.mp hv ▸ (heven.2 e he).2

include h in
lemma settles_bulkSet (items : List (Value × Int64)) (m : Nat) :
    ((bulkSet .encoded).writePayload write (.bulkSet items)).Settles
      ((bulkSet .encoded).readPayload (standard.readAt limit m))
      ((Value.bulkSet items).Throughout Even) (Value.bulkSet items).expanded := by
  have hcounted (e : Value × Int64) : (write e.1 ++ .long e.2).Settles (readCounted (standard.readAt limit m))
      (e.1.Throughout Even) (e.1.expanded, e.2) :=
    ((h m e.1).bind ((settles_long e.2).bind_pure _)).congr And.left
  rw [expanded, expandedCounted_eq]
  refine ((settles_length .encoded .bulkSet items.length).bind
    ((settles_each items hcounted).bind_pure Value.bulkSet)).congr fun heven => .intro trivial fun v hv => ?_
  obtain ⟨e, he, rfl⟩ := List.mem_map.mp hv
  exact heven.2 e he

/-! ### Elements -/

/-- What is read as a list, or as a null for no elements, is read as those elements. -/
lemma settles_readElements {α : Type} {what : String} {pick : Value → Option α} {wrap : α → Value}
    (hpick : ∀ x, pick (wrap x) = some x) {nested : Decode Value} {enc : Encoding} {p : Prop} {items : List α} {v : Value}
    (hv : v = .list (items.map wrap) ∨ v = .null ∧ items = []) (henc : enc.Settles nested p v) :
    enc.Settles (readElements what pick nested) p items := by
  have step : (enc ++ .empty).Settles (readElements what pick nested) (p ∧ True) items := by
    refine henc.bind ?_
    obtain rfl | ⟨rfl, rfl⟩ := hv
    · dsimp only
      rw [mapM_map_wrap]
      · exact settles_pure items
      · exact fun x => by simp only [hpick]
    · exact settles_pure []
  rw [append_empty] at step
  exact step.congr And.left

/-- A list of elements, null when there are none. -/
lemma settles_elements {α : Type} (what : String) (pick : Value → Option α) (wrap : α → Value) {kind : Kind}
    {writeElement : α → Encoding} {p : α → Prop} {g : α → α} (hpick : ∀ x, pick (wrap x) = some x)
    (helement : ∀ m x, (present kind ++ writeElement x).Settles (standard.readAt limit m) (p x) (wrap (g x)))
    (items : List α) (m : Nat) :
    (writeElements kind writeElement items).Settles (readElements what pick (standard.readAt limit m))
      (∀ x ∈ items, p x) (items.map g) := by
  cases items with
  | nil =>
    exact (settles_readElements hpick (.inr ⟨rfl, rfl⟩) (settles_null m)).congr fun _ _ hx => absurd hx List.not_mem_nil
  | cons x items =>
    have hlist := settles_present .list (s := list .encoded) rfl (fun m =>
      ((settles_length .encoded .list _).bind (settles_each (x :: items) (helement m))).map Value.list) m
    rw [← append_assoc] at hlist
    have hval : (x :: items).map (fun x => wrap (g x)) = ((x :: items).map g).map wrap := List.map_map.symm
    exact (settles_readElements hpick (.inl (congrArg _ hval)) hlist).congr And.right

include h in
lemma settles_property (p : Property Value) (m : Nat) :
    (writeProperty write p).Settles ((property .encoded).readPayload (standard.readAt limit m))
      ((Value.property p).Throughout Even) (Value.property p).expanded := by
  obtain ⟨key, value⟩ := p
  rw [writeProperty, append_assoc]
  refine Settles.congr ((settles_string _ rfl key).bind ((h m value).bind ((settles_null m).bind_pure _))) ?_
  rintro ⟨_, hvalue, _⟩
  refine .intro trivial ?_
  simpa only [parts, List.forall_mem_singleton] using hvalue

include h in
lemma settles_properties (properties : List (Property Value)) (m : Nat) :
    (writeProperties write properties).Settles (readProperties (standard.readAt limit m))
      (∀ p ∈ properties, (Value.property p).Throughout Even) (expandedProperties properties) := by
  rw [expandedProperties_eq]
  exact settles_elements _ _ .property (g := expandedProperty) (fun _ => rfl)
    (fun m p => settles_present .property (s := property .encoded) rfl (settles_property h p) m) properties m

include h in
lemma settles_vertexProperty (p : VertexProperty Value) (m : Nat) :
    (writeVertexProperty write p).Settles ((vertexProperty .encoded).readPayload (standard.readAt limit m))
      ((Value.vertexProperty p).Throughout Even) (Value.vertexProperty p).expanded := by
  obtain ⟨id, label, value, properties⟩ := p
  rw [writeVertexProperty, append_assoc, append_assoc, append_assoc]
  refine Settles.congr ((h m id).bind ((settles_string _ rfl label).bind ((h m value).bind ((settles_null m).bind
    ((settles_properties h properties m).bind_pure _))))) ?_
  rintro ⟨hid, _, hvalue, _, hproperties⟩
  refine .intro trivial ?_
  simp only [parts, List.forall_mem_cons, List.forall_mem_map]
  exact ⟨hid, hvalue, hproperties⟩

include h in
lemma settles_vertex (v : Vertex Value) (m : Nat) :
    ((vertex .encoded).writePayload write (.vertex v)).Settles ((vertex .encoded).readPayload (standard.readAt limit m))
      ((Value.vertex v).Throughout Even) (Value.vertex v).expanded := by
  obtain ⟨id, label, properties⟩ := v
  have hwritten : (vertex .encoded).writePayload write (.vertex ⟨id, label, properties⟩) =
      write id ++ (.string label ++ writeElements .vertexProperty (writeVertexProperty write) properties) := by
    simp only [vertex, append_assoc]
  rw [hwritten, expanded, expandedVertex, expandedVertexProperties_eq]
  refine Settles.congr ((h m id).bind ((settles_string _ rfl label).bind ((settles_elements _ _ .vertexProperty
    (g := expandedVertexProperty) (fun _ => rfl) (fun m p => settles_present .vertexProperty
      (s := vertexProperty .encoded) rfl (settles_vertexProperty h p) m) properties m).bind_pure _))) ?_
  rintro ⟨hid, _, heven⟩
  refine .intro trivial ?_
  simp only [parts, List.forall_mem_cons, List.forall_mem_map]
  exact ⟨hid, heven⟩

include h in
lemma settles_elementRef (r : ElementRef Value) (m : Nat) :
    (write r.id ++ .string r.label).Settles (readElementRef .encoded (standard.readAt limit m)) (r.id.Throughout Even)
      (expandedElementRef r) := by
  obtain ⟨id, label⟩ := r
  exact ((h m id).bind ((settles_string _ rfl label).bind_pure _)).congr And.left

include h in
lemma settles_edge (e : Edge Value) (m : Nat) :
    ((edge .encoded).writePayload write (.edge e)).Settles ((edge .encoded).readPayload (standard.readAt limit m))
      ((Value.edge e).Throughout Even) (Value.edge e).expanded := by
  obtain ⟨id, label, inVertex, outVertex, properties⟩ := e
  have hwritten : (edge .encoded).writePayload write (.edge ⟨id, label, inVertex, outVertex, properties⟩) =
      write id ++ (.string label ++ ((write inVertex.id ++ .string inVertex.label) ++
        ((write outVertex.id ++ .string outVertex.label) ++
          (nullEncoding ++ writeProperties write properties)))) := by
    simp only [edge, append_assoc]
  rw [hwritten]
  refine Settles.congr ((h m id).bind ((settles_string _ rfl label).bind ((settles_elementRef h inVertex m).bind
    ((settles_elementRef h outVertex m).bind ((settles_null m).bind
      ((settles_properties h properties m).bind_pure _)))))) ?_
  rintro ⟨hid, _, hin, hout, _, hproperties⟩
  refine .intro trivial ?_
  simp only [parts, List.forall_mem_cons, List.forall_mem_map]
  exact ⟨hid, hin, hout, hproperties⟩

/-! ### Paths and traversers -/

lemma settles_label (label : String) (m : Nat) :
    (present .string ++ .string label).Settles (standard.readAt limit m) True (.string label) :=
  settles_present .string (s := string .encoded) rfl
    (fun _ => (settles_string _ rfl label).map Value.string) m

lemma settles_step (step : List String) (m : Nat) :
    (writeLabels step).Settles (standard.readAt limit m) True (.set (step.map .string)) := by
  rw [writeLabels, append_assoc]
  refine settles_present .set (s := set .encoded) rfl (fun m => ?_) m
  exact (((settles_length .encoded .set step.length).bind
    (settles_each step fun label => settles_label label m)).map Value.set).congr fun _ => trivial

lemma settles_labels (labels : List (List String)) (m : Nat) :
    (present .list ++ (.length labels.length ++ .each labels writeLabels)).Settles
      (readElements "Set" labels? (standard.readAt limit m)) True labels := by
  have hlist (m : Nat) : (Encoding.length labels.length ++ .each labels writeLabels).Settles
      ((list .encoded).readPayload (standard.readAt limit m)) (True ∧ ∀ step ∈ labels, True)
      (.list (labels.map fun step => .set (step.map .string))) :=
    ((settles_length .encoded .list labels.length).bind
      (settles_each labels fun step => settles_step step m)).map Value.list
  exact (settles_readElements labels?_set (.inl rfl) (settles_present .list (s := list .encoded) rfl hlist m)).congr
    fun _ => trivial

include h in
lemma settles_objects (objects : List Value) (m : Nat) :
    (present .list ++ (.length objects.length ++ .each objects write)).Settles (readObjects (standard.readAt limit m))
      (∀ v ∈ objects, v.Throughout Even) (expandedItems objects) := by
  have hlist := settles_present .list (s := list .encoded) rfl
    (fun m => (settles_items h .list objects m).map Value.list) m
  rw [expandedItems_eq]
  have step : (present .list ++ (.length objects.length ++ .each objects write) ++ .empty).Settles
      (readObjects (standard.readAt limit m)) ((∀ v ∈ objects, v.Throughout Even) ∧ True) (objects.map expanded) :=
    hlist.bind (settles_pure _)
  rw [append_empty] at step
  exact step.congr And.left

include h in
/-- The reader of a path looks at whether there is a label set for every object. -/
lemma settles_path (p : Path Value) (m : Nat) :
    (path.writePayload write (.path p)).Settles (path.readPayload (standard.readAt limit m))
      ((Value.path p).Throughout Even) (Value.path p).expanded := by
  obtain ⟨labels, objects⟩ := p
  have hwritten : path.writePayload write (.path ⟨labels, objects⟩) =
      (present .list ++ (.length labels.length ++ .each labels writeLabels)) ++
        ((present .list ++ (.length objects.length ++ .each objects write)) ++ .empty) := by
    simp only [path, append_assoc, append_empty]
  have hlast : Encoding.empty.Settles
      (if labels.length ≠ (expandedItems objects).length then
        Decode.fault (.pathLengths labels.length (expandedItems objects).length)
      else pure (Value.path ⟨labels, expandedItems objects⟩))
      (labels.length = objects.length) (.path ⟨labels, expandedItems objects⟩) := by
    rw [expandedItems_eq, List.length_map]
    split
    · exact settles_throw _
    · exact (settles_pure _).congr fun _ => not_not.mp ‹_›
  rw [hwritten]
  refine Settles.congr ((settles_labels labels m).bind ((settles_objects h objects m).bind hlast)) ?_
  rintro ⟨_, hobjects, heven⟩
  exact .intro heven hobjects

include h in
lemma settles_traverser (t : Traverser Value) (m : Nat) :
    (traverser.writePayload write (.traverser t)).Settles (traverser.readPayload (standard.readAt limit m))
      ((Value.traverser t).Throughout Even) (Value.traverser t).expanded := by
  obtain ⟨bulk, value⟩ := t
  refine Settles.congr ((settles_long bulk).bind ((h m value).bind_pure _)) ?_
  rintro ⟨_, hvalue⟩
  refine .intro trivial ?_
  simpa only [parts, List.forall_mem_singleton] using hvalue

end Serializer

namespace Registry

open Serializer Encoding

/-! ### Values -/

/-- A value that is written is settled by what stands behind its header. -/
lemma settles_payload {v : Value} {s : Serializer} (hs : standard.find? v.kind = some s) (htransform : s.transform v = none)
    (hv : v.isNull = false) {limit n : Nat} {p : Prop} {w : Value}
    (h : ∀ m, (s.writePayload (standard.writeAt n) v).Settles (s.readPayload (standard.readAt limit m)) p w) (m : Nat) :
    (standard.writeAt (n + 1) v).Settles (standard.readAt limit m) p w := by
  rw [writeAt_succ hs htransform hv]
  exact settles_present v.kind hs h m

/-- A value without values inside it is read back or refused. -/
lemma settles_leaf {v : Value} (hparts : v.parts = []) (heven : v.Even) (hlevels : v.levels ≤ 1) (limit n m : Nat) :
    (standard.writeAt (n + 1) v).Settles (standard.readAt limit m) (v.Throughout Value.Even) v.expanded := by
  intro written
  have hwellFormed := wellFormed_of_written (.leaf heven hparts) written
  have hstands := stands_writeAt hwellFormed (n + 1) (le_trans hlevels (Nat.le_add_left 1 n))
  exact (hstands.carries limit m).settles.congr (fun _ => .leaf heven hparts) written

/-- **However a value is written, it settles how it can be read: with even paths at every nesting, and as what it is
expanded to**, by induction on the levels at which it is written. -/
theorem settles_writeAt (limit n : Nat) : Inside limit (standard.writeAt n) := by
  induction n with
  | zero =>
    intro m v
    cases v with
    | null => exact (settles_null m).congr fun _ => .leaf trivial rfl
    | _ => exact fun written => absurd written (not_written_fault _)
  | succ n ih =>
    intro m v
    cases v with
    | null => exact settles_leaf (v := .null) rfl trivial (Nat.zero_le 1) limit n m
    | boolean | byte | short | int | long | float | double | char | string | uuid | date | timestamp | duration
    | class_ | byteBuffer =>
      refine settles_leaf ?_ ?_ ?_ limit n m
      · rfl
      · trivial
      · exact le_rfl
    | list items => exact settles_payload (v := .list items) (s := list .encoded) rfl rfl rfl (settles_list ih items) m
    | set items => exact settles_payload (v := .set items) (s := set .encoded) rfl rfl rfl (settles_set ih items) m
    | map entries => exact settles_payload (s := map .encoded) rfl rfl rfl (settles_map ih entries) m
    | mapEntry key value =>
      -- written as the map of the entry
      rw [writeAt_mapEntry]
      refine (settles_payload (v := .map [(key, value)]) (s := map .encoded) rfl rfl rfl
        (settles_map ih [(key, value)]) m).congr fun heven => .intro trivial fun w hw => ?_
      exact heven.of_mem_parts (by simpa [Value.parts] using hw)
    | vertex v => exact settles_payload (s := vertex .encoded) rfl rfl rfl (settles_vertex ih v) m
    | edge e => exact settles_payload (s := edge .encoded) rfl rfl rfl (settles_edge ih e) m
    | vertexProperty p =>
      exact settles_payload (v := .vertexProperty p) (s := vertexProperty .encoded) rfl rfl rfl
        (settles_vertexProperty ih p) m
    | property p => exact settles_payload (v := .property p) (s := property .encoded) rfl rfl rfl (settles_property ih p) m
    | path p => exact settles_payload (s := path) rfl rfl rfl (settles_path ih p) m
    | traverser t => exact settles_payload (s := traverser) rfl rfl rfl (settles_traverser ih t) m
    | bulkSet items => exact settles_payload (s := bulkSet .encoded) rfl rfl rfl (settles_bulkSet ih items) m

end Registry

/-! ### Through a buffer -/

namespace Buffer

/-- A reader that an encoding settles succeeds on its bytes only if what it looks at holds. -/
lemma holds_of_decode {b : Buffer} {α : Type} {enc : Encoding} {d : Decode α} {p : Prop} {x y : α} {rest : Bytes}
    (settles : enc.Settles d p x) (written : enc.error? = none) (hb : b.unread = enc.bytes ++ rest)
    (h : (b.decode d).1 = .ok y) : p := by
  have hcursor : b.cursor = ⟨b.reader, enc.bytes ++ rest⟩ := congrArg _ hb
  rw [decode, hcursor] at h
  cases hlive : b.ensureLive with
  | error e =>
    rw [hlive] at h
    cases h
  | ok _ =>
    rw [hlive] at h
    cases hread : d ⟨b.reader, enc.bytes ++ rest⟩ with
    | error e c =>
      simp only [hread] at h
      cases h
    | ok z c => exact (settles written _ _ _ _ hread).1

end Buffer

/-- **Of the values that the writer takes, exactly those are read back whose paths are even at every nesting.** What is
written of a value is appended to what is unread in a buffer. Wherever it stands at the front of the unread bytes of a
live buffer, some reader yields a value if and only if every path in the value has a label set for every object; and
then every reader that may go as deep as the value nests takes exactly what was written. -/
theorem Registry.readable_iff_even {v : Value} {b b' : Buffer} {pool pool' : Pool} (sound : pool.Sound)
    (written : b.emit pool (standard.write v) = (b', pool', none)) :
    b'.unread = b.unread ++ (standard.write v).bytes ∧
    ∀ (source : Buffer) (rest : Bytes), source.references ≠ 0 → source.unread = (standard.write v).bytes ++ rest →
      ((∃ m w, (source.decode (standard.read m)).1 = .ok w) ↔ v.Throughout Value.Even) ∧
      (v.Throughout Value.Even → ∀ m, v.levels ≤ m →
        source.decode (standard.read m) = (.ok v.expanded, source.advance (standard.write v).bytes.length) ∧
          (source.advance (standard.write v).bytes.length).unread = rest) := by
  obtain ⟨hwritten, hunread, -⟩ := Buffer.emitted sound written
  refine ⟨hunread, fun source rest live hsource => ?_⟩
  have hreads (even : v.Throughout Value.Even) (m : Nat) (hm : v.levels ≤ m) :=
    Buffer.decode_of_reads live ((carries_write (wellFormed_of_written even hwritten) m).answers.reads hm) hsource
  refine ⟨⟨fun ⟨m, w, hw⟩ => ?_, fun even => ⟨v.levels, v.expanded, ?_⟩⟩, hreads⟩
  · exact Buffer.holds_of_decode (settles_writeAt m _ m v) hwritten hsource hw
  · rw [(hreads even v.levels le_rfl).1]

/-- An encoding that does not give up is written into a fresh buffer of its size. -/
lemma Buffer.exists_emit_fixed (enc : Encoding) (written : enc.error? = none) :
    ∃ b pool, (Buffer.fixed enc.bytes.length).emit (.make 1 0 false) enc = (b, pool, none) ∧ b.references ≠ 0 ∧
      b.unread = enc.bytes ++ [] := by
  have room : (Buffer.fixed enc.bytes.length).HasRoom enc.bytes.length :=
    ⟨Nat.one_ne_zero, by simp [fixed, ofSegments, limit, totalLength]⟩
  have empty : (Buffer.fixed enc.bytes.length).unread = [] := by
    rw [← List.length_eq_zero_iff, length_unread]
    rfl
  obtain ⟨b, pool, hemit, hunread, -, hreferences⟩ := exists_emit (.make 1 0 false) written room
  rw [empty, List.nil_append] at hunread
  exact ⟨b, pool, hemit, hreferences ▸ Nat.one_ne_zero, hunread.trans (List.append_nil _).symm⟩

/-- A path with one label set and no objects. -/
def Value.unevenPath : Value :=
  .path ⟨[[]], []⟩

/-- A list of an even path and an uneven one: it is written, and so it is read back if and only if it is even, which
it is not. -/
theorem Registry.readable_iff_even_twoPaths :
    ∃ b pool, (Buffer.fixed (standard.write (.list [.path ⟨[[]], [.null]⟩, Value.unevenPath])).bytes.length).emit
        (.make 1 0 false) (standard.write (.list [.path ⟨[[]], [.null]⟩, Value.unevenPath])) = (b, pool, none) ∧
      (Pool.make 1 0 false).Sound ∧ ¬∃ m w, (b.decode (standard.read m)).1 = .ok w := by
  obtain ⟨b, pool, hemit, live, hunread⟩ := Buffer.exists_emit_fixed
    (standard.write (.list [.path ⟨[[]], [.null]⟩, Value.unevenPath])) rfl
  refine ⟨b, pool, hemit, .make 1 0 false, ?_⟩
  rw [((readable_iff_even (.make 1 0 false) hemit).2 b [] live hunread).1]
  intro even
  have here : Value.unevenPath.Even := (even.of_mem_parts (by simp [Value.parts])).here
  have same : 1 = 0 := here
  cases same

/-- A path with one label set and no objects is written without an error, and every reader that may go deep enough to
see this refuses it. -/
theorem Registry.writes_unreadable_path :
    ∃ b pool, (Buffer.fixed (standard.write Value.unevenPath).bytes.length).emit (.make 1 0 false)
        (standard.write Value.unevenPath) = (b, pool, none) ∧
      ∀ m, (b.decode (standard.read (m + 3))).1 = .error (.serialization (.pathLengths 1 0)) := by
  obtain ⟨b, pool, hemit, live, hunread⟩ := Buffer.exists_emit_fixed (standard.write Value.unevenPath) rfl
  have refuses (m : Nat) : (standard.read (m + 3)).Refuses (standard.write Value.unevenPath).bytes
      (.serialization (.pathLengths 1 0)) := fun position rest => ⟨_, rfl⟩
  exact ⟨b, pool, hemit, fun m => Buffer.decode_of_refuses live (refuses m) hunread⟩

end GraphServer
