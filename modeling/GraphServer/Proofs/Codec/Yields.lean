import GraphServer.Codec.Standard
import GraphServer.Proofs.Text.Canonical
import GraphServer.Proofs.Value.Throughout

/-!
What the standard serializers read, whatever the bytes.

`Decode.Yields d P` says that everything `d` reads has the property `P`. Reading is by parts, and so is the
proof: counts are small enough (`Decode.yields_length`), texts have encodings that fit their counts
(`Decode.yields_string`), and what is read inside a value fits one level less than the value.

* `Value.Within n v`: the value is sized and without lone map entries at every nesting, and nests to at most
  `n` levels;
* `Serializer.yields_payload`: the payload of each kind, given what is read inside it;
* `Registry.yields_readAt`: **a reader of `m` levels yields values within `m + 1` levels**, one more because
  the lists of a path are there whether or not they were read.
-/

namespace GraphServer

/-! ### Readers -/

namespace Decode

variable {α β : Type} {P : α → Prop} {Q : β → Prop}

/-- Whatever is read has the property. -/
def Yields (d : Decode α) (P : α → Prop) : Prop :=
  ∀ c x c', d c = .ok x c' → P x

lemma Yields.mono {d : Decode α} {P' : α → Prop} (h : d.Yields P) (hP : ∀ x, P x → P' x) : d.Yields P' :=
  fun c x c' hx => hP x (h c x c' hx)

lemma yields_any (d : Decode α) : d.Yields fun _ => True := fun _ _ _ _ => trivial

lemma yields_pure {x : α} (h : P x) : (pure x : Decode α).Yields P := by
  intro c y c' hy
  obtain ⟨rfl, -⟩ := EStateM.Result.ok.inj hy
  exact h

lemma yields_throw (e : Error) : (throw e : Decode α).Yields P := by
  intro c x c' hx
  cases hx

lemma yields_fault (f : CodecFault) : (fault f : Decode α).Yields P := yields_throw _

/-- What one reader after the other yields, each of them yields. -/
lemma bind_eq_ok {d : Decode α} {f : α → Decode β} {c c' : Cursor} {y : β} (h : (d >>= f) c = .ok y c') :
    ∃ x c₁, d c = .ok x c₁ ∧ f x c₁ = .ok y c' := by
  change EStateM.bind d f c = _ at h
  rw [EStateM.bind] at h
  cases hx : d c with
  | ok x c₁ =>
    rw [hx] at h
    exact ⟨x, c₁, rfl, h⟩
  | error e c₁ =>
    rw [hx] at h
    cases h

lemma Yields.bind {d : Decode α} {f : α → Decode β} (hd : d.Yields P) (hf : ∀ x, P x → (f x).Yields Q) :
    (d >>= f).Yields Q := by
  intro c y c' hy
  obtain ⟨x, c₁, hx, hy⟩ := bind_eq_ok hy
  exact hf x (hd c x c₁ hx) c₁ y c' hy

lemma Yields.map {d : Decode α} {g : α → β} (hd : d.Yields P) (h : ∀ x, P x → Q (g x)) : (g <$> d).Yields Q := by
  rw [map_eq_pure_bind]
  exact hd.bind fun x hx => yields_pure (h x hx)

/-- A part whose value does not matter, before the rest. -/
lemma yields_bind {d : Decode α} {f : α → Decode β} (hf : ∀ x, (f x).Yields Q) : (d >>= f).Yields Q :=
  (yields_any d).bind fun x _ => hf x

lemma yields_take (op : BufferOp) (n : Nat) : (take op n).Yields fun bytes => bytes.length = n := by
  intro c bytes c' h
  rw [take, splitExactly?_eq] at h
  by_cases hn : n ≤ c.rest.length
  · rw [if_pos hn] at h
    obtain ⟨rfl, -⟩ := EStateM.Result.ok.inj h
    rw [List.length_take, min_eq_left hn]
  · rw [if_neg hn] at h
    cases h

lemma Yields.times {d : Decode α} (h : d.Yields P) (n : Nat) :
    (times n d).Yields fun xs => xs.length = n ∧ ∀ x ∈ xs, P x := by
  induction n with
  | zero => exact yields_pure ⟨rfl, by simp⟩
  | succ n ih =>
    refine h.bind fun x hx => ih.bind fun xs ⟨hlen, hxs⟩ => yields_pure ⟨?_, ?_⟩
    · rw [List.length_cons, hlen]
    · exact List.forall_mem_cons.mpr ⟨hx, hxs⟩

/-- Each item of a list, read further. -/
lemma yields_mapM {f : α → Decode β} {Q : α → β → Prop} (h : ∀ x, (f x).Yields (Q x)) (xs : List α) :
    (xs.mapM f).Yields fun ys => ys.length = xs.length ∧ ∀ y ∈ ys, ∃ x ∈ xs, Q x y := by
  induction xs with
  | nil => exact yields_pure ⟨rfl, by simp⟩
  | cons x xs ih =>
    rw [List.mapM_cons]
    refine (h x).bind fun y hy => ih.bind fun ys ⟨hlen, hys⟩ => yields_pure ⟨?_, ?_⟩
    · rw [List.length_cons, List.length_cons, hlen]
    · refine List.forall_mem_cons.mpr ⟨⟨x, List.mem_cons_self .., hy⟩, fun y hy => ?_⟩
      obtain ⟨x', hx', hQ⟩ := hys y hy
      exact ⟨x', List.mem_cons_of_mem _ hx', hQ⟩

/-- A count is that of a signed 32-bit number. -/
lemma yields_length (widths : Widths) (what : Counted) : (length widths what).Yields (· ≤ maxLength) := by
  refine yields_bind fun n => ?_
  split
  · exact yields_fault _
  refine yields_bind fun left => ?_
  split
  · exact yields_fault _
  refine yields_pure ?_
  have hlt : n.toInt < 2 ^ 31 := n.toInt_lt
  rw [maxLength]
  omega

lemma yields_string (widths : Widths) : (string widths).Yields Value.Fits := by
  refine (yields_length widths .string).bind fun n hn => (yields_take _ n).bind fun bytes hbytes => ?_
  cases htext : Utf8.decode bytes with
  | error f => exact yields_fault _
  | ok text =>
    refine yields_pure ?_
    rw [Value.Fits, Utf8.encode_of_decode htext, hbytes]
    exact hn

end Decode

/-! ### Values within so many levels -/

namespace Value

/-- A value whose counts fit, and that is not a lone map entry. -/
def Regular (v : Value) : Prop :=
  v.Sized ∧ v.kind ≠ .mapEntry

/-- A value that is regular at every nesting and nests to so many levels. -/
structure Within (n : Nat) (v : Value) : Prop where
  regular : v.Throughout Regular
  levels_le : v.levels ≤ n

variable {n : Nat}

lemma Within.sized {v : Value} (h : v.Within n) : v.Sized := h.regular.here.1

/-- A sized value without values inside it, which takes one level. -/
structure Scalar (v : Value) : Prop where
  sized : v.Sized
  parts_eq : v.parts = []
  levels_eq : v.levels = 1
  kind_ne : v.kind ≠ .mapEntry

lemma Scalar.within {v : Value} (h : v.Scalar) : v.Within (n + 1) :=
  ⟨.leaf ⟨h.sized, h.kind_ne⟩ h.parts_eq, by rw [h.levels_eq]; exact Nat.le_add_left 1 n⟩

lemma within_null : null.Within n :=
  ⟨.leaf ⟨trivial, by decide⟩ rfl, Nat.zero_le n⟩

lemma within_list {items : List Value} (hlen : items.length ≤ maxLength) (h : ∀ v ∈ items, v.Within n) :
    (list items).Within (n + 1) where
  regular := .intro ⟨hlen, by simp [kind]⟩ fun v hv => (h v hv).regular
  levels_le := by
    have hitems := levelsItems_le.mpr fun v hv => (h v hv).levels_le
    rw [levels]
    omega

lemma within_set {items : List Value} (hlen : items.length ≤ maxLength) (h : ∀ v ∈ items, v.Within n) :
    (set items).Within (n + 1) where
  regular := .intro ⟨hlen, by simp [kind]⟩ fun v hv => (h v hv).regular
  levels_le := by
    have hitems := levelsItems_le.mpr fun v hv => (h v hv).levels_le
    rw [levels]
    omega

lemma within_map {entries : List (Value × Value)} (hlen : entries.length ≤ maxLength)
    (h : ∀ e ∈ entries, e.1.Within n ∧ e.2.Within n) : (map entries).Within (n + 1) where
  regular := by
    refine .intro ⟨hlen, by simp [kind]⟩ fun v hv => ?_
    obtain ⟨e, he, hv⟩ := List.mem_flatMap.mp hv
    obtain rfl | hv := List.mem_cons.mp hv
    · exact (h e he).1.regular
    · obtain rfl := List.mem_singleton.mp hv
      exact (h e he).2.regular
  levels_le := by
    have hentries := levelsEntries_le.mpr fun e he => ⟨(h e he).1.levels_le, (h e he).2.levels_le⟩
    rw [levels]
    omega

lemma within_bulkSet {items : List (Value × Int64)} (hlen : items.length ≤ maxLength)
    (h : ∀ e ∈ items, e.1.Within n) : (bulkSet items).Within (n + 1) where
  regular := by
    refine .intro ⟨hlen, by simp [kind]⟩ fun v hv => ?_
    obtain ⟨e, he, rfl⟩ := List.mem_map.mp hv
    exact (h e he).regular
  levels_le := by
    have hitems := levelsCounted_le.mpr fun e he => (h e he).levels_le
    rw [levels]
    omega

/-- What is inside a list, as deep as the list may be. -/
lemma Within.items {items : List Value} (h : (list items).Within n) :
    items.length ≤ maxLength ∧ ∀ v ∈ items, v.Throughout Regular ∧ 1 + v.levels ≤ n := by
  refine ⟨h.sized, fun v hv => ⟨h.regular.of_mem_parts hv, ?_⟩⟩
  have hlevels := h.levels_le
  rw [levels] at hlevels
  have := levelsItems_le.mp le_rfl v hv
  omega

/-- The values of a kind of elements that were attached to another one. -/
def Attached {α : Type} (wrap : α → Value) (n : Nat) (items : List α) : Prop :=
  items.length ≤ maxLength ∧ ∀ x ∈ items, (wrap x).Throughout Regular ∧ 1 + (wrap x).levels ≤ n

lemma within_property {p : Property Value} (hkey : Fits p.key) (hvalue : p.value.Within n) :
    (property p).Within (n + 1) where
  regular := .intro ⟨hkey, by simp [kind]⟩ fun v hv => by
    obtain rfl := List.mem_singleton.mp hv
    exact hvalue.regular
  levels_le := by
    have inside := hvalue.levels_le
    obtain ⟨key, value⟩ := p
    exact (Nat.add_le_add_left inside 1).trans_eq (Nat.add_comm 1 n)

lemma within_vertexProperty {p : VertexProperty Value} (hid : p.id.Within n) (hlabel : Fits p.label)
    (hvalue : p.value.Within n) (hproperties : Attached property n p.properties) :
    (vertexProperty p).Within (n + 1) where
  regular := by
    refine .intro ⟨⟨hlabel, hproperties.1⟩, by simp [kind]⟩ ?_
    simp only [parts, List.forall_mem_cons, List.forall_mem_map]
    exact ⟨hid.regular, hvalue.regular, fun q hq => (hproperties.2 q hq).1⟩
  levels_le := by
    have hlist := levelsProperties_le.mpr fun q hq => (hproperties.2 q hq).2
    have inside := max_le hid.levels_le (max_le hvalue.levels_le hlist)
    obtain ⟨id, label, value, properties⟩ := p
    exact (Nat.add_le_add_left inside 1).trans_eq (Nat.add_comm 1 n)

lemma within_vertex {v : Vertex Value} (hid : v.id.Within n) (hlabel : Fits v.label)
    (hproperties : Attached vertexProperty n v.properties) : (vertex v).Within (n + 1) where
  regular := by
    refine .intro ⟨⟨hlabel, hproperties.1⟩, by simp [kind]⟩ ?_
    simp only [parts, List.forall_mem_cons, List.forall_mem_map]
    exact ⟨hid.regular, fun q hq => (hproperties.2 q hq).1⟩
  levels_le := by
    have hlist := levelsVertexProperties_le.mpr fun q hq => (hproperties.2 q hq).2
    have inside := max_le hid.levels_le hlist
    obtain ⟨id, label, properties⟩ := v
    exact (Nat.add_le_add_left inside 1).trans_eq (Nat.add_comm 1 n)

lemma within_edge {e : Edge Value} (hid : e.id.Within n) (hlabel : Fits e.label)
    (hin : e.inVertex.id.Within n ∧ Fits e.inVertex.label)
    (hout : e.outVertex.id.Within n ∧ Fits e.outVertex.label)
    (hproperties : Attached property n e.properties) : (edge e).Within (n + 1) where
  regular := by
    refine .intro ⟨⟨hlabel, hin.2, hout.2, hproperties.1⟩, by simp [kind]⟩ ?_
    simp only [parts, List.forall_mem_cons, List.forall_mem_map]
    exact ⟨hid.regular, hin.1.regular, hout.1.regular, fun q hq => (hproperties.2 q hq).1⟩
  levels_le := by
    have hlist := levelsProperties_le.mpr fun q hq => (hproperties.2 q hq).2
    have inside := max_le (max_le hid.levels_le hlist) (max_le hin.1.levels_le hout.1.levels_le)
    obtain ⟨id, label, ⟨inId, inLabel⟩, ⟨outId, outLabel⟩, properties⟩ := e
    exact (Nat.add_le_add_left inside 1).trans_eq (Nat.add_comm 1 n)

/-- The label sets of a path, inside lists that are there even if nothing was read for them. -/
lemma within_path {p : Path Value} (hn : 1 ≤ n) (hsame : p.labels.length = p.objects.length)
    (hlabels : ∀ step ∈ p.labels, step.length ≤ maxLength ∧ (∀ label ∈ step, Fits label) ∧
      1 + levelsStep step ≤ n)
    (hobjects : Attached id n p.objects) : (path p).Within (n + 1) where
  regular := by
    refine .intro ⟨⟨hsame, hobjects.1, fun step hs => ?_⟩, by simp [kind]⟩ fun v hv => (hobjects.2 v hv).1
    exact ⟨(hlabels step hs).1, (hlabels step hs).2.1⟩
  levels_le := by
    have hsteps := levelsSteps_le.mpr fun step hs => Nat.le_sub_of_add_le' (hlabels step hs).2.2
    have hitems := levelsItems_le.mpr fun v hv => Nat.le_sub_of_add_le' (hobjects.2 v hv).2
    have inside := max_le (Nat.add_le_add_left hsteps 1) (Nat.add_le_add_left hitems 1)
    rw [Nat.add_sub_cancel' hn] at inside
    obtain ⟨labels, objects⟩ := p
    exact (Nat.add_le_add_left inside 1).trans_eq (Nat.add_comm 1 n)

lemma within_traverser {t : Traverser Value} (h : t.value.Within n) : (traverser t).Within (n + 1) where
  regular := .intro ⟨trivial, by simp [kind]⟩ fun v hv => by
    obtain rfl := List.mem_singleton.mp hv
    exact h.regular
  levels_le := by
    have inside := h.levels_le
    obtain ⟨bulk, value⟩ := t
    exact (Nat.add_le_add_left inside 1).trans_eq (Nat.add_comm 1 n)

end Value

/-! ### Payloads -/

namespace Serializer

open Decode Value

variable {n : Nat} {nested : Decode Value}

lemma yields_readItems (widths : Widths) (what : Counted) (h : nested.Yields (Value.Within n)) :
    (readItems widths what nested).Yields fun items => items.length ≤ maxLength ∧ ∀ v ∈ items, v.Within n :=
  (yields_length widths what).bind fun k hk => (h.times k).mono fun _ ⟨hlen, hitems⟩ => ⟨hlen ▸ hk, hitems⟩

lemma yields_readEntry (h : nested.Yields (Value.Within n)) :
    (readEntry nested).Yields fun e => e.1.Within n ∧ e.2.Within n :=
  h.bind fun _ hkey => h.bind fun _ hvalue => yields_pure ⟨hkey, hvalue⟩

lemma yields_readCounted (h : nested.Yields (Value.Within n)) :
    (readCounted nested).Yields fun e => e.1.Within n :=
  h.bind fun _ hitem => yields_bind fun _ => yields_pure hitem

/-- A list of elements, if `pick` takes from a value only what the value wraps. -/
lemma yields_readElements {α : Type} {what : String} {pick : Value → Option α} {wrap : α → Value}
    (hpick : ∀ v x, pick v = some x → v = wrap x) (h : nested.Yields (Value.Within n)) :
    (readElements what pick nested).Yields (Attached wrap n) := by
  refine h.bind fun v hv => ?_
  split
  · exact yields_pure ⟨Nat.zero_le _, by simp⟩
  · obtain ⟨hlen, hitems⟩ := hv.items
    refine (yields_mapM (Q := fun v x => v = wrap x) (fun v => ?_) _).mono fun xs hxs =>
      ⟨hxs.1 ▸ hlen, fun x hx => ?_⟩
    · split
      next x hx => exact yields_pure (hpick v x hx)
      next => exact yields_fault _
    · obtain ⟨v, hv, rfl⟩ := hxs.2 x hx
      exact hitems _ hv
  · exact yields_fault _

lemma yields_readProperties (h : nested.Yields (Value.Within n)) :
    (readProperties nested).Yields (Attached .property n) := by
  refine yields_readElements (fun v p hp => ?_) h
  cases v with
  | property q => exact congrArg _ (Option.some.inj hp)
  | _ => cases hp

lemma yields_readElementRef (widths : Widths) (h : nested.Yields (Value.Within n)) :
    (readElementRef widths nested).Yields fun r => r.id.Within n ∧ Fits r.label :=
  h.bind fun _ hid => (yields_string widths).bind fun _ hlabel => yields_pure ⟨hid, hlabel⟩

lemma eq_set_of_labels? {v : Value} {step : List String} (h : labels? v = some step) :
    v = .set (step.map .string) := by
  cases v with
  | set items =>
    refine congrArg _ ?_
    change items.mapM Value.string? = some step at h
    induction items generalizing step with
    | nil =>
      obtain rfl : [] = step := Option.some.inj h
      rfl
    | cons v items ih =>
      rw [List.mapM_cons] at h
      obtain ⟨label, hlabel, h⟩ := Option.bind_eq_some_iff.mp h
      obtain ⟨rest, hrest, h⟩ := Option.bind_eq_some_iff.mp h
      obtain rfl : label :: rest = step := Option.some.inj h
      cases v with
      | string s =>
        obtain rfl : s = label := Option.some.inj hlabel
        rw [List.map_cons, ih hrest]
      | _ => cases hlabel
  | _ => cases h

lemma levels_labels (step : List String) : (Value.set (step.map .string)).levels = levelsStep step := by
  have hstring (label : String) : (Value.string label).levels = 1 := rfl
  cases step with
  | nil => rfl
  | cons label step =>
    have hrest : levelsItems (step.map .string) ≤ 1 :=
      levelsItems_le.mpr (List.forall_mem_map.mpr fun l _ => (hstring l).le)
    rw [List.map_cons, levels, levelsItems, hstring]
    change 1 + max 1 _ = 2
    omega

lemma yields_readLabels (h : nested.Yields (Value.Within n)) :
    (readElements "Set" labels? nested).Yields fun labels => ∀ step ∈ labels,
      step.length ≤ maxLength ∧ (∀ label ∈ step, Fits label) ∧ 1 + levelsStep step ≤ n := by
  refine (yields_readElements (fun _ _ => eq_set_of_labels?) h).mono fun labels ⟨_, hlabels⟩ step hs => ?_
  obtain ⟨hregular, hlevels⟩ := hlabels step hs
  rw [levels_labels] at hlevels
  have hlen : (step.map Value.string).length ≤ maxLength := hregular.here.1
  rw [List.length_map] at hlen
  exact ⟨hlen, fun label hl => (hregular.of_mem_parts (List.mem_map_of_mem hl)).here.1, hlevels⟩

lemma yields_readObjects (h : nested.Yields (Value.Within n)) :
    (readObjects nested).Yields (Attached id n) := by
  refine h.bind fun v hv => ?_
  split
  · exact yields_pure hv.items
  · exact yields_pure ⟨Nat.zero_le _, by simp⟩
  · exact yields_fault _

lemma yields_scalar {α : Type} (d : Decode α) {wrap : α → Value} (h : ∀ x, (wrap x).Scalar) :
    (wrap <$> d).Yields (Value.Within (n + 1)) :=
  (yields_any d).map fun x _ => (h x).within

lemma yields_duration : (Serializer.duration.readPayload nested).Yields (Value.Within (n + 1)) :=
  yields_bind fun _ => yields_bind fun _ => yields_pure (Scalar.within ⟨trivial, rfl, rfl, nofun⟩)

lemma yields_byteBuffer (widths : Widths) :
    ((byteBuffer widths).readPayload nested).Yields (Value.Within (n + 1)) :=
  (yields_length widths .byteBuffer).bind fun k hk => (yields_take _ k).bind fun bytes hbytes =>
    yields_pure (Scalar.within ⟨show bytes.length ≤ maxLength from hbytes ▸ hk, rfl, rfl, nofun⟩)

lemma yields_property (widths : Widths) (h : nested.Yields (Value.Within n)) :
    ((property widths).readPayload nested).Yields (Value.Within (n + 1)) :=
  (yields_string widths).bind fun _ hkey => h.bind fun _ hvalue => yields_bind fun _ =>
    yields_pure (within_property hkey hvalue)

lemma yields_vertexProperty (widths : Widths) (h : nested.Yields (Value.Within n)) :
    ((vertexProperty widths).readPayload nested).Yields (Value.Within (n + 1)) :=
  h.bind fun _ hid => (yields_string widths).bind fun _ hlabel => h.bind fun _ hvalue => yields_bind fun _ =>
    (yields_readProperties h).bind fun _ hproperties =>
      yields_pure (within_vertexProperty hid hlabel hvalue hproperties)

lemma yields_vertex (widths : Widths) (h : nested.Yields (Value.Within n)) :
    ((vertex widths).readPayload nested).Yields (Value.Within (n + 1)) := by
  refine h.bind fun _ hid => (yields_string widths).bind fun _ hlabel =>
    Yields.bind (P := Attached .vertexProperty n) (yields_readElements (fun v p hp => ?_) h) fun _ hproperties =>
      yields_pure (within_vertex hid hlabel hproperties)
  cases v with
  | vertexProperty q => exact congrArg _ (Option.some.inj hp)
  | _ => cases hp

lemma yields_edge (widths : Widths) (h : nested.Yields (Value.Within n)) :
    ((edge widths).readPayload nested).Yields (Value.Within (n + 1)) :=
  h.bind fun _ hid => (yields_string widths).bind fun _ hlabel =>
    (yields_readElementRef widths h).bind fun _ hin => (yields_readElementRef widths h).bind fun _ hout =>
      yields_bind fun _ => (yields_readProperties h).bind fun _ hproperties =>
        yields_pure (within_edge hid hlabel hin hout hproperties)

lemma yields_path (hn : 1 ≤ n) (h : nested.Yields (Value.Within n)) :
    (path.readPayload nested).Yields (Value.Within (n + 1)) := by
  refine (yields_readLabels h).bind fun labels hlabels => (yields_readObjects h).bind fun objects hobjects => ?_
  split
  · exact yields_fault _
  · exact yields_pure (within_path hn (not_not.mp ‹_›) hlabels hobjects)

/-- A payload is read as a value one level deeper than what is inside it. -/
lemma yields_payload {kind : Kind} {s : Serializer} (hs : Registry.standard.find? kind = some s) (hn : 1 ≤ n)
    (h : nested.Yields (Value.Within n)) : (s.readPayload nested).Yields (Value.Within (n + 1)) := by
  cases kind <;> cases hs
  case int => exact yields_scalar Decode.int fun _ => ⟨trivial, rfl, rfl, nofun⟩
  case long => exact yields_scalar Decode.long fun _ => ⟨trivial, rfl, rfl, nofun⟩
  case short => exact yields_scalar Decode.short fun _ => ⟨trivial, rfl, rfl, nofun⟩
  case byte => exact yields_scalar Decode.byte fun _ => ⟨trivial, rfl, rfl, nofun⟩
  case boolean => exact yields_scalar Decode.bool fun _ => ⟨trivial, rfl, rfl, nofun⟩
  case float => exact yields_scalar Decode.float fun _ => ⟨trivial, rfl, rfl, nofun⟩
  case double => exact yields_scalar Decode.double fun _ => ⟨trivial, rfl, rfl, nofun⟩
  case date => exact yields_scalar Decode.long fun _ => ⟨trivial, rfl, rfl, nofun⟩
  case timestamp => exact yields_scalar Decode.long fun _ => ⟨trivial, rfl, rfl, nofun⟩
  case uuid => exact yields_scalar Decode.uuid fun _ => ⟨trivial, rfl, rfl, nofun⟩
  case char => exact yields_scalar Decode.char fun _ => ⟨trivial, rfl, rfl, nofun⟩
  case string => exact (yields_string _).map fun _ hs => Scalar.within ⟨hs, rfl, rfl, nofun⟩
  case class_ => exact (yields_string _).map fun _ hs => Scalar.within ⟨hs, rfl, rfl, nofun⟩
  case duration => exact yields_duration
  case byteBuffer => exact yields_byteBuffer _
  case list => exact (yields_readItems _ _ h).map fun _ hitems => within_list hitems.1 hitems.2
  case set => exact (yields_readItems _ _ h).map fun _ hitems => within_set hitems.1 hitems.2
  case map =>
    exact (yields_length _ _).bind fun k hk => ((yields_readEntry h).times k).bind fun _ hentries =>
      yields_pure (within_map (hentries.1 ▸ hk) hentries.2)
  case bulkSet =>
    exact (yields_length _ _).bind fun k hk => ((yields_readCounted h).times k).bind fun _ hitems =>
      yields_pure (within_bulkSet (hitems.1 ▸ hk) hitems.2)
  case property => exact yields_property _ h
  case vertexProperty => exact yields_vertexProperty _ h
  case vertex => exact yields_vertex _ h
  case edge => exact yields_edge _ h
  case path => exact yields_path hn h
  case traverser =>
    exact yields_bind fun _ => h.bind fun _ hvalue => yields_pure (within_traverser hvalue)
  case mapEntry => exact yields_throw _

end Serializer

/-! ### Values -/

namespace Registry

open Decode

/-- A header that does not mark a null names a kind with a serializer. -/
lemma yields_readHeader (r : Registry) :
    r.readHeader.Yields fun s? => ∀ s ∈ s?, ∃ kind, r.find? kind = some s := by
  refine yields_bind fun code => yields_bind fun flags => ?_
  split
  · exact yields_pure (by simp)
  split
  · exact yields_throw _
  · exact yields_fault _
  · rename_i kind _ _
    cases hs : r.find? kind with
    | none =>
      rw [get, hs]
      exact yields_throw _
    | some s =>
      rw [get, hs]
      refine yields_pure fun s' hs' => ⟨kind, ?_⟩
      rw [hs, ← Option.mem_some_iff.mp hs']

/-- **A reader of so many levels yields values within one level more**, by induction on the levels. -/
theorem yields_readAt (limit m : Nat) : (standard.readAt limit m).Yields (Value.Within (m + 1)) := by
  induction m with
  | zero =>
    refine (yields_readHeader standard).bind fun s? _ => ?_
    cases s? with
    | none => exact yields_pure Value.within_null
    | some s => exact yields_fault _
  | succ m ih =>
    refine (yields_readHeader standard).bind fun s? hs => ?_
    cases s? with
    | none => exact yields_pure Value.within_null
    | some s =>
      obtain ⟨kind, hkind⟩ := hs s rfl
      exact Serializer.yields_payload hkind (Nat.le_add_left 1 m) ih

end Registry

end GraphServer
