import GraphServer.Proofs.Codec.Inlined
import GraphServer.Proofs.Codec.Written

/-!
When the parts that are written by hand are what the registry would write.

A serializer that is put in place of a standard one, or is taken out, is not asked for a part that is written by hand
(`GraphServer.Inlined`). A registry may keep what the standard serializer of a kind writes (`Registry.Keeps`), or write
no value of the kind, for want of a serializer or because that refuses (`Registry.Refuses`); writing a value comes to an
end (`Registry.Converges`), which replacements put in by a serializer may prevent.

* `Registry.Restricted.converges`: with some of the standard serializers and no other ones, writing comes to an end;
* `Inlined.keeps_of_written`: what the registry writes, is of kinds that it keeps;
* `Inlined.bypasses`: **the serializers of its kinds make no difference to a part that is written by hand**, and where
  each kind is kept or refused, the part has the outcome that the registry gives it just if the registry keeps all of
  its kinds or the part is not written at all;
* `Inlined.labels_unregistered`: a label set that is written although the registry has no serializer for texts.
-/

namespace GraphServer

namespace Encoding

variable {a : Encoding}

lemma each_map {α β : Type} (items : List α) (f : α → β) (encode : β → Encoding) :
    each (items.map f) encode = each items fun x => encode (f x) := by
  rw [each, List.map_map]
  rfl

lemma toOption_result_eq_none : a.result.toOption = none ↔ a.error? ≠ none := by
  rw [result]
  cases a.error? <;> simp [Except.toOption]

end Encoding

namespace Registry

open Serializer Encoding

variable {r : Registry} {kind : Kind} {v : Value}

/-! ### Kinds that are kept and kinds that are refused -/

/-- The serializer of a kind writes what the standard one writes. -/
def Keeps (r : Registry) (kind : Kind) : Prop :=
  ∃ s t, r.find? kind = some s ∧ standard.find? kind = some t ∧ ∀ v, v.kind = kind →
    s.transform v = t.transform v ∧ ∀ nested, s.writePayload nested v = t.writePayload nested v

/-- No value of a kind is written: there is no serializer, or it takes the value for its own and fails. -/
def Refuses (r : Registry) (kind : Kind) : Prop :=
  ∀ s, r.find? kind = some s → ∀ v, v.kind = kind →
    s.transform v = none ∧ ∀ nested, (s.writePayload nested v).error? ≠ none

/-- More levels than there are for a value change nothing about how it is written. -/
def Converges (r : Registry) (v : Value) : Prop :=
  ∀ n, levelsFor v ≤ n → r.writeAt n v = r.write v

lemma refuses_of_find?_eq_none (h : r.find? kind = none) : r.Refuses kind := fun s hs => by
  rw [h] at hs
  cases hs

lemma write_null (r : Registry) : r.write .null = nullEncoding :=
  r.writeAt_null rfl _

lemma resolve_of_find?_eq_none (hs : r.find? v.kind = none) (hv : v.isNull = false) (steps : Nat) :
    r.resolve steps v = .error (.serializerNotFound v.kind) := by
  have hget : r.get v.kind = .error (.serializerNotFound v.kind) := by rw [get, hs]
  unfold resolve
  simp only [hv, hget, Bool.false_eq_true, ↓reduceIte]

/-- A value of a kind that is kept is written as its header and the standard payload. -/
lemma Keeps.writeAt_succ {t : Serializer} (h : r.Keeps v.kind) (ht : standard.find? v.kind = some t)
    (htransform : t.transform v = none) (hv : v.isNull = false) (n : Nat) :
    r.writeAt (n + 1) v = present v.kind ++ t.writePayload (r.writeAt n) v := by
  obtain ⟨s, t', hs, ht', hsame⟩ := h
  obtain rfl : t' = t := Option.some.inj (ht'.symm.trans ht)
  obtain ⟨hreplace, hpayload⟩ := hsame v rfl
  rw [Registry.writeAt_succ hs (hreplace.trans htransform) hv, hpayload]

/-- A value of a kind that is kept is written bare as the standard payload. -/
lemma Keeps.writeBare {t : Serializer} (h : r.Keeps v.kind) (ht : standard.find? v.kind = some t)
    (hv : v.isNull = false) : r.writeBare v.kind false v = t.writePayload (r.writeAt (levelsFor v)) v := by
  obtain ⟨s, t', hs, ht', hsame⟩ := h
  obtain rfl : t' = t := Option.some.inj (ht'.symm.trans ht)
  have hget : r.get v.kind = .ok s := by rw [get, hs]
  simp only [Registry.writeBare, hget, hv, Bool.false_eq_true, ↓reduceIte]
  exact (hsame v rfl).2 _

/-- A value of a kind that is refused is not written. -/
lemma Refuses.not_written (h : r.Refuses v.kind) (hv : v.isNull = false) (n : Nat) :
    (r.writeAt n v).error? ≠ none := by
  cases hs : r.find? v.kind with
  | none => cases n <;> simp [writeAt, resolve_of_find?_eq_none hs hv, fail]
  | some s =>
    obtain ⟨htransform, hpayload⟩ := h s hs v rfl
    cases n with
    | zero => simp [writeAt, resolve_eq hs htransform hv, fault, fail]
    | succ n =>
      rw [Registry.writeAt_succ hs htransform hv, Ne, written_append]
      exact fun written => hpayload _ written.2

lemma Refuses.not_written_bare (h : r.Refuses v.kind) (hv : v.isNull = false) :
    (r.writeBare v.kind false v).error? ≠ none := by
  cases hs : r.find? v.kind with
  | none =>
    have hget : r.get v.kind = .error (.serializerNotFound v.kind) := by rw [get, hs]
    simp [writeBare, hget, fail]
  | some s =>
    have hget : r.get v.kind = .ok s := by rw [get, hs]
    simp only [writeBare, hget, hv, Bool.false_eq_true, ↓reduceIte]
    exact (h s hs v rfl).2 _

/-- So a kind of which a value is written is kept, if it is one or the other. -/
lemma keeps_of_written_value (h : r.Keeps v.kind ∨ r.Refuses v.kind) (hv : v.isNull = false) {n : Nat}
    (written : (r.writeAt n v).error? = none) : r.Keeps v.kind :=
  h.resolve_right fun refuses => refuses.not_written hv n written

/-! ### Some of the standard serializers -/

/-- A registry with some of the standard serializers and no other ones. -/
def Restricted (r : Registry) : Prop :=
  ∀ kind, r.find? kind = none ∨ r.Keeps kind

lemma restricted_empty : empty.Restricted := fun _ => .inl rfl

lemma Restricted.register {s : Serializer} (h : r.Restricted) (hs : standard.find? s.kind = some s) :
    (r.register s).Restricted := by
  intro kind
  by_cases hkind : kind = s.kind
  · subst hkind
    exact .inr ⟨s, s, if_pos rfl, hs, fun v _ => ⟨rfl, fun _ => rfl⟩⟩
  · have hfind : (r.register s).find? kind = r.find? kind := if_neg hkind
    rw [Keeps, hfind]
    exact h kind

lemma Restricted.keeps_or_refuses (h : r.Restricted) (kind : Kind) : r.Keeps kind ∨ r.Refuses kind :=
  (h kind).symm.imp_right refuses_of_find?_eq_none

/-- The only value that a standard serializer replaces is a lone map entry. -/
lemma transform_standard {t : Serializer} (ht : standard.find? v.kind = some t)
    (hv : ∀ key value, v ≠ .mapEntry key value) : t.transform v = none := by
  cases v with
  | mapEntry key value => exact absurd rfl (hv key value)
  | null => cases ht
  | _ => cases ht; rfl

/-- A lone map entry is written as the map of the entry, where its kind is kept. -/
lemma Keeps.writeAt_mapEntry (hkeeps : r.Keeps .mapEntry) (h : r.Restricted) (key value : Value) (n : Nat) :
    r.writeAt n (.mapEntry key value) = r.writeAt n (.map [(key, value)]) := by
  obtain ⟨s, t, hs, ht, hsame⟩ := hkeeps
  have hget : r.get .mapEntry = .ok s := by rw [get, hs]
  have hreplace : s.transform (.mapEntry key value) = some (.map [(key, value)]) := by
    rw [(hsame _ rfl).1]
    cases ht
    rfl
  have hmap (steps : Nat) : r.resolve steps (.map [(key, value)]) = r.resolve maxTransforms (.map [(key, value)]) := by
    obtain hnone | ⟨s, t, hs, ht, hsame⟩ := h .map
    · rw [resolve_of_find?_eq_none hnone rfl, resolve_of_find?_eq_none hnone rfl]
    · have htransform := (hsame (.map [(key, value)]) rfl).1.trans (by cases ht; rfl)
      rw [resolve_eq hs htransform rfl, resolve_eq hs htransform rfl]
  have hresolve : r.resolve maxTransforms (.mapEntry key value) = r.resolve maxTransforms (.map [(key, value)]) := by
    rw [← hmap 7, maxTransforms, resolve]
    simp only [Value.isNull, Value.kind, hget, hreplace, Bool.false_eq_true, ↓reduceIte]
  cases n <;> rw [writeAt, writeAt, hresolve]

/-- A value is written alike when the values inside it are. -/
lemma Restricted.writeAt_succ_congr (h : r.Restricted) (hv : ∀ key value, v ≠ .mapEntry key value) {n m : Nat}
    (hnested : ∀ w, w.levels < v.levels → r.writeAt n w = r.writeAt m w) :
    r.writeAt (n + 1) v = r.writeAt (m + 1) v := by
  cases hnull : v.isNull with
  | true => rw [r.writeAt_null hnull, r.writeAt_null hnull]
  | false =>
    obtain hnone | hkeeps := h v.kind
    · rw [writeAt, writeAt, resolve_of_find?_eq_none hnone hnull]
    · obtain ⟨s, t, -, ht, -⟩ := id hkeeps
      have htransform := transform_standard ht hv
      rw [hkeeps.writeAt_succ ht htransform hnull, hkeeps.writeAt_succ ht htransform hnull,
        writePayload_congr ht hnested]

/-- As many levels as a value has are enough, by induction on the levels: the serializers ask for values of fewer. -/
lemma Restricted.writeAt_eq (h : r.Restricted) {n m : Nat} (hn : v.levels ≤ n) (hm : v.levels ≤ m) :
    r.writeAt n v = r.writeAt m v := by
  induction n generalizing m v with
  | zero =>
    have hnull := Value.isNull_of_levels_eq_zero (Nat.le_zero.mp hn)
    rw [r.writeAt_null hnull, r.writeAt_null hnull]
  | succ n ih =>
    cases hnull : v.isNull with
    | true => rw [r.writeAt_null hnull, r.writeAt_null hnull]
    | false =>
      have hpos : v.levels ≠ 0 := fun h => by rw [Value.isNull_of_levels_eq_zero h] at hnull; cases hnull
      obtain ⟨m, rfl⟩ := Nat.exists_eq_succ_of_ne_zero (by omega : m ≠ 0)
      have hnested (w : Value) (hw : w.levels < v.levels) : r.writeAt n w = r.writeAt m w :=
        ih (by omega) (by omega)
      by_cases hentry : ∃ key value, v = .mapEntry key value
      · obtain ⟨key, value, rfl⟩ := hentry
        obtain hnone | hkeeps := h .mapEntry
        · rw [writeAt, writeAt, resolve_of_find?_eq_none hnone rfl]
        · have hlevels : (Value.map [(key, value)]).levels = (Value.mapEntry key value).levels := by
            simp only [Value.levels, Value.levelsEntries, Value.levelsEntry, Nat.max_zero]
          rw [hkeeps.writeAt_mapEntry h, hkeeps.writeAt_mapEntry h]
          exact h.writeAt_succ_congr (by simp) (hlevels ▸ hnested)
      · exact h.writeAt_succ_congr (by simpa using hentry) hnested

/-- **With some of the standard serializers and no other ones, writing a value comes to an end.** -/
theorem Restricted.converges (h : r.Restricted) (v : Value) : r.Converges v := fun _ hn =>
  h.writeAt_eq (Nat.le_trans (Nat.le_add_right _ _) hn) (Nat.le_add_right _ _)

end Registry

namespace Inlined

open Serializer Encoding Registry

variable {r : Registry} {p : Inlined}

/-! ### The kinds of a part -/

variable {q : Kind → Prop}

lemma forall_unless_empty {α : Type} {items : List α} {kinds : List Kind} :
    (∀ k ∈ if items.isEmpty then [] else kinds, q k) ↔ ∀ x ∈ items, ∀ k ∈ kinds, q k := by
  cases items with
  | nil => simp
  | cons x rest => exact ⟨fun h _ _ => h, fun h => h x List.mem_cons_self⟩

lemma forall_elementKinds {α : Type} {kind : Kind} {items : List α} :
    (∀ k ∈ elementKinds kind items, q k) ↔ ∀ x ∈ items, q .list ∧ q kind := by
  rw [elementKinds, forall_unless_empty]
  simp

lemma forall_kinds_labels {steps : List (List String)} :
    (∀ k ∈ (labels steps).kinds, q k) ↔ q .list ∧ ∀ step ∈ steps, q .set ∧ ∀ label ∈ step, q .string := by
  have hlabels : (∀ label ∈ steps.flatten, q .string) ↔ ∀ step ∈ steps, ∀ label ∈ step, q .string := by
    simp only [List.mem_flatten, forall_exists_index, and_imp]
    exact ⟨fun h step hs label hl => h label step hs hl, fun h label step hs hl => h step hs label hl⟩
  rw [kinds, List.cons_append, List.forall_mem_cons, List.forall_mem_append, forall_unless_empty, forall_unless_empty]
  simp only [List.forall_mem_singleton, hlabels, forall_and]

lemma forall_kinds_fields {f : Fields} :
    (∀ k ∈ (fields f).kinds, q k) ↔ q .map ∧ ∀ e ∈ f.entries, q .string := by
  rw [kinds, List.forall_mem_cons, forall_unless_empty]
  simp only [List.forall_mem_singleton]

/-! ### Parts whose kinds are kept -/

lemma writeAt_string (h : r.Keeps .string) (text : String) (n : Nat) :
    r.writeAt (n + 1) (.string text) = present .string ++ .string text :=
  h.writeAt_succ (v := .string text) (t := string .encoded) rfl rfl rfl n

lemma writeAt_list (h : r.Keeps .list) (items : List Value) (n : Nat) :
    r.writeAt (n + 1) (.list items) = present .list ++ .length items.length ++ .each items (r.writeAt n) := by
  rw [h.writeAt_succ (v := .list items) (t := list .encoded) rfl rfl rfl, Encoding.append_assoc]
  rfl

lemma writeAt_set (h : r.Keeps .set) (items : List Value) (n : Nat) :
    r.writeAt (n + 1) (.set items) = present .set ++ .length items.length ++ .each items (r.writeAt n) := by
  rw [h.writeAt_succ (v := .set items) (t := set .encoded) rfl rfl rfl, Encoding.append_assoc]
  rfl

/-- A label set, of texts in a set. -/
lemma writeAt_labels {step : List String} (hset : r.Keeps .set) (hstring : ∀ label ∈ step, r.Keeps .string)
    (n : Nat) : r.writeAt (n + 2) (.set (step.map .string)) = writeLabels step := by
  have hlabel (label : String) (h : label ∈ step) :
      r.writeAt (n + 1) (.string label) = present .string ++ .string label :=
    writeAt_string (hstring label h) label n
  rw [writeAt_set hset, writeLabels, List.length_map, Encoding.each_map, Encoding.each_congr hlabel]

/-- A part that is written as a list, is so with what is left of the levels inside it. -/
lemma byHand_eq_registered {items : List Value} (hregistered : p.registered r = r.write (.list items))
    (hwrite : ∀ n, r.writeAt (n + 3) (.list items) = p.byHand (r.writeAt (n + 1)))
    (hlevels : ∀ v ∈ p.nested, v.levels + 1 < (Value.list items).levels) (hnested : ∀ v ∈ p.nested, r.Converges v) :
    p.byHand r.write = p.registered r := by
  have hsize : 3 ≤ UInt64.size := by decide
  obtain ⟨n, hn⟩ : ∃ n, levelsFor (.list items) = n + 3 :=
    Nat.exists_eq_add_of_le' (Nat.le_trans hsize (Nat.le_add_left _ _))
  rw [hregistered, Registry.write, hn, hwrite]
  refine byHand_congr fun v hv => (hnested v hv _ ?_).symm
  have := hlevels v hv
  simp only [levelsFor] at hn ⊢
  omega

/-- Elements that are listed, each of them written as its header and its payload. -/
lemma byHand_eq_registered_elements {α : Type} {item : α → Value} {kind : Kind}
    {write : (Value → Encoding) → α → Encoding} {items : List α}
    (hbyHand : ∀ f, p.byHand f = writeElements kind (write f) items)
    (hregistered : p.registered r = r.write (elements item items))
    (hkinds : ∀ k ∈ elementKinds kind items, r.Keeps k)
    (hitem : r.Keeps kind → ∀ n x, r.writeAt (n + 1) (item x) = present kind ++ write (r.writeAt n) x)
    (hlevels : ∀ v ∈ p.nested, v.levels + 1 < (Value.list (items.map item)).levels)
    (hnested : ∀ v ∈ p.nested, r.Converges v) : p.byHand r.write = p.registered r := by
  cases hempty : items.isEmpty with
  | true => rw [hbyHand, hregistered, elements, if_pos hempty, write_null, writeElements, if_pos hempty]
  | false =>
    have hfull : ¬items.isEmpty = true := by simp [hempty]
    obtain ⟨x, hx⟩ := List.exists_mem_of_ne_nil items (List.isEmpty_eq_false_iff.mp hempty)
    obtain ⟨hlist, hkind⟩ := forall_elementKinds.mp hkinds x hx
    rw [elements, if_neg hfull] at hregistered
    refine byHand_eq_registered hregistered (fun n => ?_) hlevels hnested
    rw [writeAt_list hlist, hbyHand, writeElements, if_neg hfull, List.length_map, Encoding.each_map,
      Encoding.each_congr fun x _ => hitem hkind (n + 1) x]

/-- The payload of a map with texts as keys. -/
lemma writeBare_fields {f : Fields} (hmap : r.Keeps .map) (hstring : ∀ e ∈ f.entries, r.Keeps .string)
    (hnested : ∀ v ∈ (fields f).nested, r.Converges v) :
    (fields f).registered r =
      .length f.size ++ .each f.entries fun e => present .string ++ .string e.1 ++ r.write e.2 := by
  have hlevels := Value.levelsEntries_le.mp (le_refl (Value.levelsEntries (f.entries.map fun e => (.string e.1, e.2))))
  obtain ⟨n, hn⟩ : ∃ n, levelsFor (fields f).value = n + 1 :=
    Nat.exists_eq_add_of_le' (Nat.le_trans (by decide : 1 ≤ UInt64.size) (Nat.le_add_left _ _))
  have hentry (e : String × Value) (h : e ∈ f.entries) :
      r.writeAt (n + 1) (.string e.1) ++ r.writeAt (n + 1) e.2 = present .string ++ .string e.1 ++ r.write e.2 := by
    have hkey := writeAt_string (hstring e h) e.1 n
    have hvalue := (hlevels _ (List.mem_map_of_mem h)).2
    rw [hkey, hnested e.2 (List.mem_map_of_mem h) (n + 1)]
    rw [← hn]
    exact Nat.add_le_add_right (Nat.le_trans hvalue (Nat.le_add_left _ 1)) _
  have hbare : (fields f).registered r = (map .encoded).writePayload (r.writeAt (n + 1)) (fields f).value :=
    hn ▸ hmap.writeBare (v := (fields f).value) (t := map .encoded) rfl rfl
  rw [hbare]
  change Encoding.length (f.entries.map _).length ++ .each (f.entries.map _) _ = _
  rw [List.length_map, Encoding.each_map, Encoding.each_congr hentry, Fields.size]

/-- **A part of kinds that are all kept has the outcome that the registry gives it.** -/
theorem same_of_keeps (hkinds : ∀ kind ∈ p.kinds, r.Keeps kind) (hnested : ∀ v ∈ p.nested, r.Converges v) :
    (p.byHand r.write).result.toOption = (p.registered r).result.toOption := by
  cases p with
  | properties items =>
    rw [byHand_eq_registered_elements (fun _ => rfl) rfl hkinds (fun hkeeps n q => ?_) (fun v hv => ?_) hnested]
    · exact hkeeps.writeAt_succ (v := .property q) (t := property .encoded) rfl rfl rfl n
    · exact (levels_lt_properties hv).trans_le (Value.levelsProperties_le_list items)
  | vertexProperties items =>
    rw [byHand_eq_registered_elements (fun _ => rfl) rfl hkinds (fun hkeeps n q => ?_) (fun v hv => ?_) hnested]
    · exact hkeeps.writeAt_succ (v := .vertexProperty q) (t := vertexProperty .encoded) rfl rfl rfl n
    · exact (levels_lt_vertexProperties hv).trans_le (Value.levelsVertexProperties_le_list items)
  | labels steps =>
    obtain ⟨hlist, hsteps⟩ := forall_kinds_labels.mp hkinds
    have hstep (n : Nat) (step : List String) (h : step ∈ steps) :
        r.writeAt (n + 2) (.set (step.map .string)) = writeLabels step :=
      writeAt_labels (hsteps step h).1 (hsteps step h).2 n
    rw [byHand_eq_registered (p := labels steps) rfl (fun n => ?_) (by simp [nested]) hnested]
    rw [writeAt_list hlist, List.length_map, Encoding.each_map, Encoding.each_congr (hstep n)]
    rfl
  | fields f =>
    obtain ⟨hmap, hstring⟩ := forall_kinds_fields.mp hkinds
    rw [writeBare_fields hmap hstring hnested, byHand]
    by_cases hsize : f.size ≤ maxLength
    · rw [if_pos hsize, Encoding.length, if_pos hsize]
    · rw [if_neg hsize, Encoding.length, if_neg hsize]
      rfl

/-! ### Parts of a kind that is refused -/

lemma written_list {items : List Value} (hlist : r.Keeps .list) (h : (r.write (.list items)).error? = none) :
    ∃ n, ∀ v ∈ items, (r.writeAt (n + 1) v).error? = none := by
  obtain ⟨n, hn⟩ : ∃ n, levelsFor (.list items) = n + 2 :=
    Nat.exists_eq_add_of_le' (Nat.le_trans (by decide : 2 ≤ UInt64.size) (Nat.le_add_left _ _))
  rw [Registry.write, hn, writeAt_list hlist, written_append, written_each] at h
  exact ⟨n, h.2⟩

lemma written_set {items : List Value} (hset : r.Keeps .set) {n : Nat}
    (h : (r.writeAt (n + 1) (.set items)).error? = none) : ∀ v ∈ items, (r.writeAt n v).error? = none := by
  rw [writeAt_set hset, written_append, written_each] at h
  exact h.2

/-- Elements that the registry writes, are of a kind that it keeps. -/
lemma keeps_of_written_elements {α : Type} {item : α → Value} {kind : Kind} {items : List α}
    (hitem : ∀ x, (item x).kind = kind ∧ (item x).isNull = false)
    (hkinds : ∀ k ∈ elementKinds kind items, r.Keeps k ∨ r.Refuses k)
    (h : (r.write (elements item items)).error? = none) : ∀ k ∈ elementKinds kind items, r.Keeps k := by
  rw [forall_elementKinds] at hkinds ⊢
  intro x hx
  rw [elements, if_neg (by simp [List.ne_nil_of_mem hx])] at h
  have hlist := keeps_of_written_value (v := .list (items.map item)) (hkinds x hx).1 rfl h
  obtain ⟨n, hwritten⟩ := written_list hlist h
  obtain ⟨rfl, hnull⟩ := hitem x
  exact ⟨hlist, keeps_of_written_value (hkinds x hx).2 hnull (hwritten _ (List.mem_map_of_mem hx))⟩

/-- **A part that the registry writes, is of kinds that it keeps**, if it keeps or refuses each of them. -/
theorem keeps_of_written (hkinds : ∀ kind ∈ p.kinds, r.Keeps kind ∨ r.Refuses kind)
    (h : (p.registered r).error? = none) : ∀ kind ∈ p.kinds, r.Keeps kind := by
  cases p with
  | properties items => exact keeps_of_written_elements (fun _ => ⟨rfl, rfl⟩) hkinds h
  | vertexProperties items => exact keeps_of_written_elements (fun _ => ⟨rfl, rfl⟩) hkinds h
  | labels steps =>
    rw [forall_kinds_labels] at hkinds ⊢
    have hlist := keeps_of_written_value (v := (labels steps).value) hkinds.1 rfl h
    obtain ⟨n, hsteps⟩ := written_list hlist h
    refine ⟨hlist, fun step hs => ?_⟩
    obtain ⟨hset, hstring⟩ := hkinds.2 step hs
    have hset := keeps_of_written_value hset rfl (hsteps _ (List.mem_map_of_mem hs))
    have hlabels := written_set hset (hsteps _ (List.mem_map_of_mem hs))
    exact ⟨hset, fun label hl => keeps_of_written_value (hstring label hl) rfl (hlabels _ (List.mem_map_of_mem hl))⟩
  | fields f =>
    rw [forall_kinds_fields] at hkinds ⊢
    have hmap : r.Keeps .map := hkinds.1.resolve_right fun refuses =>
      refuses.not_written_bare (v := (fields f).value) rfl h
    have hpayload : (fields f).registered r = _ :=
      hmap.writeBare (v := (fields f).value) (t := map .encoded) rfl rfl
    rw [hpayload] at h
    have hentries := (written_entries h).2
    exact ⟨hmap, fun e he => keeps_of_written_value (hkinds.2 e he) rfl (hentries _ (List.mem_map_of_mem he)).1⟩

/-! ### When the outcomes agree -/

/-- A part written by hand has the outcome that the registry gives it just if the registry keeps all kinds in the part
or the part is not written at all. -/
lemma agrees_iff (hkinds : ∀ kind ∈ p.kinds, r.Keeps kind ∨ r.Refuses kind) (hnested : ∀ v ∈ p.nested, r.Converges v) :
    (p.byHand r.write).result.toOption = (p.registered r).result.toOption ↔
      (∀ kind ∈ p.kinds, r.Keeps kind) ∨ (p.byHand r.write).error? ≠ none := by
  constructor
  · intro hsame
    by_cases hwritten : (p.byHand r.write).error? = none
    · have hregistered : (p.registered r).error? = none := by
        by_contra hfails
        rw [toOption_result_eq_none.mpr hfails, toOption_result_eq_none] at hsame
        exact hsame hwritten
      exact .inl (keeps_of_written hkinds hregistered)
    · exact .inr hwritten
  · rintro (hkeeps | hfails)
    · exact same_of_keeps hkeeps hnested
    · by_cases hregistered : (p.registered r).error? = none
      · exact same_of_keeps (keeps_of_written hkinds hregistered) hnested
      · rw [toOption_result_eq_none.mpr hfails, toOption_result_eq_none.mpr hregistered]

/-- **Parts written by hand bypass the registry.** Another registry that writes the values inside alike makes no
difference to such a part, whatever serializers it has for the kinds of the part itself. Hence, where each of these kinds
is kept or refused and writing the values inside comes to an end, the part has the outcome that the registry gives it just
if the registry keeps all the kinds or the part is not written at all: a registry that lacks a serializer, or has one that
fails, fails on the part when it is asked to write it, and writing by hand goes on. -/
theorem bypasses (p : Inlined) (r : Registry) :
    (∀ r' : Registry, (∀ v ∈ p.nested, r'.write v = r.write v) → p.byHand r'.write = p.byHand r.write) ∧
    ((∀ kind ∈ p.kinds, r.Keeps kind ∨ r.Refuses kind) → (∀ v ∈ p.nested, r.Converges v) →
      ((p.byHand r.write).result.toOption = (p.registered r).result.toOption ↔
        (∀ kind ∈ p.kinds, r.Keeps kind) ∨ (p.byHand r.write).error? ≠ none)) :=
  ⟨fun _ => byHand_congr, agrees_iff⟩

end Inlined

/-! ### A registry without texts -/

/-- Serializers for paths, lists and sets, and for nothing else. -/
def Registry.sparse : Registry :=
  ((empty.register (.list .encoded)).register (.set .encoded)).register .path

lemma Registry.restricted_sparse : sparse.Restricted :=
  ((restricted_empty.register rfl).register rfl).register rfl

namespace Inlined

open Registry

/-- A property whose value is a list: the value is written, and properties are not registered. -/
theorem bypasses_property :
    (∀ kind ∈ (properties [⟨"", .list []⟩]).kinds, sparse.Keeps kind ∨ sparse.Refuses kind) ∧
    (∀ v ∈ (properties [⟨"", .list []⟩]).nested, sparse.Converges v) ∧
    ((properties [⟨"", .list []⟩]).byHand sparse.write).result.toOption ≠
      ((properties [⟨"", .list []⟩]).registered sparse).result.toOption := by
  have hkinds := fun kind (_ : kind ∈ (properties [⟨"", .list []⟩]).kinds) => restricted_sparse.keeps_or_refuses kind
  have hnested := fun v (_ : v ∈ (properties [⟨"", .list []⟩]).nested) => restricted_sparse.converges v
  refine ⟨hkinds, hnested, mt ((bypasses _ sparse).2 hkinds hnested).mp ?_⟩
  rintro (hkeeps | hfails)
  · obtain ⟨s, t, hs, -⟩ := hkeeps .property (by simp [kinds, elementKinds])
    cases hs
  · exact hfails rfl

/-- A path with a label is written, and its label sets are not, for want of a serializer for texts. -/
theorem labels_unregistered :
    (sparse.write (.path ⟨[["a"]], [.null]⟩)).error? = none ∧
    ((labels [["a"]]).byHand sparse.write).result.toOption ≠ ((labels [["a"]]).registered sparse).result.toOption := by
  refine ⟨rfl, ?_⟩
  have hfails : ((labels [["a"]]).registered sparse).error? ≠ none := fun hwritten => by
    have hkeeps := keeps_of_written (fun kind _ => restricted_sparse.keeps_or_refuses kind) hwritten
    obtain ⟨s, t, hs, -⟩ := hkeeps .string (by simp [kinds])
    cases hs
  rw [Encoding.toOption_result_eq_none.mpr hfails, Ne, Encoding.toOption_result_eq_none]
  exact fun hwritten => hwritten rfl

end Inlined

end GraphServer
