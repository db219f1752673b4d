import GraphServer.Proofs.Codec.Parses

/-!
The readers of values recognise the spellings of values.

* `Serializer.parses_payload`: the payload of each kind, for every measure of counts that asks for no more than the
  least width of an item;
* `Registry.BuiltIn`, `Registry.withWidths`: tables of standard serializers, with counts held against any measure;
* `Registry.readWith_eq`: a header as the bytes that it is read from, with what stands behind it;
* `Registry.parses_readAt`: **a reader of some levels recognises the spellings within these levels**.
-/

namespace GraphServer

namespace Serializer

open Decode

variable {α : Type} {nested : Decode Value} {inside : Form Value}

/-- Elements are read from a null, which stands for none of them, or from a list of what wraps them. -/
lemma parses_elements {f : Value → Decode (List α)} {wrap : α → Value} (h : nested.Parses inside)
    (hf : ∀ v, (f v).Parses fun bytes xs => bytes = [] ∧ (v = .null ∧ xs = [] ∨ v = .list (xs.map wrap))) :
    (nested >>= f).Parses (.elements wrap inside) := by
  refine (h.bind hf).congr fun bytes xs => ⟨?_, ?_⟩
  · rintro ⟨front, v, _, rfl, hv, rfl, ⟨rfl, rfl⟩ | rfl⟩
    · exact .inl ⟨rfl, by rwa [List.append_nil]⟩
    · exact .inr (by rwa [List.append_nil])
  · rintro (⟨rfl, hnull⟩ | hlist)
    · exact ⟨bytes, _, [], (List.append_nil _).symm, hnull, rfl, .inl ⟨rfl, rfl⟩⟩
    · exact ⟨bytes, _, [], (List.append_nil _).symm, hlist, rfl, .inr rfl⟩

/-- What is neither a null nor a list holds no elements. -/
lemma parses_noElements {v : Value} {wrap : α → Value} (e : CodecFault) (hnull : v ≠ .null)
    (hlist : ∀ items, v ≠ .list items) : (fault e : Decode (List α)).Parses fun bytes xs =>
      bytes = [] ∧ (v = .null ∧ xs = [] ∨ v = .list (xs.map wrap)) := by
  refine (parses_fault e).congr fun bytes xs => ⟨False.elim, ?_⟩
  rintro ⟨-, ⟨rfl, -⟩ | rfl⟩
  · exact hnull rfl
  · exact hlist _ rfl

/-- A list of elements, if `pick` takes from a value just what the value wraps. -/
lemma parses_readElements {what : String} {pick : Value → Option α} {wrap : α → Value}
    (hpick : ∀ v x, pick v = some x ↔ v = wrap x) (h : nested.Parses inside) :
    (readElements what pick nested).Parses (.elements wrap inside) := by
  refine parses_elements h fun v => ?_
  split
  · refine (parses_pure []).congr fun bytes xs => and_congr_right fun _ => ?_
    simp
  · refine (parses_mapM wrap (fun item => ?_) _).congr fun bytes xs => and_congr_right fun _ => ?_
    · split
      next x hx =>
        refine (parses_pure x).congr fun bytes y => and_congr_right fun _ => ?_
        rw [← hpick, hx, Option.some.injEq, eq_comm]
      next hnone =>
        refine (parses_fault _).congr fun bytes y => ⟨False.elim, fun ⟨_, hy⟩ => ?_⟩
        rw [← hpick, hnone] at hy
        cases hy
    · simp
  next hnull hlist => exact parses_noElements _ hnull hlist

lemma parses_readProperties (h : nested.Parses inside) :
    (readProperties nested).Parses (.elements .property inside) := by
  refine parses_readElements (fun v p => ⟨fun hp => ?_, fun hv => by rw [hv]⟩) h
  cases v with
  | property q => exact congrArg _ (Option.some.inj hp)
  | _ => cases hp

lemma parses_readVertexProperties (h : nested.Parses inside) :
    (readElements "VertexProperty" (fun | .vertexProperty p => some p | _ => none) nested).Parses
      (.elements .vertexProperty inside) := by
  refine parses_readElements (fun v p => ⟨fun hp => ?_, fun hv => by rw [hv]⟩) h
  cases v with
  | vertexProperty q => exact congrArg _ (Option.some.inj hp)
  | _ => cases hp

lemma parses_readLabels (h : nested.Parses inside) :
    (readElements "Set" labels? nested).Parses (.elements Form.labels inside) :=
  parses_readElements (fun _ step => ⟨eq_set_of_labels?, fun hv => by rw [hv]; exact labels?_set step⟩) h

lemma parses_readObjects (h : nested.Parses inside) : (readObjects nested).Parses (.elements id inside) := by
  refine parses_elements h fun v => ?_
  split
  · refine (parses_pure _).congr fun bytes xs => and_congr_right fun _ => ?_
    simp [eq_comm]
  · refine (parses_pure _).congr fun bytes xs => and_congr_right fun _ => ?_
    simp
  next hlist hnull => exact parses_noElements _ hnull hlist

/-- The payload of each kind, if counts are held against no more than what is spelled and what is inside has a type
code and flags at least. -/
lemma parses_payload {widths : Widths} (hwidths : ∀ what, widths what ≤ Widths.encoded what) {kind : Kind}
    {s : Serializer} (hs : standard? widths kind = some s) (two_le : ∀ bytes v, inside bytes v → 2 ≤ bytes.length)
    (h : nested.Parses inside) : (s.readPayload nested).Parses (Form.payload inside kind) := by
  have text := parses_string (hwidths .string)
  have elementRef : (readElementRef widths nested).Parses (Form.elementRef inside) :=
    h.bind fun _ => text.bind fun _ => parses_pure _
  cases kind <;> cases hs
  case int => exact parses_int.map _
  case long => exact parses_long.map _
  case short => exact parses_short.map _
  case byte => exact parses_byte.map _
  case boolean => exact parses_bool.map _
  case float => exact parses_float.map _
  case double => exact parses_double.map _
  case date => exact parses_long.map _
  case timestamp => exact parses_long.map _
  case uuid => exact parses_uuid.map _
  case char => exact parses_char.map _
  case string => exact text.map _
  case class_ => exact text.map _
  case duration => exact parses_long.bind fun _ => parses_int.bind fun _ => parses_pure _
  case byteBuffer =>
    have whole := (parses_octets (hwidths .byteBuffer)).map Value.byteBuffer
    rw [map_eq_pure_bind, bind_assoc] at whole
    exact whole
  case list =>
    exact (parses_counted widths .list h fun bytes v hv => (hwidths .list).trans (two_le bytes v hv)).map _
  case set =>
    exact (parses_counted widths .set h fun bytes v hv => (hwidths .set).trans (two_le bytes v hv)).map _
  case map =>
    have entry : (readEntry nested).Parses _ := h.bind fun _ => h.bind fun _ => parses_pure _
    have whole := (parses_counted widths .map entry ?_).map Value.map
    · rw [map_eq_pure_bind, bind_assoc] at whole
      exact whole
    · rintro _ _ ⟨front, key, _, rfl, hkey, back, value, _, rfl, hvalue, rfl, rfl⟩
      have hfront := two_le _ _ hkey
      have hback := two_le _ _ hvalue
      have hwidth : widths .map ≤ 4 := hwidths .map
      simp only [List.length_append, List.length_nil]
      omega
  case bulkSet =>
    have counted : (readCounted nested).Parses _ := h.bind fun _ => parses_long.bind fun _ => parses_pure _
    have whole := (parses_counted widths .bulkSet counted ?_).map Value.bulkSet
    · rw [map_eq_pure_bind, bind_assoc] at whole
      exact whole
    · rintro _ _ ⟨front, item, _, rfl, hitem, _, bulk, _, rfl, ⟨-, rfl⟩, rfl, rfl⟩
      have hfront := two_le _ _ hitem
      have hwidth : widths .bulkSet ≤ 10 := hwidths .bulkSet
      rw [Encoding.long, Encoding.bytes_chunk]
      simp only [List.length_append, List.length_nil, Bytes.length_ofNat]
      omega
  case property => exact text.bind fun _ => h.bind fun _ => h.bind fun _ => parses_pure _
  case vertexProperty =>
    exact h.bind fun _ => text.bind fun _ => h.bind fun _ => h.bind fun _ =>
      (parses_readProperties h).bind fun _ => parses_pure _
  case vertex =>
    exact h.bind fun _ => text.bind fun _ => (parses_readVertexProperties h).bind fun _ => parses_pure _
  case edge =>
    exact h.bind fun _ => text.bind fun _ => elementRef.bind fun _ => elementRef.bind fun _ => h.bind fun _ =>
      (parses_readProperties h).bind fun _ => parses_pure _
  case path =>
    refine (parses_readLabels h).bind fun labels => (parses_readObjects h).bind fun objects => ?_
    split
    next hne => exact (parses_fault _).congr fun _ _ => ⟨False.elim, fun h => hne h.2.1⟩
    next heq =>
      exact (parses_pure _).congr fun _ _ => and_congr_right fun _ => (and_iff_right (not_not.mp heq)).symm
  case traverser => exact parses_long.bind fun _ => h.bind fun _ => parses_pure _
  case mapEntry => exact parses_throw _

end Serializer

namespace Registry

open Decode

variable {r : Registry} {widths : Widths}

/-! ### Tables of standard serializers -/

/-- The same kinds, each with its standard serializer, whose counts are held against given widths. -/
def withWidths (r : Registry) (widths : Widths) : Registry where
  find? kind := if r.contains kind then Serializer.standard? widths kind else none
  kind_of_find? h := by
    split at h
    · exact Serializer.kind_standard h
    · cases h

/-- Every kind in the table has its standard serializer; not every kind needs to be there. -/
def BuiltIn (r : Registry) : Prop :=
  ∀ kind s, r.find? kind = some s → Serializer.standard? .encoded kind = some s

lemma builtIn_standard : standard.BuiltIn := fun _ _ h => h

/-- A table of standard serializers is what its kinds make of it. -/
lemma BuiltIn.withWidths_encoded (h : r.BuiltIn) : r.withWidths .encoded = r := by
  obtain ⟨find?, hkind⟩ := r
  simp only [withWidths, mk.injEq]
  funext kind
  cases hs : find? kind with
  | none => simp [contains, hs]
  | some s => simp [contains, hs, h kind s hs]

lemma standard?_of_contains (widths : Widths) {kind : Kind} (h : kind ≠ .unspecifiedNull) :
    ∃ s, Serializer.standard? widths kind = some s := by
  cases kind with
  | unspecifiedNull => exact absurd rfl h
  | _ => exact ⟨_, rfl⟩

/-- Under two measures a kind has its two standard serializers, or none under both. -/
lemma find?_withWidths (r : Registry) (widths widths' : Widths) (kind : Kind) :
    (∃ s s', Serializer.standard? widths kind = some s ∧ Serializer.standard? widths' kind = some s' ∧
      r.contains kind ∧ (r.withWidths widths).find? kind = some s ∧ (r.withWidths widths').find? kind = some s') ∨
    (r.contains kind → kind = .unspecifiedNull) ∧ (r.withWidths widths).find? kind = none ∧
      (r.withWidths widths').find? kind = none := by
  by_cases hin : r.contains kind
  · by_cases hkind : kind = .unspecifiedNull
    · subst hkind
      exact .inr ⟨fun _ => rfl, by simp [withWidths, Serializer.standard?], by simp [withWidths, Serializer.standard?]⟩
    · obtain ⟨s, hs⟩ := standard?_of_contains widths hkind
      obtain ⟨s', hs'⟩ := standard?_of_contains widths' hkind
      exact .inl ⟨s, s', hs, hs', hin, by simp [withWidths, hin, hs], by simp [withWidths, hin, hs']⟩
  · exact .inr ⟨fun h => absurd h hin, by simp [withWidths, hin], by simp [withWidths, hin]⟩

/-! ### Headers -/

/-- Reads a header and goes on with the serializer of its kind, if it is not that of a null. -/
def readWith (r : Registry) (payload : Serializer → Decode Value) : Decode Value := do
  match ← r.readHeader with
  | none => return .null
  | some s => payload s

/-- Goes on with the serializer that a type code names. -/
def dispatch (r : Registry) (code : UInt8) (payload : Serializer → Decode Value) : Decode Value :=
  match Kind.ofCode? code with
  | none => throw (.unknownTypeCode code)
  | some .unspecifiedNull => fault .nullWithoutFlag
  | some kind =>
    match r.find? kind with
    | none => throw (.serializerNotFound kind)
    | some s => payload s

lemma readAt_zero (r : Registry) (limit : Nat) :
    r.readAt limit 0 = r.readWith fun _ => fault (.nestedTooDeep limit) := rfl

lemma readAt_succ (r : Registry) (limit levels : Nat) :
    r.readAt limit (levels + 1) = r.readWith fun s => s.readPayload (r.readAt limit levels) := rfl

lemma readWith_eq (r : Registry) (payload : Serializer → Decode Value) :
    r.readWith payload = (do
      let code ← u8
      let flags ← u8
      if ValueFlags.isNull flags then return .null else r.dispatch code payload) := by
  rw [readWith, readHeader]
  simp only [bind_assoc]
  congr 1
  funext code
  congr 1
  funext flags
  split
  · rfl
  · split
    next hcode =>
      simp only [dispatch, hcode]
      rfl
    next hcode =>
      simp only [dispatch, hcode]
      rfl
    next kind _ hcode =>
      cases hs : r.find? kind with
      | none =>
        simp only [dispatch, hcode, get, hs]
        rfl
      | some s =>
        simp only [dispatch, hcode, get, hs]
        rfl

/-- What stands behind a header, by the forms of the payloads of the kinds in the table. -/
lemma parses_dispatch {payload : Serializer → Decode Value} {form : Kind → Form Value}
    (hnull : form .unspecifiedNull = Form.none)
    (h : ∀ kind s, Serializer.standard? widths kind = some s → (payload s).Parses (form kind)) (code : UInt8) :
    ((r.withWidths widths).dispatch code payload).Parses fun bytes v =>
      ∃ kind, kind.code = code ∧ r.contains kind ∧ form kind bytes v := by
  rw [dispatch]
  split
  next hcode =>
    refine (parses_throw _).congr fun bytes v => ⟨False.elim, ?_⟩
    rintro ⟨kind, rfl, -⟩
    rw [Kind.ofCode?_code] at hcode
    cases hcode
  next hcode =>
    refine (parses_fault _).congr fun bytes v => ⟨False.elim, ?_⟩
    rintro ⟨kind, rfl, -, hform⟩
    rw [Kind.ofCode?_code, Option.some.injEq] at hcode
    rw [hcode, hnull] at hform
    exact hform
  next kind hkind hcode =>
    have same : ∀ {kind'}, kind'.code = code ↔ kind' = kind := by
      intro kind'
      refine ⟨?_, ?_⟩
      · rintro rfl
        rw [Kind.ofCode?_code] at hcode
        exact Option.some.inj hcode
      · rintro rfl
        exact Kind.code_ofCode? hcode
    obtain ⟨s, -, hs, -, hin, hfind, -⟩ | ⟨hout, hfind, -⟩ := find?_withWidths r widths widths kind
    · simp only [hfind, same]
      refine (h kind s hs).congr fun bytes v => ⟨fun hv => ⟨kind, rfl, hin, hv⟩, ?_⟩
      rintro ⟨_, rfl, -, hv⟩
      exact hv
    · simp only [hfind, same]
      refine (parses_throw _).congr fun bytes v => ⟨False.elim, ?_⟩
      rintro ⟨_, rfl, hin, -⟩
      exact hkind (hout hin)

/-- Flags tell whether what stands behind them is left out, in which case it is a null. -/
lemma parses_unlessNull {d : Decode Value} {p : Form Value} (h : d.Parses p) (flags : UInt8) :
    (if ValueFlags.isNull flags then pure .null else d).Parses fun bytes v =>
      ValueFlags.isNull flags ∧ bytes = [] ∧ v = .null ∨ ValueFlags.isNull flags = false ∧ p bytes v := by
  split
  next hnull =>
    refine (parses_pure _).congr fun bytes v => ⟨fun hv => .inl ⟨hnull, hv⟩, ?_⟩
    rintro (⟨-, hv⟩ | ⟨hpresent, -⟩)
    · exact hv
    · exact absurd hnull (Bool.eq_false_iff.mp hpresent)
  next hpresent =>
    refine h.congr fun bytes v => ⟨fun hv => .inr ⟨Bool.eq_false_iff.mpr hpresent, hv⟩, ?_⟩
    rintro (⟨hnull, -⟩ | ⟨-, hv⟩)
    · exact absurd hnull hpresent
    · exact hv

/-- A null, or a header and what stands behind it. -/
lemma parses_readWith {payload : Serializer → Decode Value} (form : Kind → Form Value)
    (hnull : form .unspecifiedNull = Form.none)
    (h : ∀ kind s, Serializer.standard? widths kind = some s → (payload s).Parses (form kind)) :
    ((r.withWidths widths).readWith payload).Parses fun bytes v => Form.null bytes v ∨
      ∃ kind flags rest, bytes = kind.code :: flags :: rest ∧ ValueFlags.isNull flags = false ∧ r.contains kind ∧
        form kind rest v := by
  rw [readWith_eq]
  refine (parses_u8.bind fun code => parses_u8.bind fun flags =>
    parses_unlessNull (parses_dispatch hnull h code) flags).congr fun bytes v => ⟨?_, ?_⟩
  · rintro ⟨_, code, _, rfl, rfl, _, flags, _, rfl, rfl, ⟨hflags, rfl, rfl⟩ | ⟨hflags, kind, rfl, hin, hv⟩⟩
    · exact .inl ⟨rfl, code, flags, rfl, hflags⟩
    · exact .inr ⟨kind, flags, _, rfl, hflags, hin, hv⟩
  · rintro (⟨rfl, code, flags, rfl, hflags⟩ | ⟨kind, flags, rest, rfl, hflags, hin, hv⟩)
    · exact ⟨[code], code, [flags], rfl, rfl, [flags], flags, [], rfl, rfl, .inl ⟨hflags, rfl, rfl⟩⟩
    · exact ⟨[kind.code], kind.code, flags :: rest, rfl, rfl, [flags], flags, rest, rfl, rfl,
        .inr ⟨hflags, kind, rfl, hin, hv⟩⟩

/-- **A reader of some levels recognises the spellings within these levels**, if it holds counts against no more
than what is spelled. By induction on the levels. -/
theorem parses_readAt (widths : Widths) (hwidths : ∀ what, widths what ≤ Widths.encoded what) (r : Registry)
    (limit levels : Nat) : ((r.withWidths widths).readAt limit levels).Parses (r.Spells levels) := by
  induction levels with
  | zero =>
    rw [readAt_zero]
    refine (parses_readWith (fun _ => Form.none) rfl fun _ _ _ => parses_fault _).congr
      fun bytes v => or_iff_left ?_
    rintro ⟨_, _, _, _, _, _, h⟩
    exact h
  | succ levels ih =>
    rw [readAt_succ]
    exact parses_readWith _ rfl fun kind s hs =>
      Serializer.parses_payload hwidths hs (fun bytes v hv => hv.two_le) ih

lemma parses_readNullable {s : Serializer} {nested : Decode Value} {p : Form Value}
    (h : (s.readPayload nested).Parses p) : (s.readNullable nested).Parses (Form.nullable p) := by
  refine (parses_u8.bind (parses_unlessNull h)).congr fun bytes v => ⟨?_, ?_⟩
  · rintro ⟨_, flags, rest, rfl, rfl, hv⟩
    exact ⟨flags, rest, rfl, hv⟩
  · rintro ⟨flags, rest, rfl, hv⟩
    exact ⟨[flags], flags, rest, rfl, rfl, hv⟩

/-- A payload whose kind is known from its place is recognised as well. -/
theorem parses_readBare (widths : Widths) (hwidths : ∀ what, widths what ≤ Widths.encoded what) (r : Registry)
    (limit : Nat) (kind : Kind) (nullable : Bool) :
    ((r.withWidths widths).readBare limit kind nullable).Parses (r.SpellsBare limit kind nullable) := by
  rw [readBare]
  obtain ⟨s, -, hs, -, hin, hfind, -⟩ | ⟨hout, hfind, -⟩ := find?_withWidths r widths widths kind
  · simp only [get, hfind]
    cases limit with
    | zero =>
      refine (parses_fault _).congr fun bytes v => ⟨False.elim, ?_⟩
      rintro ⟨levels, hlevels, -⟩
      cases hlevels
    | succ levels =>
      have hkind : kind ≠ .unspecifiedNull := fun h => by rw [h] at hs; cases hs
      have payload := Serializer.parses_payload hwidths hs (fun bytes v hv => hv.two_le)
        (parses_readAt widths hwidths r (levels + 1) levels)
      cases nullable with
      | true =>
        refine (parses_readNullable payload).congr fun bytes v => ⟨fun hv => ⟨levels, rfl, hin, hkind, hv⟩, ?_⟩
        rintro ⟨_, hlevels, -, -, hv⟩
        obtain rfl := Nat.succ.inj hlevels
        exact hv
      | false =>
        refine payload.congr fun bytes v => ⟨fun hv => ⟨levels, rfl, hin, hkind, hv⟩, ?_⟩
        rintro ⟨_, hlevels, -, -, hv⟩
        obtain rfl := Nat.succ.inj hlevels
        exact hv
  · simp only [get, hfind]
    refine (parses_throw _).congr fun bytes v => ⟨False.elim, ?_⟩
    rintro ⟨levels, rfl, hin, hkind, -⟩
    exact hkind (hout hin)

end Registry

end GraphServer
