import GraphServer.Text.Utf8
import Mathlib.Tactic

/-!
Reading UTF-8 undoes writing it.

A character is written as a lead byte and up to three continuation bytes, and each number of them has its
range of characters. For each range the lead byte announces the bounds that its continuation bytes keep
(`lead_two` to `lead_four`), and each continuation byte adds its six bits (`decodeFrom_continue`).

* `decodeFrom_encodeChar`: a written character is read and the reading goes on behind it;
* `decodeChars_encodeChar`: a single written character is read back;
* `decode_encode`: **a written text is read back**.
-/

namespace GraphServer.Utf8

/-! ### One byte at a time -/

lemma toNat_byte {n : Nat} (h : n < 256) : (UInt8.ofNat n).toNat = n := by
  rw [UInt8.toNat_ofNat', Nat.mod_eq_of_lt h]

/-- A continuation byte within the bounds adds six bits. -/
lemma decodeFrom_continue {start x : Nat} {p : Pending} (hlow : p.low.toNat ≤ x + 0x80)
    (hhigh : x + 0x80 ≤ p.high.toNat) (rest : Bytes) :
    decodeFrom start (some p) (UInt8.ofNat (x + 0x80) :: rest) =
      if p.owed = 0 then
        (Char.ofNat (p.bits * 64 + x) :: ·) <$> decodeFrom (start + (p.seen + 1)) none rest
      else decodeFrom start (some ⟨0x80, 0xBF, p.owed - 1, p.seen + 1, p.bits * 64 + x⟩) rest := by
  have hbyte : (UInt8.ofNat (x + 0x80)).toNat = x + 0x80 :=
    toNat_byte (Nat.lt_of_le_of_lt hhigh p.high.toNat_lt)
  have hbounds : p.low ≤ UInt8.ofNat (x + 0x80) ∧ UInt8.ofNat (x + 0x80) ≤ p.high := by
    rw [UInt8.le_iff_toNat_le, UInt8.le_iff_toNat_le, hbyte]
    exact ⟨hlow, hhigh⟩
  have hadd : p.add (UInt8.ofNat (x + 0x80)) = ⟨0x80, 0xBF, p.owed - 1, p.seen + 1, p.bits * 64 + x⟩ := by
    rw [Pending.add, hbyte, Nat.add_sub_cancel]
  rw [decodeFrom, if_pos hbounds, hadd]

/-! ### What lead bytes announce -/

lemma lead_one {n : Nat} (h : n ≤ 0x7F) : lead (UInt8.ofNat n) = .complete (Char.ofNat n) := by
  have hbyte : (UInt8.ofNat n).toNat = n := toNat_byte (by omega)
  rw [lead, if_pos (by rw [UInt8.le_iff_toNat_le, hbyte]; exact h), hbyte]

lemma lead_two {x : Nat} (hlow : 2 ≤ x) (hhigh : x < 32) :
    lead (UInt8.ofNat (x + 0xC0)) = .more ⟨0x80, 0xBF, 0, 1, x⟩ := by
  have hbyte : (UInt8.ofNat (x + 0xC0)).toNat = x + 0xC0 := toNat_byte (by omega)
  simp only [lead, UInt8.le_iff_toNat_le, UInt8.lt_iff_toNat_lt, hbyte, UInt8.reduceToNat]
  rw [if_neg (by omega), if_neg (by omega), if_pos (by omega), Nat.add_sub_cancel]

/-- The bounds of the byte after a lead byte of three: no overlong form and no surrogate. -/
lemma lead_three {x : Nat} (h : x < 16) :
    lead (UInt8.ofNat (x + 0xE0)) =
      .more ⟨if x = 0 then 0xA0 else 0x80, if x = 13 then 0x9F else 0xBF, 1, 1, x⟩ := by
  interval_cases x <;> rfl

/-- The bounds of the byte after a lead byte of four: no overlong form and no number above `10FFFF`. -/
lemma lead_four {x : Nat} (h : x < 5) :
    lead (UInt8.ofNat (x + 0xF0)) =
      .more ⟨if x = 0 then 0x90 else 0x80, if x = 4 then 0x8F else 0xBF, 2, 1, x⟩ := by
  interval_cases x <;> rfl

/-! ### One character at a time -/

/-- A written character is read, and the reading goes on behind it. -/
lemma decodeFrom_encodeChar (start : Nat) (c : Char) (rest : Bytes) :
    decodeFrom start none (String.utf8EncodeChar c ++ rest) =
      (c :: ·) <$> decodeFrom (start + (String.utf8EncodeChar c).length) none rest := by
  have hc : Char.ofNat c.val.toNat = c := Char.ofNat_toNat c
  have hvalid : c.val.toNat < 0xD800 ∨ 0xDFFF < c.val.toNat ∧ c.val.toNat < 0x110000 := c.valid
  generalize hv : c.val.toNat = v at hc hvalid
  rw [String.utf8EncodeChar]
  simp only [hv]
  by_cases h1 : v ≤ 0x7f
  · rw [if_pos h1, List.singleton_append, decodeFrom, lead_one h1, hc]
    rfl
  by_cases h2 : v ≤ 0x7ff
  · have hx : v / 64 % 32 = v / 64 := Nat.mod_eq_of_lt (by omega)
    have hbits : v / 64 * 64 + v % 64 = v := Nat.div_add_mod' v 64
    rw [if_neg h1, if_pos h2, hx, List.cons_append, List.singleton_append, decodeFrom,
      lead_two (by omega) (by omega)]
    simp only
    rw [decodeFrom_continue (by simp) (by simp; omega)]
    simp only [↓reduceIte, hbits, hc]
    rfl
  by_cases h3 : v ≤ 0xffff
  · have hx : v / 4096 % 16 = v / 4096 := Nat.mod_eq_of_lt (by omega)
    have hbits : (v / 4096 * 64 + v / 64 % 64) * 64 + v % 64 = v := by omega
    rw [if_neg h1, if_neg h2, if_pos h3, hx, List.cons_append, List.cons_append, List.singleton_append,
      decodeFrom, lead_three (by omega)]
    simp only
    rw [decodeFrom_continue (by simp only; split <;> simp; omega) (by simp only; split <;> simp <;> omega)]
    simp only [Nat.one_ne_zero, ↓reduceIte, Nat.sub_self]
    rw [decodeFrom_continue (by simp) (by simp; omega)]
    simp only [↓reduceIte, hbits, hc]
    rfl
  · have hx : v / 262144 % 8 = v / 262144 := Nat.mod_eq_of_lt (by omega)
    have hbits : ((v / 262144 * 64 + v / 4096 % 64) * 64 + v / 64 % 64) * 64 + v % 64 = v := by omega
    rw [if_neg h1, if_neg h2, if_neg h3, hx, List.cons_append, List.cons_append, List.cons_append,
      List.singleton_append, decodeFrom, lead_four (by omega)]
    simp only
    rw [decodeFrom_continue (by simp only; split <;> simp; omega) (by simp only; split <;> simp <;> omega)]
    simp only [OfNat.ofNat_ne_zero, ↓reduceIte, Nat.reduceSub]
    rw [decodeFrom_continue (by simp) (by simp; omega)]
    simp only [Nat.one_ne_zero, ↓reduceIte, Nat.sub_self]
    rw [decodeFrom_continue (by simp) (by simp; omega)]
    simp only [↓reduceIte, hbits, hc]
    rfl

/-- A single written character is read back. -/
lemma decodeChars_encodeChar (c : Char) : decodeChars (String.utf8EncodeChar c) = .ok [c] := by
  have h := decodeFrom_encodeChar 0 c []
  rw [List.append_nil] at h
  rw [decodeChars, h, decodeFrom]
  rfl

/-! ### Texts -/

/-- The bytes of a text are those that it is made of. -/
lemma encode_eq_toByteArray (text : String) : encode text = text.toByteArray.data.toList := by
  rw [← String.utf8Encode_toList]
  simp [encode, List.utf8Encode]

lemma length_encode (text : String) : (encode text).length = text.utf8ByteSize := by
  rw [encode_eq_toByteArray]
  rfl

lemma decodeFrom_encodeChars (start : Nat) (cs : List Char) :
    decodeFrom start none (cs.flatMap String.utf8EncodeChar) = .ok cs := by
  induction cs generalizing start with
  | nil => rfl
  | cons c cs ih =>
    rw [List.flatMap_cons, decodeFrom_encodeChar, ih]
    rfl

/-- **A written text is read back.** -/
theorem decode_encode (text : String) : decode (encode text) = .ok text := by
  rw [decode, decodeChars, encode, decodeFrom_encodeChars]
  change Except.ok (String.ofList text.toList) = _
  rw [String.ofList_toList]

end GraphServer.Utf8
