import GraphServer.Bytes
import Mathlib.Tactic

/-!
Words as bytes, most significant byte first: what is read back is what was written.
-/

namespace GraphServer.Bytes

/-- Reading back what was written at a width keeps the number modulo `256 ^ width`. -/
lemma toNat_ofNat (width n : Nat) : toNat (ofNat width n) = n % 256 ^ width := by
  induction width generalizing n with
  | zero => simp [ofNat, Nat.mod_one]
  | succ width ih =>
    have split : n % (256 * 256 ^ width) = n % 256 + 256 * (n / 256 % 256 ^ width) := Nat.mod_mul
    have low : (UInt8.ofNat n).toNat = n % 256 := UInt8.toNat_ofNat'
    rw [ofNat, toNat_append_singleton, ih, low, pow_succ', split]
    omega

lemma toNat_ofNat_of_lt {width n : Nat} (h : n < 256 ^ width) : toNat (ofNat width n) = n := by
  rw [toNat_ofNat, Nat.mod_eq_of_lt h]

/-- The number that bytes spell has no more digits than there are bytes. -/
lemma toNat_lt (bytes : Bytes) : toNat bytes < 256 ^ bytes.length := by
  induction bytes using List.reverseRecOn with
  | nil => exact Nat.one_pos
  | append_singleton bytes b ih =>
    have hb := b.toNat_lt
    rw [toNat_append_singleton, List.length_append, List.length_singleton, pow_succ]
    omega

/-- Bytes are what is written of the number that they spell. -/
lemma ofNat_toNat (bytes : Bytes) : ofNat bytes.length (toNat bytes) = bytes := by
  induction bytes using List.reverseRecOn with
  | nil => rfl
  | append_singleton bytes b ih =>
    have hb := b.toNat_lt
    have hlow : UInt8.ofNat (toNat bytes * 256 + b.toNat) = b := by
      rw [← UInt8.toNat_inj, UInt8.toNat_ofNat']
      omega
    rw [toNat_append_singleton, List.length_append, List.length_singleton, ofNat, hlow,
      show (toNat bytes * 256 + b.toNat) / 256 = toNat bytes by omega, ih]

lemma ofNat_one (n : UInt8) : ofNat 1 n.toNat = [n] := by
  rw [ofNat, ofNat, List.nil_append, UInt8.ofNat_toNat]

@[simp] lemma toUInt8_ofNat (n : UInt8) : UInt8.ofNat (toNat (ofNat 1 n.toNat)) = n := by
  rw [toNat_ofNat_of_lt n.toNat_lt, UInt8.ofNat_toNat]

@[simp] lemma toUInt16_ofNat (n : UInt16) : UInt16.ofNat (toNat (ofNat 2 n.toNat)) = n := by
  rw [toNat_ofNat_of_lt n.toNat_lt, UInt16.ofNat_toNat]

@[simp] lemma toUInt32_ofNat (n : UInt32) : UInt32.ofNat (toNat (ofNat 4 n.toNat)) = n := by
  rw [toNat_ofNat_of_lt n.toNat_lt, UInt32.ofNat_toNat]

@[simp] lemma toUInt64_ofNat (n : UInt64) : UInt64.ofNat (toNat (ofNat 8 n.toNat)) = n := by
  rw [toNat_ofNat_of_lt n.toNat_lt, UInt64.ofNat_toNat]

@[simp] lemma toInt8_ofNat (n : Int8) : (UInt8.ofNat (toNat (ofNat 1 n.toUInt8.toNat))).toInt8 = n := by
  rw [toUInt8_ofNat, Int8.toInt8_toUInt8]

@[simp] lemma toInt16_ofNat (n : Int16) : (UInt16.ofNat (toNat (ofNat 2 n.toUInt16.toNat))).toInt16 = n := by
  rw [toUInt16_ofNat, Int16.toInt16_toUInt16]

@[simp] lemma toInt32_ofNat (n : Int32) : (UInt32.ofNat (toNat (ofNat 4 n.toUInt32.toNat))).toInt32 = n := by
  rw [toUInt32_ofNat, Int32.toInt32_toUInt32]

@[simp] lemma toInt64_ofNat (n : Int64) : (UInt64.ofNat (toNat (ofNat 8 n.toUInt64.toNat))).toInt64 = n := by
  rw [toUInt64_ofNat, Int64.toInt64_toUInt64]

end GraphServer.Bytes
