import GraphServer.Proofs.Text.Utf8

/-!
Only what is written is read as UTF-8: a byte string that is read as a text is the encoding of that text.

A byte leads a sequence of one, two, three or four bytes, or none at all (`lead_cases`), and a byte that goes
on with a sequence lies within the bounds that its lead byte announced (`decodeFrom_some`). The bounds leave
one spelling for each character, so that the bytes taken for a character are those that it is written with.

* `exists_encodeChar_append`: what is read starts with the encoding of its first character;
* `encode_of_decode`: **bytes that are read as a text are its encoding**.
-/

namespace GraphServer.Utf8

/-! ### The bytes of a character in its range -/

lemma val_ofNat {v : Nat} (h : v < 0xD800 ∨ 0xDFFF < v ∧ v < 0x110000) : (Char.ofNat v).val.toNat = v := by
  have hvalid : v.isValidChar := h
  rw [Char.ofNat, dif_pos hvalid]
  rfl

lemma encodeChar_one {v : Nat} (h : v ≤ 0x7F) : String.utf8EncodeChar (Char.ofNat v) = [UInt8.ofNat v] := by
  rw [String.utf8EncodeChar]
  simp only [val_ofNat (v := v) (by omega)]
  rw [if_pos h]

lemma encodeChar_two {x y : Nat} (hlow : 2 ≤ x) (hx : x < 32) (hy : y < 64) :
    String.utf8EncodeChar (Char.ofNat (x * 64 + y)) = [UInt8.ofNat (x + 0xC0), UInt8.ofNat (y + 0x80)] := by
  rw [String.utf8EncodeChar]
  simp only [val_ofNat (v := x * 64 + y) (by omega)]
  rw [if_neg (by omega), if_pos (by omega), show (x * 64 + y) / 64 % 32 = x by omega,
    show (x * 64 + y) % 64 = y by omega]

/-- Three bytes, of a character that does not fit two and is no surrogate. -/
lemma encodeChar_three {x y z : Nat} (hx : x < 16) (hlow : x = 0 → 32 ≤ y) (hhigh : x = 13 → y < 32)
    (hy : y < 64) (hz : z < 64) :
    String.utf8EncodeChar (Char.ofNat ((x * 64 + y) * 64 + z)) =
      [UInt8.ofNat (x + 0xE0), UInt8.ofNat (y + 0x80), UInt8.ofNat (z + 0x80)] := by
  rw [String.utf8EncodeChar]
  simp only [val_ofNat (v := (x * 64 + y) * 64 + z) (by omega)]
  rw [if_neg (by omega), if_neg (by omega), if_pos (by omega),
    show ((x * 64 + y) * 64 + z) / 4096 % 16 = x by omega,
    show ((x * 64 + y) * 64 + z) / 64 % 64 = y by omega, show ((x * 64 + y) * 64 + z) % 64 = z by omega]

/-- Four bytes, of a character that does not fit three and is at most `10FFFF`. -/
lemma encodeChar_four {x y z w : Nat} (hx : x < 5) (hlow : x = 0 → 16 ≤ y) (hhigh : x = 4 → y < 16)
    (hy : y < 64) (hz : z < 64) (hw : w < 64) :
    String.utf8EncodeChar (Char.ofNat (((x * 64 + y) * 64 + z) * 64 + w)) =
      [UInt8.ofNat (x + 0xF0), UInt8.ofNat (y + 0x80), UInt8.ofNat (z + 0x80), UInt8.ofNat (w + 0x80)] := by
  rw [String.utf8EncodeChar]
  simp only [val_ofNat (v := ((x * 64 + y) * 64 + z) * 64 + w) (by omega)]
  rw [if_neg (by omega), if_neg (by omega), if_neg (by omega),
    show (((x * 64 + y) * 64 + z) * 64 + w) / 262144 % 8 = x by omega,
    show (((x * 64 + y) * 64 + z) * 64 + w) / 4096 % 64 = y by omega,
    show (((x * 64 + y) * 64 + z) * 64 + w) / 64 % 64 = z by omega,
    show (((x * 64 + y) * 64 + z) * 64 + w) % 64 = w by omega]

/-! ### One byte at a time -/

/-- A byte leads a sequence of one, two, three or four bytes, or it is refused. -/
lemma lead_cases (b : UInt8) :
    (∃ n, n ≤ 0x7F ∧ b = UInt8.ofNat n) ∨ (∃ x, 2 ≤ x ∧ x < 32 ∧ b = UInt8.ofNat (x + 0xC0)) ∨
      (∃ x, x < 16 ∧ b = UInt8.ofNat (x + 0xE0)) ∨ (∃ x, x < 5 ∧ b = UInt8.ofNat (x + 0xF0)) ∨
      lead b = .refused := by
  have hb : b = UInt8.ofNat b.toNat := (UInt8.ofNat_toNat).symm
  have hlt := b.toNat_lt
  generalize b.toNat = n at hb hlt
  subst hb
  by_cases h1 : n ≤ 0x7F
  · exact .inl ⟨n, h1, rfl⟩
  by_cases h2 : 0xC2 ≤ n ∧ n ≤ 0xDF
  · exact .inr (.inl ⟨n - 0xC0, by omega, by omega, by rw [Nat.sub_add_cancel (by omega)]⟩)
  by_cases h3 : 0xE0 ≤ n ∧ n ≤ 0xEF
  · exact .inr (.inr (.inl ⟨n - 0xE0, by omega, by rw [Nat.sub_add_cancel (by omega)]⟩))
  by_cases h4 : 0xF0 ≤ n ∧ n ≤ 0xF4
  · exact .inr (.inr (.inr (.inl ⟨n - 0xF0, by omega, by rw [Nat.sub_add_cancel (by omega)]⟩)))
  refine .inr (.inr (.inr (.inr ?_)))
  have hbyte : (UInt8.ofNat n).toNat = n := toNat_byte (by omega)
  simp only [lead, UInt8.le_iff_toNat_le, UInt8.lt_iff_toNat_lt, ← UInt8.toNat_inj, hbyte, UInt8.reduceToNat]
  by_cases h5 : n < 0xC2
  · rw [if_neg h1, if_pos h5]
  · rw [if_neg h1, if_neg h5, if_neg (by omega), if_neg (by omega), if_neg (by omega), if_neg (by omega),
      if_neg (by omega), if_neg (by omega), if_neg (by omega)]

/-- A sequence under way goes on with a byte within its bounds. -/
lemma decodeFrom_some {start : Nat} {p : Pending} {bytes : Bytes} {cs : List Char} (hlow : 0x80 ≤ p.low.toNat)
    (h : decodeFrom start (some p) bytes = .ok cs) :
    ∃ y rest, bytes = UInt8.ofNat (y + 0x80) :: rest ∧ p.low.toNat ≤ y + 0x80 ∧ y + 0x80 ≤ p.high.toNat ∧
      decodeFrom start (some p) (UInt8.ofNat (y + 0x80) :: rest) = .ok cs := by
  cases bytes with
  | nil => cases h
  | cons b rest =>
    have hbounds : p.low ≤ b ∧ b ≤ p.high := by
      by_contra hout
      rw [decodeFrom, if_neg hout] at h
      cases h
    obtain ⟨hlo, hhi⟩ := hbounds
    rw [UInt8.le_iff_toNat_le] at hlo hhi
    have hb : UInt8.ofNat (b.toNat - 0x80 + 0x80) = b := by
      rw [Nat.sub_add_cancel (by omega), UInt8.ofNat_toNat]
    exact ⟨b.toNat - 0x80, rest, by rw [hb], by omega, by omega, by rw [hb]; exact h⟩

lemma exists_of_map_cons {c : Char} {r : Except Fault (List Char)} {cs : List Char}
    (h : (c :: ·) <$> r = .ok cs) : ∃ cs', cs = c :: cs' ∧ r = .ok cs' := by
  cases r with
  | error f => cases h
  | ok cs' => exact ⟨cs', (Except.ok.inj h).symm, rfl⟩

/-! ### One character at a time -/

/-- The last byte of a sequence completes its character. -/
lemma exists_last {start bits seen : Nat} {low high : UInt8} {bytes : Bytes} {cs : List Char}
    (hlow : 0x80 ≤ low.toNat) (h : decodeFrom start (some ⟨low, high, 0, seen, bits⟩) bytes = .ok cs) :
    ∃ y rest cs', bytes = UInt8.ofNat (y + 0x80) :: rest ∧ low.toNat ≤ y + 0x80 ∧ y + 0x80 ≤ high.toNat ∧
      cs = Char.ofNat (bits * 64 + y) :: cs' ∧ decodeFrom (start + (seen + 1)) none rest = .ok cs' := by
  obtain ⟨y, rest, rfl, hlo, hhi, hy⟩ := decodeFrom_some hlow h
  rw [decodeFrom_continue hlo hhi, if_pos rfl] at hy
  obtain ⟨cs', rfl, hrest⟩ := exists_of_map_cons hy
  exact ⟨y, rest, cs', rfl, hlo, hhi, rfl, hrest⟩

/-- A byte that is not the last one leaves a shorter sequence under way. -/
lemma exists_next {start bits seen owed : Nat} {low high : UInt8} {bytes : Bytes} {cs : List Char}
    (hlow : 0x80 ≤ low.toNat)
    (h : decodeFrom start (some ⟨low, high, owed + 1, seen, bits⟩) bytes = .ok cs) :
    ∃ y rest, bytes = UInt8.ofNat (y + 0x80) :: rest ∧ low.toNat ≤ y + 0x80 ∧ y + 0x80 ≤ high.toNat ∧
      decodeFrom start (some ⟨0x80, 0xBF, owed, seen + 1, bits * 64 + y⟩) rest = .ok cs := by
  obtain ⟨y, rest, rfl, hlo, hhi, hy⟩ := decodeFrom_some hlow h
  rw [decodeFrom_continue hlo hhi, if_neg (Nat.succ_ne_zero owed)] at hy
  exact ⟨y, rest, rfl, hlo, hhi, hy⟩

/-- What is read starts with the encoding of its first character. -/
lemma exists_encodeChar_append {start : Nat} {b : UInt8} {bytes : Bytes} {cs : List Char}
    (h : decodeFrom start none (b :: bytes) = .ok cs) :
    ∃ c cs' start' rest, cs = c :: cs' ∧ b :: bytes = String.utf8EncodeChar c ++ rest ∧
      decodeFrom start' none rest = .ok cs' := by
  rw [decodeFrom] at h
  obtain ⟨n, hn, rfl⟩ | ⟨x, hx, hx', rfl⟩ | ⟨x, hx, rfl⟩ | ⟨x, hx, rfl⟩ | hrefused := lead_cases b
  · simp only [lead_one hn] at h
    obtain ⟨cs', rfl, hrest⟩ := exists_of_map_cons h
    exact ⟨_, cs', _, bytes, rfl, by rw [encodeChar_one hn]; rfl, hrest⟩
  · simp only [lead_two hx hx'] at h
    obtain ⟨y, rest, cs', rfl, hlo, hhi, rfl, hrest⟩ := exists_last (by decide) h
    simp only [UInt8.reduceToNat] at hlo hhi
    exact ⟨_, cs', _, rest, rfl, by rw [encodeChar_two hx hx' (by omega)]; rfl, hrest⟩
  · simp only [lead_three hx] at h
    obtain ⟨y, rest₁, rfl, hlo, hhi, h⟩ := exists_next (by split <;> decide) h
    obtain ⟨z, rest, cs', rfl, hzlo, hzhi, rfl, hrest⟩ := exists_last (by decide) h
    simp only [UInt8.reduceToNat] at hzlo hzhi
    have hlow : x = 0 → 32 ≤ y := fun hx => by
      simp only [if_pos hx, UInt8.reduceToNat] at hlo
      omega
    have hhigh : x = 13 → y < 32 := fun hx => by
      simp only [if_pos hx, UInt8.reduceToNat] at hhi
      omega
    have hy : y < 64 := by
      split at hhi <;> simp only [UInt8.reduceToNat] at hhi <;> omega
    exact ⟨_, cs', _, rest, rfl, by rw [encodeChar_three hx hlow hhigh hy (by omega)]; rfl, hrest⟩
  · simp only [lead_four hx] at h
    obtain ⟨y, rest₁, rfl, hlo, hhi, h⟩ := exists_next (by split <;> decide) h
    obtain ⟨z, rest₂, rfl, hzlo, hzhi, h⟩ := exists_next (by decide) h
    obtain ⟨w, rest, cs', rfl, hwlo, hwhi, rfl, hrest⟩ := exists_last (by decide) h
    simp only [UInt8.reduceToNat] at hzlo hzhi hwlo hwhi
    have hlow : x = 0 → 16 ≤ y := fun hx => by
      simp only [if_pos hx, UInt8.reduceToNat] at hlo
      omega
    have hhigh : x = 4 → y < 16 := fun hx => by
      simp only [if_pos hx, UInt8.reduceToNat] at hhi
      omega
    have hy : y < 64 := by
      split at hhi <;> simp only [UInt8.reduceToNat] at hhi <;> omega
    exact ⟨_, cs', _, rest, rfl, by rw [encodeChar_four hx hlow hhigh hy (by omega) (by omega)]; rfl, hrest⟩
  · simp only [hrefused] at h
    cases h

/-! ### Texts -/

/-- By induction on the characters, each of which takes the bytes that it is written with. -/
lemma flatMap_of_decodeFrom {start : Nat} {bytes : Bytes} {cs : List Char}
    (h : decodeFrom start none bytes = .ok cs) : cs.flatMap String.utf8EncodeChar = bytes := by
  induction cs generalizing start bytes with
  | nil =>
    cases bytes with
    | nil => rfl
    | cons b bytes =>
      obtain ⟨c, cs', _, _, hcs, _⟩ := exists_encodeChar_append h
      cases hcs
  | cons c cs ih =>
    cases bytes with
    | nil => cases h
    | cons b bytes =>
      obtain ⟨c', cs', start', rest, hcs, hbytes, hrest⟩ := exists_encodeChar_append h
      obtain ⟨rfl, rfl⟩ := List.cons.inj hcs
      rw [List.flatMap_cons, ih hrest, hbytes]

/-- **Bytes that are read as a text are its encoding.** -/
theorem encode_of_decode {bytes : Bytes} {text : String} (h : decode bytes = .ok text) :
    encode text = bytes := by
  rw [decode] at h
  cases hchars : decodeChars bytes with
  | error f =>
    rw [hchars] at h
    cases h
  | ok cs =>
    rw [hchars] at h
    obtain rfl : String.ofList cs = text := Except.ok.inj h
    rw [encode, String.toList_ofList]
    exact flatMap_of_decodeFrom hchars

end GraphServer.Utf8
