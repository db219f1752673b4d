import GraphServer.Proofs.Text.Canonical

/-!
Byte strings at whose front no character stands.

`Malformed` lists what can be wrong with the first bytes: a continuation byte that leads, an overlong form of two,
three or four bytes, a surrogate, a number above `10FFFF`, a character that is cut off by the end, and one that is
broken off by a byte that continues nothing.

* `encodeChar_spec`: the bounds that the bytes of a character keep;
* `malformed_iff`: **a byte string is malformed exactly when it starts with the encoding of no character**.
-/

namespace GraphServer.Utf8

/-- A byte that goes on with a sequence. -/
def Continues (b : UInt8) : Prop := 0x80 ≤ b ∧ b ≤ 0xBF

/-- What can be wrong with the first bytes of a byte string. -/
inductive Malformed : Bytes → Prop where
  | stray {first : UInt8} (rest : Bytes) : Continues first → Malformed (first :: rest)
  | overlongTwo {first : UInt8} (rest : Bytes) : 0xC0 ≤ first → first ≤ 0xC1 → Malformed (first :: rest)
  | overlongThree {second : UInt8} (rest : Bytes) : second < 0xA0 → Malformed (0xE0 :: second :: rest)
  | overlongFour {second : UInt8} (rest : Bytes) : second < 0x90 → Malformed (0xF0 :: second :: rest)
  | surrogate {second : UInt8} (rest : Bytes) : 0x9F < second → Malformed (0xED :: second :: rest)
  | beyond {second : UInt8} (rest : Bytes) : 0x8F < second → Malformed (0xF4 :: second :: rest)
  | beyondAny {first : UInt8} (rest : Bytes) : 0xF5 ≤ first → Malformed (first :: rest)
  | truncated {bytes : Bytes} (c : Char) : bytes <+: String.utf8EncodeChar c → bytes ≠ String.utf8EncodeChar c →
      Malformed bytes
  | broken {front : Bytes} {next : UInt8} (rest : Bytes) (c : Char) : front ≠ [] →
      front <+: String.utf8EncodeChar c → front ≠ String.utf8EncodeChar c → ¬Continues next →
      Malformed (front ++ next :: rest)

/-! ### The bounds of the bytes of a character -/

/-- A character is in the range of those that have one, two, three or four bytes. -/
lemma char_cases (c : Char) :
    (∃ n, n ≤ 0x7F ∧ c = .ofNat n) ∨
      (∃ x y, 2 ≤ x ∧ x < 32 ∧ y < 64 ∧ c = .ofNat (x * 64 + y)) ∨
      (∃ x y z, x < 16 ∧ (x = 0 → 32 ≤ y) ∧ (x = 13 → y < 32) ∧ y < 64 ∧ z < 64 ∧
        c = .ofNat ((x * 64 + y) * 64 + z)) ∨
      ∃ x y z w, x < 5 ∧ (x = 0 → 16 ≤ y) ∧ (x = 4 → y < 16) ∧ y < 64 ∧ z < 64 ∧ w < 64 ∧
        c = .ofNat (((x * 64 + y) * 64 + z) * 64 + w) := by
  have hvalid : c.val.toNat < 0xD800 ∨ 0xDFFF < c.val.toNat ∧ c.val.toNat < 0x110000 := c.valid
  have hc : Char.ofNat c.val.toNat = c := Char.ofNat_toNat c
  generalize c.val.toNat = v at hvalid hc
  subst hc
  by_cases h1 : v ≤ 0x7F
  · exact .inl ⟨v, h1, rfl⟩
  by_cases h2 : v ≤ 0x7FF
  · exact .inr (.inl ⟨v / 64, v % 64, by omega, by omega, by omega, by rw [Nat.div_add_mod']⟩)
  by_cases h3 : v ≤ 0xFFFF
  · refine .inr (.inr (.inl ⟨v / 4096, v / 64 % 64, v % 64, by omega, by omega, by omega, by omega, by omega, ?_⟩))
    rw [show (v / 4096 * 64 + v / 64 % 64) * 64 + v % 64 = v by omega]
  · refine .inr (.inr (.inr ⟨v / 262144, v / 4096 % 64, v / 64 % 64, v % 64, by omega, by omega, by omega, by omega,
      by omega, by omega, ?_⟩))
    rw [show ((v / 262144 * 64 + v / 4096 % 64) * 64 + v / 64 % 64) * 64 + v % 64 = v by omega]

lemma continues_ofNat {y : Nat} (h : y < 64) : Continues (UInt8.ofNat (y + 0x80)) := by
  rw [Continues, UInt8.le_iff_toNat_le, UInt8.le_iff_toNat_le, toNat_byte (by omega)]
  exact ⟨Nat.le_add_left .., by simp only [UInt8.reduceToNat]; omega⟩

/-- A byte that continues adds six bits. -/
lemma Continues.exists_ofNat {b : UInt8} (h : Continues b) : ∃ y < 64, b = UInt8.ofNat (y + 0x80) := by
  obtain ⟨hlow, hhigh⟩ := h
  rw [UInt8.le_iff_toNat_le] at hlow hhigh
  simp only [UInt8.reduceToNat] at hlow hhigh
  exact ⟨b.toNat - 0x80, by omega, by rw [Nat.sub_add_cancel hlow, UInt8.ofNat_toNat]⟩

/-- How many bytes follow a first byte. -/
def following (first : UInt8) : Nat :=
  if first ≤ 0x7F then 0 else if first ≤ 0xDF then 1 else if first ≤ 0xEF then 2 else 3

/-- The bounds that the bytes of a character keep: those of the first byte, which tells their number, those of the
second byte where the first one narrows them, and those of all that continue. -/
lemma encodeChar_spec (c : Char) :
    ∃ first others, String.utf8EncodeChar c = first :: others ∧ others.length = following first ∧
      (first ≤ 0x7F ∨ 0xC2 ≤ first ∧ first ≤ 0xF4) ∧ (∀ b ∈ others, Continues b) ∧
      (first = 0xE0 → ∃ second last, others = second :: last ∧ 0xA0 ≤ second) ∧
      (first = 0xED → ∃ second last, others = second :: last ∧ second ≤ 0x9F) ∧
      (first = 0xF0 → ∃ second last, others = second :: last ∧ 0x90 ≤ second) ∧
      (first = 0xF4 → ∃ second last, others = second :: last ∧ second ≤ 0x8F) := by
  simp only [following, UInt8.le_iff_toNat_le, ← UInt8.toNat_inj, UInt8.reduceToNat]
  obtain ⟨n, hn, rfl⟩ | ⟨x, y, hlow, hx, hy, rfl⟩ | ⟨x, y, z, hx, hlow, hhigh, hy, hz, rfl⟩ |
    ⟨x, y, z, w, hx, hlow, hhigh, hy, hz, hw, rfl⟩ := char_cases c
  · refine ⟨_, _, encodeChar_one hn, ?_⟩
    rw [toNat_byte (by omega), if_pos hn]
    exact ⟨rfl, .inl hn, List.forall_mem_nil _, by omega, by omega, by omega, by omega⟩
  · refine ⟨_, _, encodeChar_two hlow hx hy, ?_⟩
    rw [toNat_byte (by omega), if_neg (by omega), if_pos (by omega)]
    exact ⟨rfl, .inr (by omega), List.forall_mem_singleton.mpr (continues_ofNat hy), by omega, by omega, by omega,
      by omega⟩
  · refine ⟨_, _, encodeChar_three hx hlow hhigh hy hz, ?_⟩
    have hsecond : (UInt8.ofNat (y + 0x80)).toNat = y + 0x80 := toNat_byte (by omega)
    rw [toNat_byte (by omega), if_neg (by omega), if_neg (by omega), if_pos (by omega)]
    refine ⟨rfl, .inr (by omega), ?_, fun h => ⟨_, _, rfl, by omega⟩, fun h => ⟨_, _, rfl, by omega⟩, by omega,
      by omega⟩
    exact List.forall_mem_cons.mpr ⟨continues_ofNat hy, List.forall_mem_singleton.mpr (continues_ofNat hz)⟩
  · refine ⟨_, _, encodeChar_four hx hlow hhigh hy hz hw, ?_⟩
    have hsecond : (UInt8.ofNat (y + 0x80)).toNat = y + 0x80 := toNat_byte (by omega)
    rw [toNat_byte (by omega), if_neg (by omega), if_neg (by omega), if_neg (by omega)]
    refine ⟨rfl, .inr (by omega), ?_, by omega, by omega, fun h => ⟨_, _, rfl, by omega⟩,
      fun h => ⟨_, _, rfl, by omega⟩⟩
    exact List.forall_mem_cons.mpr ⟨continues_ofNat hy,
      List.forall_mem_cons.mpr ⟨continues_ofNat hz, List.forall_mem_singleton.mpr (continues_ofNat hw)⟩⟩

/-- The encoding of no character starts that of another one. -/
lemma eq_of_encodeChar_prefix {c d : Char} (h : String.utf8EncodeChar c <+: String.utf8EncodeChar d) : c = d := by
  obtain ⟨rest, hrest⟩ := h
  have hd := decodeChars_encodeChar d
  rw [← hrest, decodeChars, decodeFrom_encodeChar] at hd
  obtain ⟨cs, hcs, -⟩ := exists_of_map_cons hd
  exact (List.cons.inj hcs).1.symm

/-- Characters with the same first byte have as many bytes. -/
lemma length_encodeChar_eq {c d : Char} {front : Bytes} (hne : front ≠ []) {bytes : Bytes}
    (hc : String.utf8EncodeChar c <+: front ++ bytes) (hd : front <+: String.utf8EncodeChar d) :
    (String.utf8EncodeChar c).length = (String.utf8EncodeChar d).length := by
  obtain ⟨first, others, hcs, hlen, -⟩ := encodeChar_spec c
  obtain ⟨first', others', hds, hlen', -⟩ := encodeChar_spec d
  obtain ⟨b, front, rfl⟩ := List.exists_cons_of_ne_nil hne
  rw [hcs, List.cons_append, List.cons_prefix_cons] at hc
  rw [hds, List.cons_prefix_cons] at hd
  rw [hcs, hds, List.length_cons, List.length_cons, hlen, hlen', hc.1, hd.1]

/-! ### What is malformed -/

/-- No character stands at the front of what is malformed. -/
lemma Malformed.not_prefix {bytes : Bytes} (h : Malformed bytes) (c : Char) :
    ¬String.utf8EncodeChar c <+: bytes := by
  intro hc
  obtain ⟨first, others, hcs, hlen, hfirst, hothers, hE0, hED, hF0, hF4⟩ := encodeChar_spec c
  cases h with
  | stray rest h =>
    rw [hcs, List.cons_prefix_cons] at hc
    obtain ⟨rfl, -⟩ := hc
    simp only [Continues, UInt8.le_iff_toNat_le, UInt8.reduceToNat] at h hfirst
    omega
  | overlongTwo rest hlow hhigh =>
    rw [hcs, List.cons_prefix_cons] at hc
    obtain ⟨rfl, -⟩ := hc
    simp only [UInt8.le_iff_toNat_le, UInt8.reduceToNat] at hlow hhigh hfirst
    omega
  | overlongThree rest h =>
    rw [hcs, List.cons_prefix_cons] at hc
    obtain ⟨rfl, hc⟩ := hc
    obtain ⟨second, last, rfl, hsecond⟩ := hE0 rfl
    obtain ⟨rfl, -⟩ := List.cons_prefix_cons.mp hc
    exact UInt8.not_lt.mpr hsecond h
  | overlongFour rest h =>
    rw [hcs, List.cons_prefix_cons] at hc
    obtain ⟨rfl, hc⟩ := hc
    obtain ⟨second, last, rfl, hsecond⟩ := hF0 rfl
    obtain ⟨rfl, -⟩ := List.cons_prefix_cons.mp hc
    exact UInt8.not_lt.mpr hsecond h
  | surrogate rest h =>
    rw [hcs, List.cons_prefix_cons] at hc
    obtain ⟨rfl, hc⟩ := hc
    obtain ⟨second, last, rfl, hsecond⟩ := hED rfl
    obtain ⟨rfl, -⟩ := List.cons_prefix_cons.mp hc
    exact UInt8.not_lt.mpr hsecond h
  | beyond rest h =>
    rw [hcs, List.cons_prefix_cons] at hc
    obtain ⟨rfl, hc⟩ := hc
    obtain ⟨second, last, rfl, hsecond⟩ := hF4 rfl
    obtain ⟨rfl, -⟩ := List.cons_prefix_cons.mp hc
    exact UInt8.not_lt.mpr hsecond h
  | beyondAny rest h =>
    rw [hcs, List.cons_prefix_cons] at hc
    obtain ⟨rfl, -⟩ := hc
    simp only [UInt8.le_iff_toNat_le, UInt8.reduceToNat] at h hfirst
    omega
  | truncated d hd hne =>
    obtain rfl := eq_of_encodeChar_prefix (hc.trans hd)
    exact hne (hd.eq_of_length_le hc.length_le)
  | @broken front next rest d hfront hd hne hnext =>
    -- the character would be longer than what stands before the byte that continues nothing, and so hold it
    have hlong : front.length < (String.utf8EncodeChar c).length := by
      rw [length_encodeChar_eq hfront hc hd]
      exact lt_of_le_of_ne hd.length_le fun h => hne (hd.eq_of_length h)
    have hheld : front ++ [next] <+: String.utf8EncodeChar c := by
      refine List.prefix_of_prefix_length_le ⟨rest, by simp⟩ hc ?_
      rw [List.length_append, List.length_singleton]
      exact hlong
    obtain ⟨b, front, rfl⟩ := List.exists_cons_of_ne_nil hfront
    rw [hcs, List.cons_append, List.cons_prefix_cons] at hheld
    exact hnext (hothers next (hheld.2.subset (List.mem_append_right front List.mem_cons_self)))

/-- A first byte that begins no character. -/
lemma malformed_of_refused {first : UInt8} (h : lead first = .refused) (rest : Bytes) : Malformed (first :: rest) := by
  by_cases hstray : Continues first
  · exact .stray rest hstray
  by_cases htwo : 0xC0 ≤ first ∧ first ≤ 0xC1
  · exact .overlongTwo rest htwo.1 htwo.2
  by_cases hbeyond : 0xF5 ≤ first
  · exact .beyondAny rest hbeyond
  rw [lead] at h
  simp only [Continues, UInt8.le_iff_toNat_le, UInt8.lt_iff_toNat_lt, ← UInt8.toNat_inj, UInt8.reduceToNat]
    at hstray htwo hbeyond h
  split_ifs at h <;> omega

/-- Behind a part of a character there is a byte that continues, or else what is there is malformed. -/
lemma malformed_or_continues {front : Bytes} (hne : front ≠ []) {d : Char} {next : UInt8} {last : Bytes}
    (hd : String.utf8EncodeChar d = front ++ next :: last) (tail : Bytes) :
    Malformed (front ++ tail) ∨ ∃ y < 64, ∃ rest, tail = UInt8.ofNat (y + 0x80) :: rest := by
  have hpart : front <+: String.utf8EncodeChar d := hd ▸ List.prefix_append front _
  have hproper : front ≠ String.utf8EncodeChar d := fun h => by
    rw [hd, List.self_eq_append_right] at h
    cases h
  cases tail with
  | nil => exact .inl (.truncated d (by rwa [List.append_nil]) (by rwa [List.append_nil]))
  | cons b rest =>
    by_cases hb : Continues b
    · obtain ⟨y, hy, rfl⟩ := hb.exists_ofNat
      exact .inr ⟨y, hy, rest, rfl⟩
    · exact .inl (.broken rest d hne hpart hproper hb)

lemma malformed_or_two {x : Nat} (hlow : 2 ≤ x) (hx : x < 32) (tail : Bytes) :
    Malformed (UInt8.ofNat (x + 0xC0) :: tail) ∨
      ∃ c, String.utf8EncodeChar c <+: UInt8.ofNat (x + 0xC0) :: tail := by
  obtain h | ⟨y, hy, rest, rfl⟩ := malformed_or_continues (List.cons_ne_nil _ [])
    (encodeChar_two hlow hx (show 0 < 64 by decide)) tail
  · exact .inl h
  · exact .inr ⟨_, rest, by rw [encodeChar_two hlow hx hy]; rfl⟩

lemma malformed_or_three {x : Nat} (hx : x < 16) (tail : Bytes) :
    Malformed (UInt8.ofNat (x + 0xE0) :: tail) ∨
      ∃ c, String.utf8EncodeChar c <+: UInt8.ofNat (x + 0xE0) :: tail := by
  have hz : 0 < 64 := by decide
  obtain h | ⟨y, hy, rest, rfl⟩ := malformed_or_continues (List.cons_ne_nil _ [])
    (encodeChar_three (y := if x = 0 then 32 else 0) hx (by split <;> omega) (by split <;> omega)
      (by split <;> omega) hz) tail
  · exact .inl h
  have hsecond : (UInt8.ofNat (y + 0x80)).toNat = y + 0x80 := toNat_byte (by omega)
  by_cases hlow : x = 0 ∧ y < 32
  · obtain ⟨rfl, hy⟩ := hlow
    exact .inl (.overlongThree rest (by rw [UInt8.lt_iff_toNat_lt, hsecond]; simp only [UInt8.reduceToNat]; omega))
  by_cases hhigh : x = 13 ∧ 32 ≤ y
  · obtain ⟨rfl, hy⟩ := hhigh
    exact .inl (.surrogate rest (by rw [UInt8.lt_iff_toNat_lt, hsecond]; simp only [UInt8.reduceToNat]; omega))
  have hthree {z : Nat} := encodeChar_three (z := z) hx (fun h => by omega) (fun h => by omega) hy
  obtain h | ⟨z, hz, rest, rfl⟩ := malformed_or_continues (List.cons_ne_nil _ [_]) (hthree hz) rest
  · exact .inl h
  · exact .inr ⟨_, rest, by rw [hthree hz]; rfl⟩

lemma malformed_or_four {x : Nat} (hx : x < 5) (tail : Bytes) :
    Malformed (UInt8.ofNat (x + 0xF0) :: tail) ∨
      ∃ c, String.utf8EncodeChar c <+: UInt8.ofNat (x + 0xF0) :: tail := by
  have hw : 0 < 64 := by decide
  obtain h | ⟨y, hy, rest, rfl⟩ := malformed_or_continues (List.cons_ne_nil _ [])
    (encodeChar_four (y := if x = 0 then 16 else 0) hx (by split <;> omega) (by split <;> omega)
      (by split <;> omega) hw hw) tail
  · exact .inl h
  have hsecond : (UInt8.ofNat (y + 0x80)).toNat = y + 0x80 := toNat_byte (by omega)
  by_cases hlow : x = 0 ∧ y < 16
  · obtain ⟨rfl, hy⟩ := hlow
    exact .inl (.overlongFour rest (by rw [UInt8.lt_iff_toNat_lt, hsecond]; simp only [UInt8.reduceToNat]; omega))
  by_cases hhigh : x = 4 ∧ 16 ≤ y
  · obtain ⟨rfl, hy⟩ := hhigh
    exact .inl (.beyond rest (by rw [UInt8.lt_iff_toNat_lt, hsecond]; simp only [UInt8.reduceToNat]; omega))
  have hfour {z w : Nat} := encodeChar_four (z := z) (w := w) hx (fun h => by omega) (fun h => by omega) hy
  obtain h | ⟨z, hz, rest, rfl⟩ := malformed_or_continues (List.cons_ne_nil _ [_]) (hfour hw hw) rest
  · exact .inl h
  obtain h | ⟨w, hw, rest, rfl⟩ := malformed_or_continues (List.cons_ne_nil _ [_, _]) (hfour hz hw) rest
  · exact .inl h
  · exact .inr ⟨_, rest, by rw [hfour hz hw]; rfl⟩

/-- **A byte string is malformed exactly when it starts with the encoding of no character**: what `Malformed` lists is
all that can be wrong. -/
theorem malformed_iff {bytes : Bytes} : Malformed bytes ↔ ∀ c, ¬String.utf8EncodeChar c <+: bytes := by
  refine ⟨fun h c => h.not_prefix c, fun h => ?_⟩
  have either : Malformed bytes ∨ ∃ c, String.utf8EncodeChar c <+: bytes := by
    cases bytes with
    | nil => exact .inl (.truncated 'a' List.nil_prefix (by decide))
    | cons first rest =>
      obtain ⟨n, hn, rfl⟩ | ⟨x, hlow, hx, rfl⟩ | ⟨x, hx, rfl⟩ | ⟨x, hx, rfl⟩ | hrefused := lead_cases first
      · exact .inr ⟨_, rest, by rw [encodeChar_one hn]; rfl⟩
      · exact malformed_or_two hlow hx rest
      · exact malformed_or_three hx rest
      · exact malformed_or_four hx rest
      · exact .inl (malformed_of_refused hrefused rest)
  exact either.resolve_right fun ⟨c, hc⟩ => h c hc

end GraphServer.Utf8
