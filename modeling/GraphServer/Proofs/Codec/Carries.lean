import GraphServer.Codec.Scalar
import GraphServer.Proofs.Text.Utf8
import GraphServer.Proofs.Words

/-!
Encodings beside the readers that undo them.

`Encoding.Carries enc d fits x e` says that the encoding does not give up and that the reader `d`, on its
bytes and whatever follows them, yields `x` and stops behind the bytes if `fits` holds, and fails with `e`
if it does not. One encoding after the other is read by one reader after the other, and fits when both do
(`Encoding.Carries.bind`), so that the serializers of composite values need no argument of their own.

* `Encoding.carries_int` and so on: numbers, identifiers, texts and characters, which always fit;
* `Encoding.Carries.length_bind`: a count, which is held against the bytes that follow it;
* `Encoding.carries_each`: as many items as were written.
-/

namespace GraphServer

/-! ### Readers on the bytes in front of them -/

namespace Decode

variable {α β : Type}

/-- Reading takes exactly these bytes, whatever follows them. -/
def Reads (d : Decode α) (bytes : Bytes) (x : α) : Prop :=
  ∀ position rest, d ⟨position, bytes ++ rest⟩ = .ok x ⟨position + bytes.length, rest⟩

/-- Reading fails on whatever starts with these bytes. -/
def Refuses (d : Decode α) (bytes : Bytes) (e : Error) : Prop :=
  ∀ position rest, ∃ c, d ⟨position, bytes ++ rest⟩ = .error e c

/-- Reading takes the bytes if they fit and fails if they do not. -/
structure Answers (d : Decode α) (bytes : Bytes) (fits : Prop) (x : α) (e : Error) : Prop where
  reads : fits → d.Reads bytes x
  refuses : ¬fits → d.Refuses bytes e

lemma Reads.answers {d : Decode α} {bytes : Bytes} {x : α} (h : d.Reads bytes x) (e : Error) :
    d.Answers bytes True x e :=
  ⟨fun _ => h, fun hn => absurd trivial hn⟩

lemma reads_pure (x : α) : (pure x : Decode α).Reads [] x := fun _ _ => rfl

lemma Answers.bind {d : Decode α} {f : α → Decode β} {a b : Bytes} {p q : Prop} {x : α} {y : β} {e : Error}
    (ha : d.Answers a p x e) (hb : (f x).Answers b q y e) : (d >>= f).Answers (a ++ b) (p ∧ q) y e where
  reads h position rest := by
    change EStateM.bind d f _ = _
    rw [List.append_assoc, EStateM.bind, ha.reads h.1]
    change f x _ = _
    rw [hb.reads h.2, List.length_append, Nat.add_assoc]
  refuses h position rest := by
    change ∃ c, EStateM.bind d f _ = _
    rw [List.append_assoc, EStateM.bind]
    by_cases hp : p
    · rw [ha.reads hp]
      exact hb.refuses (fun hq => h ⟨hp, hq⟩) _ rest
    · obtain ⟨c, hc⟩ := ha.refuses hp position (b ++ rest)
      rw [hc]
      exact ⟨c, rfl⟩

lemma Answers.congr {d : Decode α} {bytes : Bytes} {p q : Prop} {x : α} {e : Error} (h : d.Answers bytes p x e)
    (hpq : p ↔ q) : d.Answers bytes q x e :=
  ⟨fun hq => h.reads (hpq.mpr hq), fun hq => h.refuses fun hp => hq (hpq.mp hp)⟩

/-! ### Fixed numbers of bytes -/

lemma reads_take (op : BufferOp) (bytes : Bytes) : (take op bytes.length).Reads bytes bytes := by
  intro position rest
  rw [take, splitExactly?_eq, if_pos (by simp), List.take_left' rfl, List.drop_left' rfl]

/-- A number of fixed width, read as a function of its bytes. -/
lemma reads_number (op : BufferOp) (width n : Nat) (f : Nat → α) :
    (f <$> number op width).Reads (Bytes.ofNat width n) (f (Bytes.toNat (Bytes.ofNat width n))) := by
  intro position rest
  have h := reads_take op (Bytes.ofNat width n) position rest
  rw [Bytes.length_ofNat] at h
  change EStateM.map f (EStateM.map Bytes.toNat (take op width)) _ = _
  rw [EStateM.map, EStateM.map, h, Bytes.length_ofNat]

end Decode

/-! ### Encodings and their readers -/

namespace Encoding

variable {α β : Type}

lemma error?_append {a : Encoding} (h : a.error? = none) (b : Encoding) : (a ++ b).error? = b.error? := by
  change (append a b).error? = _
  rw [append, h]

lemma bytes_append {a : Encoding} (h : a.error? = none) (b : Encoding) :
    (a ++ b).bytes = a.bytes ++ b.bytes := by
  change (append a b).bytes = _
  rw [append, h]
  exact List.flatten_append

@[simp] lemma bytes_chunk (bytes : Bytes) : (chunk bytes).bytes = bytes :=
  List.flatten_singleton

/-- The encoding is written whole, and a reader takes it if it fits. -/
structure Carries (enc : Encoding) (d : Decode α) (fits : Prop) (x : α) (e : Error) : Prop where
  written : enc.error? = none
  answers : d.Answers enc.bytes fits x e

section Carries

variable {a b : Encoding} {d : Decode α} {f : α → Decode β} {p q : Prop} {x : α} {y : β} {e : Error}

lemma Carries.bind (ha : a.Carries d p x e) (hb : b.Carries (f x) q y e) :
    (a ++ b).Carries (d >>= f) (p ∧ q) y e where
  written := (error?_append ha.written b).trans hb.written
  answers := by
    rw [bytes_append ha.written]
    exact ha.answers.bind hb.answers

lemma Carries.congr (h : a.Carries d p x e) (hpq : p ↔ q) : a.Carries d q x e :=
  ⟨h.written, h.answers.congr hpq⟩

lemma carries_pure (x : α) (e : Error) : empty.Carries (pure x) True x e :=
  ⟨rfl, (Decode.reads_pure x).answers e⟩

/-- The last part of a composite value. -/
lemma Carries.bind_pure (ha : a.Carries d p x e) (g : α → β) :
    a.Carries (d >>= fun x => pure (g x)) p (g x) e := by
  have h := ha.bind (f := fun x => pure (g x)) (carries_pure (g x) e)
  rw [append_empty] at h
  exact h.congr (and_iff_left trivial)

lemma Carries.map (ha : a.Carries d p x e) (g : α → β) : a.Carries (g <$> d) p (g x) e := by
  rw [map_eq_pure_bind]
  exact ha.bind_pure g

lemma Carries.length_bytes (ha : a.Carries d p x e) (b : Encoding) :
    (a ++ b).bytes.length = a.bytes.length + b.bytes.length := by
  rw [bytes_append ha.written, List.length_append]

/-- A part that always fits, before the rest. -/
lemma Carries.bind_of_true (ha : a.Carries d True x e) (hb : b.Carries (f x) q y e) :
    (a ++ b).Carries (d >>= f) q y e :=
  (ha.bind hb).congr (and_iff_right trivial)

lemma carries_chunk {bytes : Bytes} (h : d.Reads bytes x) (e : Error) : (chunk bytes).Carries d True x e :=
  ⟨rfl, by rw [bytes_chunk]; exact h.answers e⟩

end Carries

/-! ### Numbers -/

lemma carries_u8 (n : UInt8) (e : Error) : (u8 n).Carries Decode.u8 True n e := by
  have h := Decode.reads_number .readU8 1 n.toNat UInt8.ofNat
  rw [Bytes.toUInt8_ofNat] at h
  exact carries_chunk h e

lemma carries_bool (b : Bool) (e : Error) : (bool b).Carries Decode.bool True b e := by
  have h := Decode.reads_number .readBool 1 (if b then (1 : UInt8) else 0).toNat fun n => decide (n ≠ 0)
  have hb : decide (Bytes.toNat (Bytes.ofNat 1 (if b then (1 : UInt8) else 0).toNat) ≠ 0) = b := by
    cases b <;> rfl
  rw [hb] at h
  exact carries_chunk h e

lemma carries_byte (n : Int8) (e : Error) : (byte n).Carries Decode.byte True n e := by
  have h := Decode.reads_number .readByte 1 n.toUInt8.toNat fun n => (UInt8.ofNat n).toInt8
  rw [Bytes.toInt8_ofNat] at h
  exact carries_chunk h e

lemma carries_short (n : Int16) (e : Error) : (short n).Carries Decode.short True n e := by
  have h := Decode.reads_number .readShort 2 n.toUInt16.toNat fun n => (UInt16.ofNat n).toInt16
  rw [Bytes.toInt16_ofNat] at h
  exact carries_chunk h e

lemma carries_int (n : Int32) (e : Error) : (int n).Carries Decode.int True n e := by
  have h := Decode.reads_number .readInt 4 n.toUInt32.toNat fun n => (UInt32.ofNat n).toInt32
  rw [Bytes.toInt32_ofNat] at h
  exact carries_chunk h e

lemma carries_long (n : Int64) (e : Error) : (long n).Carries Decode.long True n e := by
  have h := Decode.reads_number .readLong 8 n.toUInt64.toNat fun n => (UInt64.ofNat n).toInt64
  rw [Bytes.toInt64_ofNat] at h
  exact carries_chunk h e

lemma carries_float (bits : UInt32) (e : Error) : (float bits).Carries Decode.float True bits e := by
  have h := Decode.reads_number .readFloat 4 bits.toNat UInt32.ofNat
  rw [Bytes.toUInt32_ofNat] at h
  exact carries_chunk h e

lemma carries_double (bits : UInt64) (e : Error) : (double bits).Carries Decode.double True bits e := by
  have h := Decode.reads_number .readDouble 8 bits.toNat UInt64.ofNat
  rw [Bytes.toUInt64_ofNat] at h
  exact carries_chunk h e

lemma carries_half (n : UInt64) (e : Error) :
    (chunk (Bytes.ofNat 8 n.toNat)).Carries (Decode.number .readLong 8) True n.toNat e := by
  have h := Decode.reads_number .readLong 8 n.toNat fun n => n
  rw [id_map', Bytes.toNat_ofNat_of_lt n.toNat_lt] at h
  exact carries_chunk h e

lemma carries_uuid (id : Uuid) (e : Error) : (uuid id).Carries Decode.uuid True id e := by
  have h : (uuid id).Carries Decode.uuid True ⟨UInt64.ofNat id.hi.toNat, UInt64.ofNat id.lo.toNat⟩ e :=
    (carries_half id.hi e).bind_of_true ((carries_half id.lo e).bind_pure _)
  rwa [UInt64.ofNat_toNat, UInt64.ofNat_toNat] at h

/-! ### Counts, texts and characters -/

lemma toInt_ofNat_of_le {n : Nat} (h : n ≤ maxLength) : (UInt32.ofNat n).toInt32.toInt = n := by
  rw [maxLength] at h
  have htoNat : (UInt32.ofNat n).toNat = n := by
    rw [UInt32.toNat_ofNat', Nat.mod_eq_of_lt (by omega)]
  change (UInt32.ofNat n).toBitVec.toInt = n
  rw [BitVec.toInt_eq_toNat_of_lt]
  · exact congrArg Nat.cast htoNat
  · change 2 * (UInt32.ofNat n).toNat < 2 ^ 32
    omega

/-- A count is held against what follows it. -/
lemma decode_count {widths : Widths} {what : Counted} {n : Nat} (h : n ≤ maxLength) (tail : Bytes) (position : Nat) :
    Decode.length widths what ⟨position, Bytes.ofNat 4 n ++ tail⟩ =
      (if tail.length < n * widths what then Decode.fault (.lengthExceedsInput what n tail.length) else pure n : Decode Nat)
        ⟨position + 4, tail⟩ := by
  have hn : Bytes.toNat (Bytes.ofNat 4 n) = n := by
    refine Bytes.toNat_ofNat_of_lt ?_
    rw [maxLength] at h
    omega
  have hint : Decode.int ⟨position, Bytes.ofNat 4 n ++ tail⟩ =
      .ok (UInt32.ofNat n).toInt32 ⟨position + 4, tail⟩ := by
    have h := Decode.reads_number .readInt 4 n (fun n => (UInt32.ofNat n).toInt32) position tail
    rwa [hn, Bytes.length_ofNat] at h
  have htoInt := toInt_ofNat_of_le h
  have hnonneg : ¬(UInt32.ofNat n).toInt32 < 0 := by
    rw [Int32.lt_iff_toInt_lt, htoInt]
    simp
  rw [Decode.length]
  change EStateM.bind Decode.int _ _ = _
  rw [EStateM.bind, hint]
  simp only [if_neg hnonneg, htoInt, Int.toNat_natCast]
  rfl

/-- A count is read if what follows it is long enough. -/
lemma decode_length {widths : Widths} {what : Counted} {n : Nat} (h : n ≤ maxLength) {tail : Bytes}
    (long : n * widths what ≤ tail.length) (position : Nat) :
    Decode.length widths what ⟨position, Bytes.ofNat 4 n ++ tail⟩ = .ok n ⟨position + 4, tail⟩ := by
  rw [decode_count h, if_neg (Nat.not_lt.mpr long)]
  rfl

/-- A count before the items that it counts, each of which has at least its width. -/
lemma Carries.length_bind {widths : Widths} {what : Counted} {n : Nat} {items : Encoding} {f : Nat → Decode α}
    {p : Prop} {x : α} {e : Error} (h : n ≤ maxLength) (long : n * widths what ≤ items.bytes.length)
    (hitems : items.Carries (f n) p x e) :
    (length n ++ items).Carries (Decode.length widths what >>= f) p x e := by
  have hwritten : (length n).error? = none := by
    rw [length, if_pos h]
    rfl
  have hbytes : (length n).bytes = Bytes.ofNat 4 n := by
    rw [length, if_pos h, bytes_chunk]
  have hstep : ∀ position rest,
      (Decode.length widths what >>= f) ⟨position, (length n ++ items).bytes ++ rest⟩ =
        f n ⟨position + 4, items.bytes ++ rest⟩ := by
    intro position rest
    have hroom : n * widths what ≤ (items.bytes ++ rest).length := by
      rw [List.length_append]
      omega
    have hlen := decode_length h hroom position
    change EStateM.bind _ f _ = _
    rw [bytes_append hwritten, hbytes, List.append_assoc, EStateM.bind, hlen]
  refine ⟨(error?_append hwritten items).trans hitems.written, fun hp position rest => ?_, fun hp position rest => ?_⟩
  · rw [hstep, hitems.answers.reads hp, bytes_append hwritten, hbytes, List.length_append, Bytes.length_ofNat,
      Nat.add_assoc]
  · rw [hstep]
    exact hitems.answers.refuses hp _ rest

lemma carries_string {widths : Widths} (h1 : widths .string = 1) {text : String}
    (h : (Utf8.encode text).length ≤ maxLength) (e : Error) :
    (string text).Carries (Decode.string widths) True text e := by
  refine Carries.length_bind h (by rw [bytes_chunk, h1, Nat.mul_one]) ?_
  have hbytes := carries_chunk (Decode.reads_take .readVec (Utf8.encode text)) e
  rw [← append_empty (chunk (Utf8.encode text))]
  refine (hbytes.bind (q := True) ?_).congr (and_iff_left trivial)
  simp only [Utf8.decode_encode]
  exact carries_pure text e

/-- The first byte of a character tells how many follow it. -/
lemma exists_encodeChar (c : Char) :
    ∃ first others, String.utf8EncodeChar c = first :: others ∧
      Decode.charWidth? first = some (others.length + 1) := by
  have hvalid : c.val.toNat < 0xD800 ∨ 0xDFFF < c.val.toNat ∧ c.val.toNat < 0x110000 := c.valid
  generalize hv : c.val.toNat = v at hvalid
  rw [String.utf8EncodeChar]
  simp only [hv]
  -- each range of characters has its own range of first bytes
  have width (n : Nat) (h : n < 256) : Decode.charWidth? (UInt8.ofNat n) =
      if n ≤ 0x7F then some 1 else if n < 0xC0 then none else if n ≤ 0xDF then some 2
        else if n ≤ 0xEF then some 3 else if n ≤ 0xF7 then some 4 else none := by
    simp only [Decode.charWidth?, UInt8.le_iff_toNat_le, UInt8.lt_iff_toNat_lt, Utf8.toNat_byte h,
      UInt8.reduceToNat]
  by_cases h1 : v ≤ 0x7f
  · rw [if_pos h1]
    exact ⟨_, _, rfl, by rw [width v (by omega), if_pos h1]; rfl⟩
  by_cases h2 : v ≤ 0x7ff
  · rw [if_neg h1, if_pos h2]
    refine ⟨_, _, rfl, ?_⟩
    rw [width _ (by omega), if_neg (by omega), if_neg (by omega), if_pos (by omega)]
    rfl
  by_cases h3 : v ≤ 0xffff
  · rw [if_neg h1, if_neg h2, if_pos h3]
    refine ⟨_, _, rfl, ?_⟩
    rw [width _ (by omega), if_neg (by omega), if_neg (by omega), if_neg (by omega), if_pos (by omega)]
    rfl
  · rw [if_neg h1, if_neg h2, if_neg h3]
    refine ⟨_, _, rfl, ?_⟩
    rw [width _ (by omega), if_neg (by omega), if_neg (by omega), if_neg (by omega), if_neg (by omega),
      if_pos (by omega)]
    rfl

lemma carries_char (c : Char) (e : Error) : (char c).Carries Decode.char True c e := by
  obtain ⟨first, others, hc, hwidth⟩ := exists_encodeChar c
  have hfirst : Decode.u8.Answers [first] True first e := by
    have h := (carries_u8 first e).answers
    rwa [u8, bytes_chunk, Bytes.ofNat_one] at h
  have hothers : (Decode.take .readBytes others.length).Answers others True others e :=
    (Decode.reads_take .readBytes others).answers e
  have hdecode : Utf8.decodeChars (first :: others) = .ok [c] := by
    rw [← hc]
    exact Utf8.decodeChars_encodeChar c
  refine ⟨rfl, ?_⟩
  rw [char, bytes_chunk, hc, ← List.append_nil (first :: others), List.cons_append,
    ← List.singleton_append, Decode.char]
  refine (hfirst.bind (q := True) ?_).congr (and_iff_left trivial)
  simp only [hwidth]
  refine (hothers.bind (q := True) ?_).congr (and_iff_left trivial)
  simp only [hdecode]
  exact (Decode.reads_pure c).answers e

/-! ### Sequences -/

/-- Items one after the other are read one after the other. -/
lemma carries_each {γ : Type} {d : Decode β} {write : γ → Encoding} {p : γ → Prop} {g : γ → β} {e : Error}
    (items : List γ) (h : ∀ x ∈ items, (write x).Carries d (p x) (g x) e) :
    (each items write).Carries (Decode.times items.length d) (∀ x ∈ items, p x) (items.map g) e := by
  induction items with
  | nil => exact (carries_pure [] e).congr (by simp)
  | cons x xs ih =>
    have hx := h x (List.mem_cons_self ..)
    have hxs := ih fun y hy => h y (List.mem_cons_of_mem _ hy)
    have step := hx.bind (f := fun x => Decode.times xs.length d >>= fun xs => pure (x :: xs))
      (hxs.bind_pure fun ys => g x :: ys)
    exact step.congr (by simp)

lemma length_each {γ : Type} {width : Nat} {write : γ → Encoding} (items : List γ)
    (h : ∀ x ∈ items, (write x).error? = none ∧ width ≤ (write x).bytes.length) :
    items.length * width ≤ (each items write).bytes.length := by
  induction items with
  | nil => simp
  | cons x xs ih =>
    obtain ⟨hwritten, hwidth⟩ := h x (List.mem_cons_self ..)
    have hxs := ih fun y hy => h y (List.mem_cons_of_mem _ hy)
    change _ ≤ (write x ++ each xs write).bytes.length
    rw [bytes_append hwritten, List.length_append, List.length_cons, Nat.succ_mul]
    omega

end Encoding

end GraphServer
