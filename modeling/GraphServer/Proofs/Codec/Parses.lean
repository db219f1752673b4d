import GraphServer.Proofs.Codec.Carries
import GraphServer.Proofs.Codec.Form
import GraphServer.Proofs.Codec.Written
import GraphServer.Proofs.Codec.Yields

/-!
Readers and the forms that they recognise.

`Decode.Parses d p` says that `d` takes the spellings of the form `p` from the front of the unread bytes and
nothing else: whatever follows a spelling, it is read and left behind, and whatever is read is a spelling.

* `Decode.Parses.bind`: one reader after the other recognises one form after the other;
* `Decode.parses_int` and so on, `Decode.parses_string`, `Decode.parses_char`: **numbers, identifiers, texts and
  characters are recognised exactly as they are written**;
* `Decode.parses_counted`: items behind their count. The count is held against the bytes that are left, and yet this
  does not show, because each item has at least the width by which it is counted.
-/

namespace GraphServer

namespace Decode

variable {α β : Type}

/-- The reader takes the spellings of the form from the front, and nothing else. -/
structure Parses (d : Decode α) (p : Form α) : Prop where
  reads : ∀ {bytes x}, p bytes x → d.Reads bytes x
  sound : ∀ {c x c'}, d c = .ok x c' →
    ∃ used, c.rest = used ++ c'.rest ∧ c'.position = c.position + used.length ∧ p used x

lemma Parses.congr {d : Decode α} {p q : Form α} (h : d.Parses p) (hpq : ∀ bytes x, p bytes x ↔ q bytes x) :
    d.Parses q where
  reads hq := h.reads ((hpq _ _).mpr hq)
  sound hx := by
    obtain ⟨used, hrest, hposition, hp⟩ := h.sound hx
    exact ⟨used, hrest, hposition, (hpq _ _).mp hp⟩

lemma parses_pure (x : α) : (pure x : Decode α).Parses (pure x) where
  reads h := by
    obtain ⟨rfl, rfl⟩ := h
    exact reads_pure _
  sound h := by
    obtain ⟨rfl, rfl⟩ := EStateM.Result.ok.inj h
    exact ⟨[], rfl, rfl, rfl, rfl⟩

lemma parses_throw (e : Error) : (throw e : Decode α).Parses Form.none where
  reads h := h.elim
  sound h := by cases h

lemma parses_fault (f : CodecFault) : (fault f : Decode α).Parses Form.none := parses_throw _

lemma Reads.bind {d : Decode α} {f : α → Decode β} {front rest : Bytes} {x : α} {y : β} (hd : d.Reads front x)
    (hf : (f x).Reads rest y) : (d >>= f).Reads (front ++ rest) y := by
  intro position tail
  change EStateM.bind d f _ = _
  rw [List.append_assoc, EStateM.bind, hd]
  change f x _ = _
  rw [hf, List.length_append, Nat.add_assoc]

lemma Parses.bind {d : Decode α} {f : α → Decode β} {p : Form α} {q : α → Form β} (hd : d.Parses p)
    (hf : ∀ x, (f x).Parses (q x)) : (d >>= f).Parses (p >>= q) where
  reads h := by
    obtain ⟨front, x, rest, rfl, hx, hy⟩ := h
    exact (hd.reads hx).bind ((hf x).reads hy)
  sound h := by
    obtain ⟨x, c₁, hx, hy⟩ := bind_eq_ok h
    obtain ⟨front, hfront, hposition, hp⟩ := hd.sound hx
    obtain ⟨rest, hrest, hposition', hq⟩ := (hf x).sound hy
    refine ⟨front ++ rest, ?_, ?_, front, x, rest, rfl, hp, hq⟩
    · rw [hfront, hrest, List.append_assoc]
    · rw [hposition', hposition, List.length_append, Nat.add_assoc]

lemma Parses.map {d : Decode α} {p : Form α} (hd : d.Parses p) (f : α → β) : (f <$> d).Parses (f <$> p) := by
  rw [map_eq_pure_bind]
  refine (hd.bind fun x => parses_pure (f x)).congr fun bytes y => ⟨?_, ?_⟩
  · rintro ⟨front, x, rest, rfl, hx, rfl, rfl⟩
    exact ⟨x, by rwa [List.append_nil], rfl⟩
  · rintro ⟨x, hx, rfl⟩
    exact ⟨bytes, x, [], (List.append_nil bytes).symm, hx, rfl, rfl⟩

/-! ### Numbers -/

lemma parses_take (op : BufferOp) (n : Nat) :
    (take op n).Parses fun bytes taken => bytes.length = n ∧ taken = bytes where
  reads h := by
    obtain ⟨rfl, rfl⟩ := h
    exact reads_take op _
  sound {c taken c'} h := by
    rw [take, splitExactly?_eq] at h
    by_cases hn : n ≤ c.rest.length
    · rw [if_pos hn] at h
      obtain ⟨rfl, rfl⟩ := EStateM.Result.ok.inj h
      have hlen : (c.rest.take n).length = n := List.length_take_of_le hn
      exact ⟨c.rest.take n, (List.take_append_drop n c.rest).symm, congrArg (c.position + ·) hlen.symm, hlen, rfl⟩
    · rw [if_neg hn] at h
      cases h

lemma parses_number (op : BufferOp) (width : Nat) :
    (number op width).Parses fun bytes n => bytes.length = width ∧ n = Bytes.toNat bytes :=
  ((parses_take op width).map Bytes.toNat).congr fun bytes _ =>
    ⟨fun ⟨_, ⟨hlen, htaken⟩, hn⟩ => ⟨hlen, htaken ▸ hn⟩, fun ⟨hlen, hn⟩ => ⟨bytes, ⟨hlen, rfl⟩, hn⟩⟩

/-- A number of fixed width is read from what is written of it, if it is written as the number from which it is
made. -/
lemma parses_word (op : BufferOp) {width : Nat} {make : Nat → α} {write : α → Encoding} {number : α → Nat}
    (hwrite : ∀ x, write x = .chunk (Bytes.ofNat width (number x)))
    (hmake : ∀ n < 256 ^ width, number (make n) = n)
    (hnumber : ∀ x, make (Bytes.toNat (Bytes.ofNat width (number x))) = x) :
    (make <$> Decode.number op width).Parses (.written write) :=
  ((parses_number op width).map make).congr fun bytes x => by
    constructor
    · rintro ⟨_, ⟨hlen, rfl⟩, rfl⟩
      refine ⟨by rw [hwrite]; rfl, ?_⟩
      rw [hwrite, Encoding.bytes_chunk, hmake _ (hlen ▸ Bytes.toNat_lt bytes), ← hlen, Bytes.ofNat_toNat]
    · rintro ⟨-, rfl⟩
      rw [hwrite, Encoding.bytes_chunk]
      exact ⟨_, ⟨Bytes.length_ofNat _ _, rfl⟩, (hnumber x).symm⟩

lemma parses_u8 : u8.Parses fun bytes b => bytes = [b] :=
  (parses_word .readU8 (fun _ => rfl) (fun _ hn => UInt8.toNat_ofNat_of_lt' hn) Bytes.toUInt8_ofNat).congr
    fun bytes b => by
      change _ ∧ bytes = (Encoding.u8 b).bytes ↔ _
      rw [Encoding.u8, Encoding.bytes_chunk, Bytes.ofNat_one]
      exact and_iff_right rfl

lemma parses_bool : bool.Parses Form.flag :=
  ((parses_number .readBool 1).map fun n => decide (n ≠ 0)).congr fun bytes b => by
    constructor
    · rintro ⟨n, ⟨hlen, rfl⟩, rfl⟩
      obtain ⟨byte, rfl⟩ := List.length_eq_one_iff.mp hlen
      exact ⟨byte, rfl, by simp [Bytes.toNat]⟩
    · rintro ⟨byte, rfl, rfl⟩
      exact ⟨byte.toNat, ⟨rfl, by simp [Bytes.toNat]⟩, rfl⟩

lemma parses_byte : byte.Parses (.written .byte) :=
  parses_word .readByte (fun _ => rfl) (fun _ hn => UInt8.toNat_ofNat_of_lt' hn) Bytes.toInt8_ofNat

lemma parses_short : short.Parses (.written .short) :=
  parses_word .readShort (fun _ => rfl) (fun _ hn => UInt16.toNat_ofNat_of_lt' hn) Bytes.toInt16_ofNat

lemma parses_int : int.Parses (.written .int) :=
  parses_word .readInt (fun _ => rfl) (fun _ hn => UInt32.toNat_ofNat_of_lt' hn) Bytes.toInt32_ofNat

lemma parses_long : long.Parses (.written .long) :=
  parses_word .readLong (fun _ => rfl) (fun _ hn => UInt64.toNat_ofNat_of_lt' hn) Bytes.toInt64_ofNat

lemma parses_float : float.Parses (.written .float) :=
  parses_word .readFloat (fun _ => rfl) (fun _ hn => UInt32.toNat_ofNat_of_lt' hn) Bytes.toUInt32_ofNat

lemma parses_double : double.Parses (.written .double) :=
  parses_word .readDouble (fun _ => rfl) (fun _ hn => UInt64.toNat_ofNat_of_lt' hn) Bytes.toUInt64_ofNat

lemma parses_uuid : uuid.Parses (.written .uuid) where
  reads h := by
    obtain ⟨-, rfl⟩ := h
    exact (Encoding.carries_uuid _ .connectionClosed).answers.reads trivial
  sound {c id c'} h := by
    have half := parses_number .readLong 8
    have whole : uuid.Parses _ := half.bind fun hi => half.bind fun lo => parses_pure _
    obtain ⟨used, hrest, hposition, front, _, _, rfl, ⟨hfront, rfl⟩, back, _, _, rfl, ⟨hback, rfl⟩, rfl, rfl⟩ :=
      whole.sound h
    have hhi := Bytes.toNat_lt front
    have hlo := Bytes.toNat_lt back
    rw [hfront] at hhi
    rw [hback] at hlo
    refine ⟨_, hrest, hposition, rfl, ?_⟩
    change _ = (Encoding.chunk _ ++ Encoding.chunk _).bytes
    rw [Encoding.bytes_append rfl, Encoding.bytes_chunk, Encoding.bytes_chunk, UInt64.toNat_ofNat_of_lt' hhi,
      UInt64.toNat_ofNat_of_lt' hlo, ← hfront, Bytes.ofNat_toNat, hfront, ← hback, Bytes.ofNat_toNat, List.append_nil]

/-! ### Counts -/

/-- A count that is read is the one that is spelled. -/
lemma length_sound {widths : Widths} {what : Counted} {c c' : Cursor} {n : Nat}
    (h : length widths what c = .ok n c') :
    c.rest = Bytes.ofNat 4 n ++ c'.rest ∧ c'.position = c.position + 4 := by
  obtain ⟨k, c₁, hk, h⟩ := bind_eq_ok h
  obtain ⟨used, hrest, hposition, -, rfl⟩ := parses_int.sound hk
  rw [Encoding.int, Encoding.bytes_chunk] at hrest hposition
  rw [Bytes.length_ofNat] at hposition
  split at h
  · cases h
  rename_i hnonneg
  obtain ⟨left, c₂, hleft, h⟩ := bind_eq_ok h
  obtain ⟨rfl, rfl⟩ := EStateM.Result.ok.inj hleft
  split at h
  · cases h
  obtain ⟨rfl, rfl⟩ := EStateM.Result.ok.inj h
  refine ⟨?_, hposition⟩
  have hk : k.toUInt32.toNat = k.toInt.toNat := by
    have hcond := BitVec.toInt_eq_toNat_cond k.toBitVec
    have hzero : ¬k.toBitVec.toInt < 0 := fun hlt => hnonneg (Int32.lt_iff_toInt_lt.mpr hlt)
    change k.toBitVec.toNat = k.toBitVec.toInt.toNat
    have hlt := k.toBitVec.isLt
    split at hcond <;> omega
  rw [hrest, hk]

lemma parses_length_bind {widths : Widths} {what : Counted} {f : Nat → Decode α} {q : Nat → Form α}
    (hf : ∀ n, (f n).Parses (q n)) (wide : ∀ n bytes x, q n bytes x → n * widths what ≤ bytes.length) :
    (length widths what >>= f).Parses (Form.behind q) where
  reads h := by
    obtain ⟨n, rest, hn, rfl, hx⟩ := h
    intro position tail
    have hroom : n * widths what ≤ (rest ++ tail).length :=
      (wide n rest _ hx).trans (by rw [List.length_append]; exact Nat.le_add_right _ _)
    change EStateM.bind _ f _ = _
    rw [List.append_assoc, EStateM.bind, Encoding.decode_length hn hroom]
    change f n _ = _
    rw [(hf n).reads hx, List.length_append, Bytes.length_ofNat, Nat.add_assoc]
  sound h := by
    obtain ⟨n, c₁, hn, hx⟩ := bind_eq_ok h
    have hle := yields_length widths what _ _ _ hn
    obtain ⟨hrest, hposition⟩ := length_sound hn
    obtain ⟨rest, hrest', hposition', hq⟩ := (hf n).sound hx
    refine ⟨Bytes.ofNat 4 n ++ rest, ?_, ?_, n, rest, hle, rfl, hq⟩
    · rw [hrest, hrest', List.append_assoc]
    · rw [hposition', hposition, List.length_append, Bytes.length_ofNat, Nat.add_assoc]

/-! ### Texts and characters -/

lemma octets_iff {bytes taken : Bytes} :
    Form.octets bytes taken ↔ taken.length ≤ maxLength ∧ bytes = Bytes.ofNat 4 taken.length ++ taken := by
  have hwritten : (Encoding.length taken.length ++ .chunk taken : Encoding).error? = none ↔
      taken.length ≤ maxLength := by
    rw [Encoding.written_append, Encoding.written_length]
    exact and_iff_left rfl
  refine (and_congr_left fun _ => hwritten).trans (and_congr_right fun hlen => ?_)
  rw [Encoding.bytes_append (Encoding.written_length.mpr hlen), Encoding.bytes_chunk, Encoding.length, if_pos hlen,
    Encoding.bytes_chunk]

lemma parses_octets {widths : Widths} {what : Counted} (h : widths what ≤ 1) :
    (length widths what >>= take .readVec).Parses Form.octets := by
  refine (parses_length_bind (parses_take .readVec) ?_).congr fun bytes taken => ?_
  · rintro n bytes _ ⟨hlen, rfl⟩
    rw [hlen]
    exact (Nat.mul_le_mul_left n h).trans_eq (Nat.mul_one n)
  · rw [octets_iff]
    constructor
    · rintro ⟨n, rest, hn, rfl, rfl, rfl⟩
      exact ⟨hn, rfl⟩
    · rintro ⟨hlen, rfl⟩
      exact ⟨_, taken, hlen, rfl, rfl, rfl⟩

lemma parses_string {widths : Widths} (h : widths .string ≤ 1) : (string widths).Parses (.written .string) := by
  rw [string, ← bind_assoc]
  refine ((parses_octets h).bind (q := fun taken rest text => rest = [] ∧ Utf8.encode text = taken)
    fun taken => ?_).congr fun bytes x => ⟨?_, fun hx => ?_⟩
  · split
    next text htext =>
      refine (parses_pure text).congr fun rest x => and_congr_right fun _ => ⟨?_, fun hx => ?_⟩
      · rintro rfl
        exact Utf8.encode_of_decode htext
      · rw [← hx, Utf8.decode_encode] at htext
        exact Except.ok.inj htext
    next f hf =>
      refine (parses_fault _).congr fun rest x => ⟨False.elim, fun ⟨_, hx⟩ => ?_⟩
      rw [← hx, Utf8.decode_encode] at hf
      cases hf
  · rintro ⟨front, _, _, rfl, hfront, rfl, rfl⟩
    rwa [List.append_nil]
  · exact ⟨bytes, Utf8.encode x, [], (List.append_nil bytes).symm, hx, rfl, rfl⟩

lemma parses_char : char.Parses (.written .char) where
  reads h := by
    obtain ⟨-, rfl⟩ := h
    exact (Encoding.carries_char _ .connectionClosed).answers.reads trivial
  sound {c x c'} h := by
    obtain ⟨first, c₁, hfirst, h⟩ := bind_eq_ok h
    obtain ⟨_, hrest, hposition, rfl⟩ := parses_u8.sound hfirst
    cases hwidth : charWidth? first with
    | none =>
      simp only [hwidth] at h
      cases h
    | some width =>
      simp only [hwidth] at h
      obtain ⟨others, c₂, hothers, h⟩ := bind_eq_ok h
      obtain ⟨_, hrest', hposition', hlen, rfl⟩ := (parses_take _ _).sound hothers
      cases hchars : Utf8.decodeChars (first :: others) with
      | error f =>
        simp only [hchars] at h
        cases h
      | ok cs =>
        obtain ⟨y, ys, _, tail, rfl, hbytes, -⟩ := Utf8.exists_encodeChar_append hchars
        simp only [hchars] at h
        obtain ⟨rfl, rfl⟩ := EStateM.Result.ok.inj h
        -- the first byte tells how many bytes its character has, so that no second one is left among them
        obtain ⟨lead, more, hencode, hlead⟩ := Encoding.exists_encodeChar y
        rw [hencode, List.cons_append] at hbytes
        obtain ⟨rfl, rfl⟩ := List.cons.inj hbytes
        obtain rfl := Option.some.inj (hwidth.symm.trans hlead)
        have htail : tail = [] := by
          rw [List.length_append] at hlen
          exact List.length_eq_zero_iff.mp (by omega)
        refine ⟨first :: (more ++ tail), ?_, ?_, rfl, ?_⟩
        · rw [hrest, hrest']
          rfl
        · rw [hposition', hposition, Nat.add_assoc, ← List.length_append]
          rfl
        · rw [Encoding.char, Encoding.bytes_chunk, hencode, htail, List.append_nil]

/-! ### Items and elements -/

lemma parses_times {d : Decode α} {p : Form α} (h : d.Parses p) (n : Nat) :
    (times n d).Parses fun bytes xs => xs.length = n ∧ p.each bytes xs := by
  induction n with
  | zero =>
    refine (parses_pure []).congr fun bytes xs => ⟨?_, ?_⟩
    · rintro ⟨rfl, rfl⟩
      exact ⟨rfl, [], rfl, .nil⟩
    · rintro ⟨hlen, parts, rfl, hparts⟩
      obtain rfl := List.length_eq_zero_iff.mp hlen
      cases hparts
      exact ⟨rfl, rfl⟩
  | succ n ih =>
    refine (h.bind fun x => ih.bind fun xs => parses_pure (x :: xs)).congr fun bytes xs => ⟨?_, ?_⟩
    · rintro ⟨front, x, _, rfl, hx, _, xs, _, rfl, ⟨hlen, parts, rfl, hparts⟩, rfl, rfl⟩
      exact ⟨congrArg (· + 1) hlen, front :: parts, by rw [List.append_nil, List.flatten_cons], .cons hx hparts⟩
    · rintro ⟨hlen, _, rfl, hparts⟩
      cases hparts with
      | nil => cases hlen
      | @cons part x parts xs hx hparts =>
        exact ⟨part, x, parts.flatten, rfl, hx, parts.flatten, xs, [], (List.append_nil _).symm,
          ⟨Nat.succ.inj hlen, parts, rfl, hparts⟩, rfl, rfl⟩

lemma length_each {p : Form α} {width : Nat} (h : ∀ bytes x, p bytes x → width ≤ bytes.length) {bytes : Bytes}
    {xs : List α} (hxs : p.each bytes xs) : xs.length * width ≤ bytes.length := by
  obtain ⟨parts, rfl, hparts⟩ := hxs
  induction hparts with
  | nil => simp
  | cons hx _ ih =>
    have hwidth := h _ _ hx
    rw [List.flatten_cons, List.length_append, List.length_cons, Nat.succ_mul]
    omega

/-- Items behind their count, if each has at least the width by which it is counted. -/
lemma parses_counted (widths : Widths) (what : Counted) {d : Decode α} {p : Form α} (h : d.Parses p)
    (wide : ∀ bytes x, p bytes x → widths what ≤ bytes.length) :
    (length widths what >>= fun n => times n d).Parses p.counted := by
  refine parses_length_bind (parses_times h) ?_
  rintro n bytes xs ⟨rfl, hxs⟩
  exact length_each wide hxs

/-- Items that stand for what was read already are turned into what they wrap. -/
lemma parses_mapM {f : β → Decode α} (wrap : α → β)
    (h : ∀ item, (f item).Parses fun bytes x => bytes = [] ∧ item = wrap x) (items : List β) :
    (items.mapM f).Parses fun bytes xs => bytes = [] ∧ items = xs.map wrap := by
  induction items with
  | nil =>
    refine (parses_pure []).congr fun bytes xs => and_congr_right fun _ => ?_
    rw [eq_comm (a := []), List.map_eq_nil_iff]
  | cons item items ih =>
    rw [List.mapM_cons]
    refine ((h item).bind fun x => ih.bind fun xs => parses_pure (x :: xs)).congr fun bytes xs => ⟨?_, ?_⟩
    · rintro ⟨_, x, _, rfl, ⟨rfl, rfl⟩, _, xs, _, rfl, ⟨rfl, rfl⟩, rfl, rfl⟩
      exact ⟨rfl, rfl⟩
    · rintro ⟨rfl, hxs⟩
      obtain ⟨x, xs, rfl, rfl, rfl⟩ := List.map_eq_cons_iff.mp hxs.symm
      exact ⟨[], x, [], rfl, ⟨rfl, rfl⟩, [], xs, [], rfl, ⟨rfl, rfl⟩, rfl, rfl⟩

/-! ### Buffers -/

/-- A buffer yields a thing to the reader of a form when it is live and a spelling stands at the front of what is
unread, and then gives up just that spelling. -/
lemma Parses.decode_iff {d : Decode α} {p : Form α} (hd : d.Parses p) {b after : Buffer} {x : α} :
    b.decode d = (.ok x, after) ↔
      b.references ≠ 0 ∧ ∃ front rest, b.unread = front ++ rest ∧ p front x ∧ after = b.advance front.length := by
  constructor
  · intro h
    rw [Buffer.decode, Buffer.ensureLive] at h
    by_cases live : b.references = 0
    · rw [if_pos live] at h
      cases h
    · rw [if_neg live] at h
      cases hx : d b.cursor with
      | error e c =>
        simp only [hx] at h
        cases h
      | ok y c =>
        simp only [hx] at h
        obtain ⟨hy, rfl⟩ := Prod.mk.inj h
        obtain rfl := Except.ok.inj hy
        obtain ⟨used, hrest, hposition, hp⟩ := hd.sound hx
        exact ⟨live, used, c.rest, hrest, hp, by rw [hposition]; exact congrArg _ (Nat.add_sub_cancel_left ..)⟩
  · rintro ⟨live, front, rest, hb, hp, rfl⟩
    exact (Buffer.decode_of_reads live (hd.reads hp) hb).1

end Decode

end GraphServer
