import GraphServer.Proofs.Codec.Parses
import GraphServer.Proofs.Text.Malformed

/-!
Texts and characters are accepted exactly when they are spelled as they are written.

`Decode.Canonical` says of a reader and its writer that each thing that fits has one spelling, which is what is
written, what is read, and all that is read. That the reader guesses the number of bytes from a range of first bytes
that is wider than well-formed text does not show.

* `Decode.Parses.canonical`: a reader that recognises what its writer writes is canonical;
* `Decode.texts_canonical`: **characters are read exactly from their UTF-8 encoding, and texts exactly from their
  length in bytes with their UTF-8 encoding behind it**; no character is read exactly where the first bytes are
  malformed.
-/

namespace GraphServer

namespace Decode

variable {α : Type} {d : Decode α} {write : α → Encoding}

/-- A reader and its writer have one spelling for each thing that fits. -/
structure Canonical (d : Decode α) (write : α → Encoding) (fits : α → Prop) (spelling : α → Bytes) : Prop where
  /-- A thing is read just where its spelling stands at the front of what is unread, and just that is given up. -/
  takes_iff : ∀ (b after : Buffer) (x : α), b.decode d = (.ok x, after) ↔
    b.references ≠ 0 ∧ fits x ∧ ∃ rest, b.unread = spelling x ++ rest ∧ after = b.advance (spelling x).length
  /-- What fits is written, wherever there is room for its spelling. -/
  writes : ∀ {pool : Pool} {b : Buffer} {x : α}, pool.Sound → fits x → b.HasRoom (spelling x).length →
    ∃ b' pool', b.emit pool (write x) = (b', pool', none) ∧ b'.unread = b.unread ++ spelling x
  /-- What was written is read back, whatever was appended to it since then, which is left. -/
  undoes : ∀ {pool pool' : Pool} {b written later : Buffer} {x : α} {more : Bytes}, pool.Sound → b.unread = [] →
    b.emit pool (write x) = (written, pool', none) → later.references ≠ 0 → later.unread = written.unread ++ more →
    ∃ after, later.decode d = (.ok x, after) ∧ after.unread = more
  /-- The same thing is read from the same bytes only. -/
  injective : ∀ {b₁ b₂ after₁ after₂ : Buffer} {x : α}, b₁.decode d = (.ok x, after₁) →
    b₂.decode d = (.ok x, after₂) → ∃ taken, b₁.unread = taken ++ after₁.unread ∧ b₂.unread = taken ++ after₂.unread

lemma unread_advance {b : Buffer} (live : b.references ≠ 0) {front rest : Bytes} (h : b.unread = front ++ rest) :
    (b.advance front.length).unread = rest :=
  (Buffer.read_append live h .readVec).2

/-- A reader that recognises what its writer writes is canonical. -/
lemma Parses.canonical (hd : d.Parses (.written write)) {fits : α → Prop} {spelling : α → Bytes}
    (hfits : ∀ x, (write x).error? = none ↔ fits x) (hspelling : ∀ x, fits x → (write x).bytes = spelling x) :
    d.Canonical write fits spelling := by
  have takes (b after : Buffer) (x : α) : b.decode d = (.ok x, after) ↔
      b.references ≠ 0 ∧ fits x ∧ ∃ rest, b.unread = spelling x ++ rest ∧ after = b.advance (spelling x).length := by
    rw [hd.decode_iff]
    refine and_congr_right fun _ => ⟨?_, ?_⟩
    · rintro ⟨_, rest, hb, ⟨hwritten, rfl⟩, rfl⟩
      have hx := (hfits x).mp hwritten
      rw [hspelling x hx] at hb ⊢
      exact ⟨hx, rest, hb, rfl⟩
    · rintro ⟨hx, rest, hb, rfl⟩
      exact ⟨_, rest, hb, ⟨(hfits x).mpr hx, (hspelling x hx).symm⟩, rfl⟩
  refine ⟨takes, ?_, ?_, ?_⟩
  · intro pool b x hp hx room
    rw [← hspelling x hx] at room ⊢
    obtain ⟨b', pool', hemit, hunread, -⟩ := Buffer.exists_emit hp ((hfits x).mpr hx) room
    exact ⟨b', pool', hemit, hunread⟩
  · intro pool pool' b written later x more hp hempty hemit live hlater
    obtain ⟨hwritten, hunread, -⟩ := Buffer.emitted hp hemit
    have hx := (hfits x).mp hwritten
    rw [hunread, hempty, List.nil_append, hspelling x hx] at hlater
    exact ⟨_, (takes later _ x).mpr ⟨live, hx, more, hlater, rfl⟩, unread_advance live hlater⟩
  · intro b₁ b₂ after₁ after₂ x h₁ h₂
    obtain ⟨live₁, -, rest₁, hb₁, rfl⟩ := (takes b₁ after₁ x).mp h₁
    obtain ⟨live₂, -, rest₂, hb₂, rfl⟩ := (takes b₂ after₂ x).mp h₂
    exact ⟨spelling x, by rw [unread_advance live₁ hb₁, hb₁], by rw [unread_advance live₂ hb₂, hb₂]⟩

lemma canonical_char : char.Canonical Encoding.char (fun _ => True) String.utf8EncodeChar :=
  parses_char.canonical (fun _ => iff_true_intro rfl) fun c _ => by rw [Encoding.char, Encoding.bytes_chunk]

lemma canonical_string : (string .encoded).Canonical Encoding.string (fun text => text.utf8ByteSize ≤ maxLength)
    fun text => Bytes.ofNat 4 text.utf8ByteSize ++ text.toByteArray.data.toList := by
  refine (parses_string le_rfl).canonical (fun text => ?_) fun text h => ?_
  · rw [Encoding.written_string, Value.Fits, Utf8.length_encode]
  · rw [← Utf8.length_encode] at h ⊢
    rw [← Utf8.encode_eq_toByteArray, Encoding.string, Encoding.bytes_append (Encoding.written_length.mpr h),
      Encoding.bytes_chunk, Encoding.length, if_pos h, Encoding.bytes_chunk]

/-- A live buffer yields no character exactly where its first bytes are malformed. -/
lemma char_fails_iff {b : Buffer} (live : b.references ≠ 0) :
    (∃ e after, b.decode char = (.error e, after)) ↔ Utf8.Malformed b.unread := by
  rw [Utf8.malformed_iff]
  constructor
  · rintro ⟨e, after, hfails⟩ c ⟨rest, hrest⟩
    have htakes := (canonical_char.takes_iff b _ c).mpr ⟨live, trivial, rest, hrest.symm, rfl⟩
    rw [hfails] at htakes
    cases htakes
  · intro h
    rcases hd : b.decode char with ⟨_ | c, after⟩
    · exact ⟨_, after, rfl⟩
    · obtain ⟨-, -, rest, hrest, -⟩ := (canonical_char.takes_iff b after c).mp hd
      exact absurd ⟨rest, hrest.symm⟩ (h c)

/-- **Texts and characters are accepted exactly when they are canonical.** A character is read from its UTF-8 encoding
and from nothing else, a text from its length in bytes, as a signed number of four bytes, with its UTF-8 encoding behind
it and from nothing else, each from the front of any live buffer and with that many bytes given up. So reading undoes
writing, and is injective on what it accepts. No character is read exactly where the first bytes are malformed: where
they are overlong, a surrogate, beyond `10FFFF`, stray, cut off or broken off. -/
theorem texts_canonical :
    char.Canonical Encoding.char (fun _ => True) String.utf8EncodeChar ∧
      (string .encoded).Canonical Encoding.string (fun text => text.utf8ByteSize ≤ maxLength)
        (fun text => Bytes.ofNat 4 text.utf8ByteSize ++ text.toByteArray.data.toList) ∧
      ∀ b : Buffer, b.references ≠ 0 →
        ((∃ e after, b.decode char = (.error e, after)) ↔ Utf8.Malformed b.unread) :=
  ⟨canonical_char, canonical_string, fun _ live => char_fails_iff live⟩

/-- Neither an overlong slash nor a surrogate is a character; a text of two bytes is read and what follows it is left. -/
theorem texts_canonical_refused :
    (∃ e after, (Buffer.wrap [0xC0, 0xAF]).decode char = (.error e, after)) ∧
      (∃ e after, (Buffer.wrap [0xED, 0xA0, 0x80]).decode char = (.error e, after)) ∧
      ∃ after, (Buffer.wrap [0, 0, 0, 2, 0xC3, 0xA9, 0x41]).decode (string .encoded) = (.ok "é", after) := by
  refine ⟨(texts_canonical.2.2 _ (by decide)).mpr (.overlongTwo _ (by decide) (by decide)),
    (texts_canonical.2.2 _ (by decide)).mpr (.surrogate _ (by decide)), _,
    (texts_canonical.2.1.takes_iff _ _ "é").mpr ⟨by decide, by decide, [0x41], ?_, rfl⟩⟩
  decide +kernel

end Decode

end GraphServer
