import GraphServer.Message.Codec
import GraphServer.Proofs.Codec.Congruence

/-!
Values and messages delimit themselves.

The end of an encoding is where its reader stops, whatever follows: the bytes that a value takes are read to the same
value in front of other bytes, and no first part of them is read to anything. A message goes to the end of its bytes,
so that among accepted messages none is the beginning of another one.

* `Decode.Delimited`, `Decode.Delimited.bind`: readers that never look beyond what they take;
* `Decode.Closed`, `Decode.Delimited.closed_bind`: readers that accept no two byte strings one of which begins the
  other;
* `MessageCodec.self_delimiting`: **values delimit themselves, messages are free of prefixes, and everything that is
  refused is refused with the status of a serialization error**.
-/

namespace GraphServer

namespace Decode

variable {α β : Type}

/-- What is taken is taken just so, whatever follows it. -/
def Delimited (d : Decode α) : Prop :=
  d.Parses d.Reads

lemma Parses.delimited {d : Decode α} {p : Form α} (h : d.Parses p) : d.Delimited where
  reads hx := hx
  sound hx := by
    obtain ⟨used, hrest, hposition, hp⟩ := h.sound hx
    exact ⟨used, hrest, hposition, h.reads hp⟩

lemma delimited_pure (x : α) : (pure x : Decode α).Delimited := (parses_pure x).delimited

lemma delimited_fault (f : CodecFault) : (fault f : Decode α).Delimited := (parses_fault f).delimited

lemma Delimited.bind {d : Decode α} {f : α → Decode β} (hd : d.Delimited) (hf : ∀ x, (f x).Delimited) :
    (d >>= f).Delimited :=
  (Parses.bind hd hf).delimited

lemma Delimited.map {d : Decode α} (hd : d.Delimited) (f : α → β) : (f <$> d).Delimited :=
  (Parses.map hd f).delimited

lemma delimited_mapM {f : α → Decode β} (h : ∀ x, (f x).Delimited) (xs : List α) : (xs.mapM f).Delimited := by
  induction xs with
  | nil => exact delimited_pure []
  | cons x xs ih =>
    rw [List.mapM_cons]
    exact (h x).bind fun y => ih.bind fun ys => delimited_pure (y :: ys)

/-- Of two byte strings that are taken whole, neither is the beginning of the other. -/
lemma Reads.eq_of_prefix {d : Decode α} {a b : Bytes} {x y : α} (hx : d.Reads a x) (hy : d.Reads b y)
    (h : a <+: b) : a = b := by
  obtain ⟨more, rfl⟩ := h
  have first := hx 0 (more ++ [])
  have second := hy 0 []
  rw [← List.append_assoc, second] at first
  obtain ⟨-, hcursor⟩ := EStateM.Result.ok.inj first
  have hmore : [] = more ++ [] := congrArg Cursor.rest hcursor
  rw [List.append_nil] at hmore
  rw [← hmore, List.append_nil]

/-- Of two byte strings that are accepted, neither is the beginning of the other. -/
def Closed (d : Decode α) : Prop :=
  ∀ {a b : Bytes} {position position' x y c c'}, d ⟨position, a⟩ = .ok x c → d ⟨position', b⟩ = .ok y c' →
    a <+: b → a = b

/-- A part that delimits itself, before the rest. -/
lemma Delimited.closed_bind {d : Decode α} {f : α → Decode β} (hd : d.Delimited) (hf : ∀ x, (f x).Closed) :
    (d >>= f).Closed := by
  intro a b position position' y y' c c' ha hb hab
  obtain ⟨x, ⟨position₁, rest₁⟩, hx, hy⟩ := bind_eq_ok ha
  obtain ⟨x', ⟨position₂, rest₂⟩, hx', hy'⟩ := bind_eq_ok hb
  obtain ⟨used, rfl : a = used ++ rest₁, -, hreads⟩ := hd.sound hx
  obtain ⟨more, rfl⟩ := hab
  -- what is taken of the shorter one is taken of the longer one, and the same rests remain
  have again := hreads position' (rest₁ ++ more)
  rw [← List.append_assoc, hx'] at again
  obtain ⟨rfl, hcursor⟩ := EStateM.Result.ok.inj again
  obtain rfl : rest₂ = rest₁ ++ more := congrArg Cursor.rest hcursor
  have hrest := hf x' hy hy' (List.prefix_append rest₁ more)
  rw [List.append_assoc, ← hrest]

end Decode

namespace MessageCodec

open Decode

variable {α : Type} {c : MessageCodec}

/-! ### The parts of messages -/

lemma readEnd_eq_ok {x : Unit} {cursor cursor' : Cursor} (h : readEnd cursor = .ok x cursor') : cursor.rest = [] := by
  obtain ⟨left, cursor₁, hleft, h⟩ := bind_eq_ok h
  obtain ⟨rfl, rfl⟩ := EStateM.Result.ok.inj hleft
  split at h
  next hzero => exact List.length_eq_zero_iff.mp hzero
  next => cases h

/-- What is read to the end is the whole. -/
lemma closed_readEnd (x : α) : (readEnd >>= fun _ => pure x : Decode α).Closed := by
  intro a b position position' y y' c c' ha hb _
  obtain ⟨_, _, hend, -⟩ := bind_eq_ok ha
  obtain ⟨_, _, hend', -⟩ := bind_eq_ok hb
  obtain rfl : a = [] := readEnd_eq_ok hend
  exact (readEnd_eq_ok hend').symm

lemma delimited_text : (Decode.string .encoded).Delimited := (parses_string le_rfl).delimited

lemma delimited_readVersion : readVersion.Delimited :=
  parses_u8.delimited.bind fun version => by
    split
    · exact delimited_pure _
    · exact delimited_fault _

lemma delimited_readStatus : readStatus.Delimited :=
  parses_int.delimited.bind fun code => by
    split
    · exact delimited_pure _
    · exact delimited_fault _

lemma delimited_readOptional {read : Decode α} (h : read.Delimited) : (readOptional read).Delimited :=
  parses_u8.delimited.bind fun flags => by
    split
    · exact delimited_pure _
    · exact h.map some

lemma delimited_fieldOf (e : Value × Value) : (fieldOf e).Delimited := by
  rw [fieldOf]
  split
  · exact delimited_pure _
  · exact delimited_fault _

lemma delimited_read (hc : c.registry.BuiltIn) : (c.registry.read c.maxDepth).Delimited := by
  have h := Registry.parses_readAt .encoded (fun _ => le_rfl) c.registry c.maxDepth c.maxDepth
  rw [hc.withWidths_encoded] at h
  exact h.delimited

lemma delimited_readFields (hc : c.registry.BuiltIn) : c.readFields.Delimited := by
  have h := Registry.parses_readBare .encoded (fun _ => le_rfl) c.registry c.maxDepth .map false
  rw [hc.withWidths_encoded] at h
  refine h.delimited.bind fun v => ?_
  split
  · exact (delimited_mapM delimited_fieldOf _).bind fun _ => delimited_pure _
  · exact delimited_fault _

lemma closed_readRequest (hc : c.registry.BuiltIn) : c.readRequest.Closed :=
  delimited_readVersion.closed_bind fun _ => parses_uuid.delimited.closed_bind fun _ =>
    delimited_text.closed_bind fun _ => delimited_text.closed_bind fun _ =>
      (delimited_readFields hc).closed_bind fun _ => closed_readEnd _

lemma closed_readResponse (hc : c.registry.BuiltIn) : c.readResponse.Closed :=
  delimited_readVersion.closed_bind fun _ =>
    (delimited_readOptional parses_uuid.delimited).closed_bind fun _ =>
      delimited_readStatus.closed_bind fun _ => (delimited_readOptional delimited_text).closed_bind fun _ =>
        (delimited_readFields hc).closed_bind fun _ => (delimited_readFields hc).closed_bind fun _ =>
          (delimited_read hc).closed_bind fun _ => closed_readEnd _

/-! ### What is refused -/

lemma blames_fault (f : CodecFault) : (fault f : Decode α).Blames := blames_throw rfl

lemma blames_u8 : u8.Blames := (congruence_blames .encoded).number _ _ _

lemma blames_text : (Decode.string .encoded).Blames := (congruence_blames .encoded).string

lemma blames_readVersion : readVersion.Blames :=
  blames_u8.bind fun version => by
    split
    · exact blames_pure _
    · exact blames_fault _

lemma blames_readStatus : readStatus.Blames :=
  Blames.bind ((congruence_blames .encoded).number _ _ _) fun code => by
    split
    · exact blames_pure _
    · exact blames_fault _

lemma blames_readOptional {read : Decode α} (h : read.Blames) : (readOptional read).Blames :=
  blames_u8.bind fun flags => by
    split
    · exact blames_pure _
    · exact h.map some

lemma blames_readEnd : readEnd.Blames :=
  blames_readable.bind fun left => by
    split
    · exact blames_pure _
    · exact blames_fault _

lemma blames_read (hc : c.registry.BuiltIn) : (c.registry.read c.maxDepth).Blames := by
  have h := (congruence_blames .encoded).readAt c.registry c.maxDepth c.maxDepth
  rwa [hc.withWidths_encoded] at h

lemma blames_readFields (hc : c.registry.BuiltIn) : c.readFields.Blames := by
  have h := (congruence_blames .encoded).readBare c.registry c.maxDepth .map false
  rw [hc.withWidths_encoded] at h
  refine Blames.bind h fun v => ?_
  split
  · refine Blames.bind ((congruence_blames .encoded).mapM (fun e => ?_) _) fun _ => blames_pure _
    rw [fieldOf]
    split
    · exact blames_pure _
    · exact blames_fault _
  · exact blames_fault _

lemma blames_readRequest (hc : c.registry.BuiltIn) : c.readRequest.Blames :=
  blames_readVersion.bind fun _ => (congruence_blames .encoded).uuid.bind fun _ => blames_text.bind fun _ =>
    blames_text.bind fun _ => (blames_readFields hc).bind fun _ => blames_readEnd.bind fun _ => blames_pure _

lemma blames_readResponse (hc : c.registry.BuiltIn) : c.readResponse.Blames :=
  blames_readVersion.bind fun _ => (blames_readOptional (congruence_blames .encoded).uuid).bind fun _ =>
    blames_readStatus.bind fun _ => (blames_readOptional blames_text).bind fun _ =>
      (blames_readFields hc).bind fun _ => (blames_readFields hc).bind fun _ =>
        (blames_read hc).bind fun _ => blames_readEnd.bind fun _ => blames_pure _

/-! ### Whole byte strings -/

/-- No byte string that is accepted is the beginning of another one. -/
def PrefixFree (accept : Bytes → Except Error α) : Prop :=
  ∀ a b x y, accept a = .ok x → accept b = .ok y → a <+: b → a = b

lemma decode_eq_ok {d : Decode α} {bytes : Bytes} {x : α} (h : decode d bytes = .ok x) :
    ∃ cursor, d ⟨0, bytes⟩ = .ok x cursor := by
  rw [decode] at h
  split at h
  next y cursor hy =>
    obtain rfl := Except.ok.inj h
    exact ⟨cursor, hy⟩
  next => cases h

lemma prefixFree_decode {d : Decode α} (h : d.Closed) : PrefixFree (decode d) := by
  intro a b x y ha hb
  obtain ⟨cursor, ha⟩ := decode_eq_ok ha
  obtain ⟨cursor', hb⟩ := decode_eq_ok hb
  exact h ha hb

lemma status_of_decode {d : Decode α} (h : d.Blames) {bytes : Bytes} {e : Error} (he : decode d bytes = .error e) :
    e.status = .serializationError := by
  rw [decode] at he
  split at he
  next => cases he
  next e' cursor he' =>
    obtain rfl := Except.error.inj he
    exact h _ _ _ he'

lemma status_of_buffer {d : Decode α} (h : d.Blames) {b : Buffer} {e : Error} (he : (b.decode d).1 = .error e) :
    e.status = .serializationError := by
  rw [Buffer.decode] at he
  by_cases live : b.references = 0
  · rw [Buffer.ensureLive, if_pos live] at he
    obtain rfl := Except.error.inj he
    rfl
  · rw [Buffer.ensureLive, if_neg live] at he
    cases hx : d b.cursor with
    | ok x c =>
      simp only [hx] at he
      cases he
    | error e' c =>
      simp only [hx] at he
      obtain rfl := Except.error.inj he
      exact h _ _ _ hx

/-- **Values and messages delimit themselves.** With the standard serializers and any limit of the depth, what a buffer
yields for the bytes at its front, every live buffer yields that starts with these bytes, and gives up just them,
whatever follows; a buffer that holds but a first part of them yields nothing. Of two byte strings that are accepted
as requests, or as responses, neither is the beginning of the other. And everything that is refused, by any buffer and
for any bytes, is refused with the status of a serialization error, which is 599. -/
theorem self_delimiting (hc : c.registry.BuiltIn) :
    (∀ (source : Buffer) v after, source.decode (c.registry.read c.maxDepth) = (.ok v, after) →
      ∃ front rest, source.unread = front ++ rest ∧ after = source.advance front.length ∧
        (∀ target : Buffer, target.references ≠ 0 → front <+: target.unread →
          target.decode (c.registry.read c.maxDepth) = (.ok v, target.advance front.length)) ∧
        ∀ target : Buffer, target.unread <+: front → target.unread ≠ front →
          ∃ e, (target.decode (c.registry.read c.maxDepth)).1 = .error e) ∧
    PrefixFree c.decodeRequest ∧ PrefixFree c.decodeResponse ∧
    (∀ (b : Buffer) e, (b.decode (c.registry.read c.maxDepth)).1 = .error e → e.status = .serializationError) ∧
    (∀ bytes e, c.decodeRequest bytes = .error e → e.status = .serializationError) ∧
    (∀ bytes e, c.decodeResponse bytes = .error e → e.status = .serializationError) ∧
    Status.serializationError.code = 599 := by
  have hd := delimited_read hc
  refine ⟨fun source v after h => ?_, prefixFree_decode (closed_readRequest hc),
    prefixFree_decode (closed_readResponse hc), fun b e he => status_of_buffer (blames_read hc) he,
    fun bytes e he => status_of_decode (blames_readRequest hc) he,
    fun bytes e he => status_of_decode (blames_readResponse hc) he, rfl⟩
  obtain ⟨-, front, rest, hsource, hreads, hafter⟩ := hd.decode_iff.mp h
  refine ⟨front, rest, hsource, hafter, fun target live hfront => ?_, fun target hpart hne => ?_⟩
  · obtain ⟨more, hmore⟩ := hfront
    exact hd.decode_iff.mpr ⟨live, front, more, hmore.symm, hreads, rfl⟩
  · cases houtcome : target.decode (c.registry.read c.maxDepth) with
    | mk outcome after' =>
      cases outcome with
      | error e => exact ⟨e, rfl⟩
      | ok w =>
        obtain ⟨-, front', rest', htarget, hreads', -⟩ := hd.decode_iff.mp houtcome
        have hbegins : front' <+: target.unread := ⟨rest', htarget.symm⟩
        obtain rfl := hreads'.eq_of_prefix hreads (hbegins.trans hpart)
        exact absurd (hpart.eq_of_length_le hbegins.length_le) hne

/-- A list of two nulls. -/
def nullPair : Bytes :=
  [Kind.list.code, 0, 0, 0, 0, 2, Kind.unspecifiedNull.code, 1, Kind.unspecifiedNull.code, 1]

/-- A request without arguments. -/
def bareRequest : Request :=
  ⟨⟨0, 1⟩, "eval", "", .empty⟩

/-- Two nulls are read in front of other bytes and not without their last byte; a request is not read with another byte
behind it. -/
theorem self_delimiting_samples :
    Registry.standard.BuiltIn ∧
    ((Buffer.wrap nullPair).decode (Registry.standard.read 1)).1 = .ok (.list [.null, .null]) ∧
    ((Buffer.wrap (nullPair ++ [3, 2, 1])).decode (Registry.standard.read 1)).1 = .ok (.list [.null, .null]) ∧
    (∃ e, ((Buffer.wrap (nullPair.take 9)).decode (Registry.standard.read 1)).1 = .error e) ∧
    decodeRequest { maxDepth := 1 } (requestEncoding {} bareRequest).bytes = .ok bareRequest ∧
    (decodeRequest { maxDepth := 1 } ((requestEncoding {} bareRequest).bytes ++ [0])).toBool = false := by
  have hc : Registry.standard.BuiltIn := Registry.builtIn_standard
  obtain ⟨values, requests, -⟩ := self_delimiting (c := { maxDepth := 1 }) hc
  have read : (Buffer.wrap nullPair).decode (Registry.standard.read 1) =
    (.ok (.list [.null, .null]), (Buffer.wrap nullPair).advance 10) := rfl
  obtain ⟨front, rest, hunread, hafter, extended, cut⟩ := values _ _ _ read
  have hreader : 10 = min (0 + front.length) 10 := congrArg Buffer.reader hafter
  have hwhole : nullPair = front ++ rest := hunread
  have hlen : 10 = front.length + rest.length := by
    rw [← List.length_append, ← hwhole]
    rfl
  obtain rfl : rest = [] := List.length_eq_zero_iff.mp (by omega)
  rw [List.append_nil] at hwhole
  subst hwhole
  have longer := extended (.wrap (nullPair ++ [3, 2, 1])) Nat.one_ne_zero ⟨[3, 2, 1], rfl⟩
  have accepted : decodeRequest { maxDepth := 1 } (requestEncoding {} bareRequest).bytes = .ok bareRequest := rfl
  refine ⟨hc, congrArg Prod.fst read, congrArg Prod.fst longer,
    cut (.wrap (nullPair.take 9)) (List.take_prefix 9 nullPair) (by decide), accepted, ?_⟩
  cases houtcome : decodeRequest { maxDepth := 1 } ((requestEncoding {} bareRequest).bytes ++ [0]) with
  | error e => rfl
  | ok r =>
    have hsame := requests _ _ _ _ accepted houtcome (List.prefix_append _ [0])
    exact absurd (congrArg List.length hsame) (by decide)

end MessageCodec

end GraphServer
