import GraphServer.Proofs.Codec.Canonical
import GraphServer.Proofs.Codec.Written
import GraphServer.Proofs.Message.Encoded
import GraphServer.Proofs.Message.Fields

/-!
Messages come back from their bytes.

A message is read part by part as it is written, and after its last part nothing may be left. Fields are
written in the order of their names, with the header of each name by hand; they are read as a map whose keys
take one level each. Whatever is read, is read into fields whose values are regular, so that it can be written
again, and fits one level more.

* `MessageCodec.carries_fields`: fields as they are written, read as the map of their names;
* `MessageCodec.yields_readFields`: what fields are read, whatever the bytes;
* `MessageCodec.decodeRequest_requestEncoding`, `MessageCodec.decodeResponse_responseEncoding`: messages with an
  encoding, read from it;
* `MessageCodec.roundTrip`: **messages come back from their bytes**.
-/

namespace GraphServer

/-! ### Reading to the end -/

namespace Decode

variable {α β : Type}

/-- Reading takes exactly these bytes when nothing follows them. -/
def Finishes (d : Decode α) (bytes : Bytes) (x : α) : Prop :=
  ∀ position, ∃ c, d ⟨position, bytes⟩ = .ok x c

/-- One part that is read whatever follows it, before the rest. -/
lemma Reads.finishes_bind {d : Decode α} {f : α → Decode β} {front rest : Bytes} {x : α} {y : β}
    (hd : d.Reads front x) (hf : (f x).Finishes rest y) : (d >>= f).Finishes (front ++ rest) y := by
  intro position
  change ∃ c, EStateM.bind d f _ = _
  rw [EStateM.bind, hd]
  exact hf _

end Decode

namespace Encoding

variable {α β : Type} {a b : Encoding} {d : Decode α} {f : α → Decode β} {x : α} {y : β} {e : Error}

lemma Carries.finishes_bind (ha : a.Carries d True x e) (hf : (f x).Finishes b.bytes y) :
    (d >>= f).Finishes (a ++ b).bytes y := by
  rw [bytes_append ha.written]
  exact (ha.answers.reads trivial).finishes_bind hf

lemma carries_optional {write : α → Encoding} {read : Decode α} {o : Option α}
    (h : ∀ x ∈ o, (write x).Carries read True x e) :
    (MessageCodec.writeOptional write o).Carries (MessageCodec.readOptional read) True o e := by
  cases o with
  | none =>
    have h : (u8 ValueFlags.null ++ empty).Carries (MessageCodec.readOptional read) True none e :=
      (carries_u8 ValueFlags.null e).bind_of_true (carries_pure none e)
    rwa [append_empty] at h
  | some x => exact (carries_u8 ValueFlags.present e).bind_of_true ((h x rfl).map some)

end Encoding

/-! ### Fields -/

namespace Fields

/-- Fields whose values have, at every nesting, as many label sets as objects in each path. -/
def Even (f : Fields) : Prop :=
  ∀ e ∈ f.entries, e.2.Throughout Value.Even

/-- Fields that a reader of so many levels takes: one for the map, one more for the names and at least as many
more as any value nests to. -/
def Shallow (m : Nat) (f : Fields) : Prop :=
  1 ≤ m ∧ ∀ e ∈ f.entries, 2 ≤ m ∧ e.2.levels < m

instance (m : Nat) (f : Fields) : Decidable (f.Shallow m) :=
  inferInstanceAs (Decidable (1 ≤ m ∧ ∀ e ∈ f.entries, 2 ≤ m ∧ e.2.levels < m))

/-- Fields with an encoding. -/
structure WellFormed (f : Fields) : Prop where
  size_le : f.size ≤ maxLength
  keys : ∀ e ∈ f.entries, Value.Fits e.1
  values : ∀ e ∈ f.entries, e.2.WellFormed

/-- Fields as a reader of so many levels yields them. -/
structure Within (m : Nat) (f : Fields) : Prop where
  one_le : 1 ≤ m
  size_le : f.size ≤ maxLength
  keys : ∀ e ∈ f.entries, Value.Fits e.1
  values : ∀ e ∈ f.entries, e.2.Within m

variable {m : Nat} {f : Fields}

lemma Within.wellFormed (h : f.Within m) : f.WellFormed :=
  ⟨h.size_le, h.keys, fun e he => (h.values e he).wellFormed⟩

lemma Within.expanded_eq (h : f.Within m) : f.expanded = f :=
  expanded_eq_self fun e he => (h.values e he).expanded_eq

lemma Within.shallow (h : f.Within m) : f.Shallow (m + 1) :=
  ⟨Nat.le_add_left 1 m, fun e he => ⟨Nat.succ_le_succ h.one_le, Nat.lt_succ_of_le (h.values e he).levels_le⟩⟩

end Fields

/-- A request with every lone map entry in its arguments replaced by the map of that entry. -/
def Request.expanded (r : Request) : Request :=
  { r with args := r.args.expanded }

/-- A response with every lone map entry in it replaced by the map of that entry. -/
def Response.expanded (r : Response) : Response :=
  { r with attributes := r.attributes.expanded, metadata := r.metadata.expanded, data := r.data.expanded }

namespace MessageCodec

open Registry Encoding

variable {c d : MessageCodec}

lemma written_fields {f : Fields} : (writeFields standard f).error? = none ↔
    f.size ≤ maxLength ∧ ∀ e ∈ f.entries, Value.Fits e.1 ∧ (standard.write e.2).error? = none := by
  have hcount : (if f.size ≤ maxLength then chunk (Bytes.ofNat 4 f.size) else fault .mapTooLarge).error? =
      none ↔ f.size ≤ maxLength := by
    split
    next h => exact iff_of_true rfl h
    next h => exact iff_of_false (not_written_fault _) h
  rw [writeFields, written_append, hcount, written_each]
  refine and_congr_right' (forall₂_congr fun e _ => ?_)
  rw [writeField, written_append, written_append, written_string]
  exact and_congr_left' (and_iff_right rfl)

/-- Fields that are written have an encoding, if the paths in them are even. -/
lemma wellFormed_of_written {f : Fields} (heven : f.Even) (h : (writeFields standard f).error? = none) :
    f.WellFormed :=
  have h := written_fields.mp h
  ⟨h.1, fun e he => (h.2 e he).1, fun e he => Registry.wellFormed_of_written (heven e he) (h.2 e he).2⟩

lemma written_of_wellFormed {f : Fields} (h : f.WellFormed) : (writeFields standard f).error? = none :=
  written_fields.mpr ⟨h.size_le, fun e he => ⟨h.keys e he, (carries_write (h.values e he) 0).written⟩⟩

/-- A name and its value, as the entry of a map. -/
lemma carries_field {e : String × Value} (hkey : Value.Fits e.1) (hvalue : e.2.WellFormed) (limit m : Nat) :
    (writeField standard e).Carries (Serializer.readEntry (standard.readAt limit m))
      (1 ≤ m ∧ e.2.levels ≤ m) (.string e.1, e.2.expanded) (tooDeep limit) := by
  have key := (Serializer.nests_label hkey).carries limit m
  have value := (stands_writeAt hvalue (levelsFor e.2) (Nat.le_add_right _ _)).carries limit m
  exact key.bind (value.bind_pure _)

lemma four_le_field {e : String × Value} (hkey : Value.Fits e.1) (hvalue : e.2.WellFormed) :
    4 ≤ (writeField standard e).bytes.length := by
  have key := Serializer.nests_label hkey
  have value := stands_writeAt hvalue (levelsFor e.2) (Nat.le_add_right _ _)
  have hlen := (key.carries 0 0).length_bytes (standard.write e.2)
  have := key.two_le
  have := value.two_le
  change 4 ≤ ((Serializer.present .string ++ .string e.1) ++ standard.write e.2 : Encoding).bytes.length
  rw [hlen]
  change 4 ≤ _ + (standard.writeAt (levelsFor e.2) e.2).bytes.length
  omega

/-- Fields as they are written, read as the map of their names. -/
lemma carries_fields {f : Fields} (h : f.WellFormed) (limit m : Nat) :
    (writeFields standard f).Carries ((Serializer.map .encoded).readPayload (standard.readAt limit m))
      (∀ e ∈ f.entries, 1 ≤ m ∧ e.2.levels ≤ m)
      (.map (f.entries.map fun e => (.string e.1, e.2.expanded))) (tooDeep limit) := by
  have hcount : writeFields standard f = length f.size ++ each f.entries (writeField standard) := by
    rw [writeFields, length, if_pos h.size_le, if_pos h.size_le]
  rw [hcount]
  refine Carries.length_bind h.size_le ?_ ?_
  · refine length_each f.entries fun e he => ⟨?_, four_le_field (h.keys e he) (h.values e he)⟩
    exact (carries_field (h.keys e he) (h.values e he) 0 0).written
  · have heach := carries_each f.entries fun e he => carries_field (h.keys e he) (h.values e he) limit m
    exact heach.bind_pure Value.map

/-- Reading a map in its place takes one level for it. -/
lemma readBare_map (hc : c.registry = .standard) {m : Nat} (hm : c.maxDepth = m + 1) :
    c.registry.readBare c.maxDepth .map false =
      (Serializer.map .encoded).readPayload (standard.readAt (m + 1) m) := by
  rw [hc, hm]
  rfl

lemma mapM_fieldOf (entries : List (String × Value)) :
    (entries.map fun e => (Value.string e.1, e.2)).mapM fieldOf = pure entries := by
  induction entries with
  | nil => rfl
  | cons e rest ih =>
    rw [List.map_cons, List.mapM_cons, ih]
    rfl

/-- Fields are read from what is written of them by a reader that goes deep enough. -/
lemma carries_readFields (hd : d.registry = .standard) {f : Fields} (h : f.WellFormed)
    (shallow : f.Shallow d.maxDepth) :
    (writeFields standard f).Carries d.readFields True f.expanded (tooDeep d.maxDepth) := by
  obtain ⟨hone, hentries⟩ := shallow
  obtain ⟨m, hm⟩ := Nat.exists_eq_add_of_le' hone
  have payload := (carries_fields h (m + 1) m).congr (iff_true_intro fun e he => by
    have := hentries e he
    omega)
  rw [← readBare_map hd hm, ← hm] at payload
  have hread : (writeFields standard f ++ Encoding.empty).Carries d.readFields True f.expanded
      (tooDeep d.maxDepth) := by
    refine payload.bind_of_true ?_
    have hentries : (f.entries.map fun e => (Value.string e.1, e.2.expanded)) =
        f.expanded.entries.map fun e => (Value.string e.1, e.2) := by
      rw [Fields.expanded, List.map_map]
      rfl
    simp only [hentries, mapM_fieldOf, pure_bind, Fields.ofList_entries]
    exact carries_pure _ _
  rwa [append_empty] at hread

/-! ### What fields are read -/

/-- A map in its place, read as values that fit the levels of the reader. -/
lemma yields_readBare (hd : d.registry = .standard) : (d.registry.readBare d.maxDepth .map false).Yields fun v =>
    1 ≤ d.maxDepth ∧ v.Within (d.maxDepth + 1) := by
  cases hm : d.maxDepth with
  | zero =>
    rw [hd]
    exact Decode.yields_fault _
  | succ m =>
    rw [← hm, readBare_map hd hm, hm]
    have found : standard.find? .map = some (.map .encoded) := rfl
    have payload := Serializer.yields_payload found (Nat.le_add_left 1 m) (yields_readAt (m + 1) m)
    exact payload.mono fun v hv => ⟨Nat.le_add_left 1 m, hv⟩

lemma yields_fieldOf (e : Value × Value) : (fieldOf e).Yields fun named => e = (.string named.1, named.2) := by
  obtain ⟨key, value⟩ := e
  cases key with
  | string name => exact Decode.yields_pure rfl
  | _ => exact Decode.yields_fault _

lemma yields_readFields (hd : d.registry = .standard) : d.readFields.Yields (Fields.Within d.maxDepth) := by
  refine (yields_readBare hd).bind fun v ⟨hone, hv⟩ => ?_
  cases v with
  | map entries =>
    refine (Decode.yields_mapM yields_fieldOf entries).bind fun named ⟨hlen, hnamed⟩ => Decode.yields_pure ?_
    have hcount : named.length ≤ maxLength := hlen.trans_le hv.sized
    have inside (e : String × Value) (he : e ∈ (Fields.ofList named).entries) :
        Value.Fits e.1 ∧ e.2.Within d.maxDepth := by
      obtain ⟨_, hentry, rfl⟩ := hnamed e (Fields.mem_of_mem_ofList he)
      have hlevels := hv.levels_le
      rw [Value.levels, Nat.add_comm, Nat.add_le_add_iff_right, Value.levelsEntries_le] at hlevels
      have part (w : Value) (hw : w ∈ [Value.string e.1, e.2]) : w.Throughout Value.Regular :=
        hv.regular.of_mem_parts (List.mem_flatMap.mpr ⟨_, hentry, hw⟩)
      exact ⟨(part (.string e.1) (by simp)).here.1, part e.2 (by simp), (hlevels _ hentry).2⟩
    exact ⟨hone, (Fields.size_ofList_le named).trans hcount, fun e he => (inside e he).1,
      fun e he => (inside e he).2⟩
  | _ => exact Decode.yields_fault _

lemma mapM_fieldOf_eq_ok {entries : List (Value × Value)} {c after : Cursor} {named : List (String × Value)}
    (h : entries.mapM fieldOf c = .ok named after) :
    entries = named.map (fun e => (.string e.1, e.2)) ∧ after = c := by
  induction entries generalizing named after with
  | nil =>
    obtain ⟨rfl, rfl⟩ := EStateM.Result.ok.inj h
    exact ⟨rfl, rfl⟩
  | cons e rest ih =>
    rw [List.mapM_cons] at h
    obtain ⟨x, c₁, hx, h⟩ := Decode.bind_eq_ok h
    obtain ⟨xs, c₂, hxs, h⟩ := Decode.bind_eq_ok h
    obtain ⟨rfl, rfl⟩ := EStateM.Result.ok.inj h
    obtain ⟨key, value⟩ := e
    cases key with
    | string name =>
      obtain ⟨rfl, rfl⟩ := EStateM.Result.ok.inj hx
      obtain ⟨rfl, rfl⟩ := ih hxs
      exact ⟨rfl, rfl⟩
    | _ => cases hx

/-- Of a name that stands in the map more than once, the last value is kept. -/
lemma readFields_eq_ok {before after : Cursor} {f : Fields} (h : d.readFields before = .ok f after) :
    ∃ named : List (String × Value),
      d.registry.readBare d.maxDepth .map false before =
          .ok (.map (named.map fun e => (.string e.1, e.2))) after ∧
        ∀ key, f.get? key = named.reverse.lookup key := by
  obtain ⟨v, c₁, hv, h⟩ := Decode.bind_eq_ok h
  cases v with
  | map entries =>
    obtain ⟨named, c₂, hnamed, h⟩ := Decode.bind_eq_ok h
    obtain ⟨rfl, rfl⟩ := EStateM.Result.ok.inj h
    obtain ⟨rfl, rfl⟩ := mapM_fieldOf_eq_ok hnamed
    exact ⟨named, hv, Fields.get?_ofList named⟩
  | _ => cases h

/-! ### Requests -/

lemma carries_version (e : Error) : (u8 messageVersion).Carries readVersion True () e := by
  have h : (u8 messageVersion ++ Encoding.empty).Carries readVersion True () e :=
    (carries_u8 messageVersion e).bind_of_true (carries_pure () e)
  rwa [append_empty] at h

lemma carries_status (status : Status) (e : Error) : (int status.code).Carries readStatus True status e := by
  have h : (int status.code ++ Encoding.empty).Carries readStatus True status e := by
    refine (carries_int status.code e).bind_of_true ?_
    simp only [Status.ofCode?_code]
    exact carries_pure status e
  rwa [append_empty] at h

lemma finishes_readEnd {α : Type} (x : α) : (readEnd >>= fun _ => pure x : Decode α).Finishes [] x :=
  fun position => ⟨⟨position, []⟩, rfl⟩

lemma decode_of_finishes {α : Type} {d : Decode α} {bytes : Bytes} {x : α} (h : d.Finishes bytes x) :
    MessageCodec.decode d bytes = .ok x := by
  obtain ⟨c, hc⟩ := h 0
  rw [MessageCodec.decode, hc]

lemma of_decode {α : Type} {d : Decode α} {P : α → Prop} (hd : d.Yields P) {bytes : Bytes} {x : α}
    (h : MessageCodec.decode d bytes = .ok x) : P x := by
  rw [MessageCodec.decode] at h
  split at h
  next y c hy =>
    obtain rfl := Except.ok.inj h
    exact hd _ _ _ hy
  next => cases h

/-- The last part of a message, behind which nothing may be left. -/
lemma finishes_last {α β : Type} {d : Decode α} {bytes : Bytes} {x : α} (h : d.Reads bytes x) (g : α → β) :
    (do let x ← d; readEnd; return g x : Decode β).Finishes bytes (g x) := by
  have finishes := h.finishes_bind (f := fun x => do readEnd; return g x) (finishes_readEnd (g x))
  rwa [List.append_nil] at finishes

/-- A request is read from what is written of it by a reader that goes deep enough. -/
lemma decodeRequest_requestEncoding (hc : c.registry = .standard) (hd : d.registry = .standard) {r : Request}
    (op : Value.Fits r.op) (processor : Value.Fits r.processor) (args : r.args.WellFormed)
    (shallow : r.args.Shallow d.maxDepth) :
    d.decodeRequest (c.requestEncoding r).bytes = .ok r.expanded := by
  refine decode_of_finishes ?_
  rw [requestEncoding, hc]
  simp only [append_assoc]
  refine (carries_version .connectionClosed).finishes_bind ?_
  refine (carries_uuid r.id .connectionClosed).finishes_bind ?_
  refine (carries_string rfl op .connectionClosed).finishes_bind ?_
  refine (carries_string rfl processor .connectionClosed).finishes_bind ?_
  exact finishes_last ((carries_readFields hd args shallow).answers.reads trivial) fun args => { r with args }

lemma written_request (hc : c.registry = .standard) {r : Request} : (c.requestEncoding r).error? = none ↔
    (Value.Fits r.op ∧ Value.Fits r.processor) ∧ (writeFields standard r.args).error? = none := by
  rw [requestEncoding, hc, written_append, written_append, written_append, written_string, written_string]
  exact and_congr_left' (and_congr_left' (and_iff_right rfl))

lemma yields_readRequest (hd : d.registry = .standard) : d.readRequest.Yields fun r =>
    Value.Fits r.op ∧ Value.Fits r.processor ∧ r.args.Within d.maxDepth :=
  Decode.yields_bind fun _ => Decode.yields_bind fun _ => (Decode.yields_string _).bind fun _ hop =>
    (Decode.yields_string _).bind fun _ hprocessor => (yields_readFields hd).bind fun _ hargs =>
      Decode.yields_bind fun _ => Decode.yields_pure ⟨hop, hprocessor, hargs⟩

/-! ### Responses -/

/-- A response is read from what is written of it by a reader that goes deep enough. -/
lemma decodeResponse_responseEncoding (hc : c.registry = .standard) (hd : d.registry = .standard) {r : Response}
    (message : ∀ text ∈ r.message, Value.Fits text) (attributes : r.attributes.WellFormed)
    (metadata : r.metadata.WellFormed) (data : r.data.WellFormed)
    (attributesShallow : r.attributes.Shallow d.maxDepth) (metadataShallow : r.metadata.Shallow d.maxDepth)
    (dataShallow : r.data.levels ≤ d.maxDepth) :
    d.decodeResponse (c.responseEncoding r).bytes = .ok r.expanded := by
  refine decode_of_finishes ?_
  rw [responseEncoding, hc]
  simp only [append_assoc]
  refine (carries_version (tooDeep d.maxDepth)).finishes_bind ?_
  refine (carries_optional fun id _ => carries_uuid id (tooDeep d.maxDepth)).finishes_bind ?_
  refine (carries_status r.status (tooDeep d.maxDepth)).finishes_bind ?_
  refine (carries_optional fun text ht =>
    carries_string rfl (message text ht) (tooDeep d.maxDepth)).finishes_bind ?_
  refine (carries_readFields hd attributes attributesShallow).finishes_bind ?_
  refine (carries_readFields hd metadata metadataShallow).finishes_bind ?_
  rw [hd]
  exact finishes_last ((carries_write data d.maxDepth).answers.reads dataShallow) fun data =>
    { r.expanded with data }

lemma written_response (hc : c.registry = .standard) {r : Response} : (c.responseEncoding r).error? = none ↔
    (((∀ text ∈ r.message, Value.Fits text) ∧ (writeFields standard r.attributes).error? = none) ∧
      (writeFields standard r.metadata).error? = none) ∧ (standard.write r.data).error? = none := by
  have request : (u8 messageVersion ++ writeOptional uuid r.request ++ int r.status.code).error? = none := by
    cases r.request <;> rfl
  have message : (writeOptional string r.message).error? = none ↔ ∀ text ∈ r.message, Value.Fits text := by
    cases r.message with
    | none => exact iff_of_true rfl (by simp)
    | some text =>
      rw [writeOptional, written_append, written_string]
      simp [u8, chunk]
  rw [responseEncoding, hc, written_append, written_append, written_append, written_append, message]
  exact and_congr_left' (and_congr_left' (and_congr_left' (and_iff_right request)))

lemma yields_readOptional {α : Type} {read : Decode α} {P : α → Prop} (h : read.Yields P) :
    (readOptional read).Yields fun o => ∀ x ∈ o, P x := by
  refine Decode.yields_bind fun flags => ?_
  split
  · exact Decode.yields_pure (by simp)
  · exact h.map fun x hx => by simpa using hx

lemma yields_readResponse (hd : d.registry = .standard) : d.readResponse.Yields fun r =>
    (∀ text ∈ r.message, Value.Fits text) ∧ r.attributes.Within d.maxDepth ∧ r.metadata.Within d.maxDepth ∧
      r.data.Within (d.maxDepth + 1) := by
  refine Decode.yields_bind fun _ => Decode.yields_bind fun _ => Decode.yields_bind fun _ => ?_
  refine (yields_readOptional (Decode.yields_string _)).bind fun message hmessage => ?_
  refine (yields_readFields hd).bind fun attributes hattributes => ?_
  refine (yields_readFields hd).bind fun metadata hmetadata => ?_
  rw [hd]
  refine (yields_readAt d.maxDepth d.maxDepth).bind fun data hdata => Decode.yields_bind fun _ => ?_
  exact Decode.yields_pure ⟨hmessage, hattributes, hmetadata, hdata⟩

/-! ### There and back -/

/-- **Messages come back from their bytes.** With the standard serializers on both sides:

* a request that is encoded, whose paths are even, is decoded as it is with lone map entries replaced, where
  the depth allows for one level, for two if there are arguments, and for one more than each argument;
* so is a response that is encoded as it is, where the depth allows besides for its data;
* a request or a response that was decoded is encoded again, where the allocator has room for that, and is
  decoded from there as it is where the depth allows for one level more;
* the fields that are decoded hold the last value of each name in the map that was read. -/
theorem decodes_encoded (hc : c.registry = .standard) (hd : d.registry = .standard) {pool : Pool}
    (hp : pool.Sound) :
    (∀ (r : Request) (bytes : Bytes), r.args.Even → r.args.Shallow d.maxDepth →
      (c.encodeRequest pool r).1 = .ok bytes → d.decodeRequest bytes = .ok r.expanded) ∧
    (∀ r : Response, r.attributes.Even → r.metadata.Even → r.data.Throughout Value.Even →
      r.attributes.Shallow d.maxDepth → r.metadata.Shallow d.maxDepth → r.data.levels ≤ d.maxDepth →
      c.EncodesWhole pool r →
      ∃ bytes, (c.encodeResponse pool r).1 = .ok bytes ∧ d.decodeResponse bytes = .ok r.expanded) ∧
    (∀ (body : Bytes) (r : Request), d.decodeRequest body = .ok r →
      (c.requestEncoding r).bytes.length ≤ c.allocator.maxCapacity →
      ∃ bytes, (c.encodeRequest pool r).1 = .ok bytes ∧
        { d with maxDepth := d.maxDepth + 1 }.decodeRequest bytes = .ok r) ∧
    (∀ (body : Bytes) (r : Response), d.decodeResponse body = .ok r →
      (c.responseEncoding r).bytes.length ≤ c.allocator.maxCapacity →
      c.EncodesWhole pool r ∧ ∃ bytes, (c.encodeResponse pool r).1 = .ok bytes ∧
        { d with maxDepth := d.maxDepth + 1 }.decodeResponse bytes = .ok r) ∧
    ∀ (before after : Cursor) (f : Fields), d.readFields before = .ok f after →
      ∃ named : List (String × Value),
        d.registry.readBare d.maxDepth .map false before =
          .ok (.map (named.map fun e => (.string e.1, e.2))) after ∧
        ∀ key, f.get? key = named.reverse.lookup key := by
  refine ⟨fun r bytes even shallow h => ?_, fun r heven hmeta hdata hattributes hmetadata hlevels h => ?_,
    fun body r h room => ?_, fun body r h room => ?_, fun before after f => readFields_eq_ok⟩
  · obtain ⟨written, rfl⟩ := encodeRequest_eq_ok hp h
    obtain ⟨⟨op, processor⟩, args⟩ := (written_request hc).mp written
    exact decodeRequest_requestEncoding hc hd op processor (wellFormed_of_written even args) shallow
  · obtain ⟨written, hencode⟩ := h.encodeResponse_eq hp
    obtain ⟨⟨⟨message, attributes⟩, metadata⟩, data⟩ := (written_response hc).mp written
    exact ⟨_, hencode, decodeResponse_responseEncoding hc hd message (wellFormed_of_written heven attributes)
      (wellFormed_of_written hmeta metadata) (Registry.wellFormed_of_written hdata data) hattributes hmetadata
      hlevels⟩
  · obtain ⟨op, processor, args⟩ := of_decode (yields_readRequest hd) h
    have written := (written_request hc).mpr ⟨⟨op, processor⟩, written_of_wellFormed args.wellFormed⟩
    have again := decodeRequest_requestEncoding (d := { d with maxDepth := d.maxDepth + 1 }) hc hd op processor
      args.wellFormed args.shallow
    rw [Request.expanded, args.expanded_eq] at again
    exact ⟨_, exists_encodeRequest hp written room, again⟩
  · obtain ⟨message, attributes, metadata, data⟩ := of_decode (yields_readResponse hd) h
    have written := (written_response hc).mpr ⟨⟨⟨message, written_of_wellFormed attributes.wellFormed⟩,
      written_of_wellFormed metadata.wellFormed⟩, (carries_write data.wellFormed 0).written⟩
    have again := decodeResponse_responseEncoding (d := { d with maxDepth := d.maxDepth + 1 }) hc hd message
      attributes.wellFormed metadata.wellFormed data.wellFormed attributes.shallow metadata.shallow data.levels_le
    rw [Response.expanded, attributes.expanded_eq, metadata.expanded_eq, data.expanded_eq] at again
    have whole := encodesWhole_of_room hp written room
    exact ⟨whole, _, (whole.encodeResponse_eq hp).2, again⟩

/-- A request whose argument is a lone map entry. -/
def entryRequest : Request :=
  ⟨⟨0, 1⟩, "eval", "", Fields.empty.insert "a" (.mapEntry (.string "k") (.set []))⟩

/-- A response without a request, with an empty message and a path. -/
def pathResponse : Response where
  request := none
  status := .partialContent
  message := some ""
  metadata := Fields.empty.insert "n" (.int 7)
  data := .path ⟨[[]], [.null]⟩

theorem decodes_encoded_samples :
    ∃ request response, (encodeRequest { maxDepth := 3 } (Pool.make 8 1 false) entryRequest).1 = .ok request ∧
      decodeRequest { maxDepth := 3 } request = .ok entryRequest.expanded ∧
      (encodeResponse { maxDepth := 3 } (Pool.make 8 1 false) pathResponse).1 = .ok response ∧
      decodeResponse { maxDepth := 3 } response = .ok pathResponse.expanded ∧
      decodeResponse { maxDepth := 4 } response = .ok pathResponse := by
  obtain ⟨requests, responses, -, responsesAgain, -⟩ :=
    decodes_encoded (c := { maxDepth := 3 }) (d := { maxDepth := 3 }) rfl rfl (.make 8 1 false)
  have leaf (v : Value) (even : v.Even) (h : v.parts = []) : v.Throughout Value.Even := .leaf even h
  have argsEven : entryRequest.args.Even := by
    refine List.forall_mem_singleton.mpr (.intro trivial ?_)
    simp only [Value.parts, List.forall_mem_cons]
    exact ⟨leaf _ trivial rfl, leaf _ trivial rfl, by simp⟩
  have metadataEven : pathResponse.metadata.Even := List.forall_mem_singleton.mpr (leaf _ trivial rfl)
  have dataEven : pathResponse.data.Throughout Value.Even :=
    .intro rfl (List.forall_mem_singleton.mpr (leaf _ trivial rfl))
  have request := requests entryRequest _ argsEven (by decide) rfl
  have attributesEven : pathResponse.attributes.Even := List.forall_mem_nil _
  obtain ⟨response, encoded, decoded⟩ := responses pathResponse attributesEven metadataEven dataEven (by decide)
    (by decide) (by decide) rfl
  obtain ⟨-, response', encoded', decoded'⟩ := responsesAgain response pathResponse decoded (by decide)
  obtain rfl := Except.ok.inj (encoded.symm.trans encoded')
  exact ⟨_, response, rfl, request, encoded, decoded, decoded'⟩

end MessageCodec

end GraphServer
