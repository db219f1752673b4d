import GraphServer.Codec.Transfer
import GraphServer.Proofs.Buffer.Unread
import GraphServer.Proofs.Codec.Composite

/-!
The round trip of values through a buffer, with the exact depth at which it works.

* `Registry.stands_writeAt`: every well-formed value stands, as it is written, for what it is expanded to, by
  induction on its parts: they are written at one level less, and read at one level less;
* `Buffer.exists_emit`, `Buffer.emitted`, `Buffer.decode_of_reads`: encodings into a buffer and out of it;
* `Value.WellFormed.roundTrip`: **values survive a buffer, to exactly their depth**.
-/

namespace GraphServer.Registry

open Serializer

/-! ### Writing a value -/

/-- A value with an encoding of its own is not replaced. -/
lemma resolve_eq {r : Registry} {v : Value} {s : Serializer} (hs : r.find? v.kind = some s)
    (htransform : s.transform v = none) (hv : v.isNull = false) (steps : Nat) :
    r.resolve steps v = .ok (some (s, v)) := by
  have hget : r.get v.kind = .ok s := by rw [get, hs]
  unfold resolve
  simp only [hv, hget, htransform, Bool.false_eq_true, ↓reduceIte]

/-- A value with an encoding of its own is written as its header and its payload. -/
lemma writeAt_succ {r : Registry} {v : Value} {s : Serializer} (hs : r.find? v.kind = some s)
    (htransform : s.transform v = none) (hv : v.isNull = false) (n : Nat) :
    r.writeAt (n + 1) v = present v.kind ++ s.writePayload (r.writeAt n) v := by
  rw [writeAt, resolve_eq hs htransform hv]
  simp only [Serializer.write, writeNullable, hv, r.kind_of_find? hs, present, Encoding.append_assoc,
    Bool.false_eq_true, ↓reduceIte]

lemma writeAt_null (r : Registry) {v : Value} (hv : v.isNull = true) (n : Nat) : r.writeAt n v = nullEncoding := by
  cases n <;> rw [writeAt, resolve, if_pos hv]

lemma writeAt_mapEntry (n : Nat) (key value : Value) :
    standard.writeAt (n + 1) (.mapEntry key value) = standard.writeAt (n + 1) (.map [(key, value)]) := rfl

/-- A value stands for what it is expanded to when its payload does, written at one level less. -/
lemma stands_of_fills {v : Value} {s : Serializer} (hs : standard.find? v.kind = some s)
    (htransform : s.transform v = none) (hv : v.isNull = false) {levels : Nat} (hlevels : v.levels = 1 + levels)
    {n : Nat} (hn : v.levels ≤ n)
    (h : ∀ n, levels ≤ n → Fills s (s.writePayload (standard.writeAt n) v) levels v.expanded) :
    Stands (standard.writeAt n) v := by
  obtain ⟨n, rfl⟩ := Nat.exists_eq_succ_of_ne_zero (by omega : n ≠ 0)
  rw [Stands, writeAt_succ hs htransform hv, hlevels]
  exact (h n (by omega)).nests hs

/-- A value without values inside it takes one level. -/
lemma stands_leaf {kind : Kind} {d : Decode Value} {write? : Value → Option Encoding} {enc : Encoding}
    {v : Value} (hs : standard.find? v.kind = some (leaf kind d write?)) (hv : v.isNull = false)
    (hlevels : v.levels = 1) (hwrite : write? v = some enc) (h : ∀ e, enc.Carries d True v.expanded e) {n : Nat}
    (hn : v.levels ≤ n) : Stands (standard.writeAt n) v := by
  refine stands_of_fills hs rfl hv (hlevels.trans (Nat.add_zero 1).symm) hn fun n _ limit m => ?_
  simp only [leaf, hwrite]
  exact (h _).congr (by simp)

lemma carries_duration (seconds : Int64) (nanos : Int32) (e : Error) :
    (.long seconds ++ .int nanos : Encoding).Carries
      (do
        let seconds ← Decode.long
        let nanos ← Decode.int
        return Value.duration seconds nanos) True (.duration seconds nanos) e :=
  (Encoding.carries_long seconds e).bind_of_true ((Encoding.carries_int nanos e).bind_pure _)

lemma carries_byteBuffer {bytes : Bytes} (h : bytes.length ≤ maxLength) (e : Error) :
    (.length bytes.length ++ .chunk bytes : Encoding).Carries
      (do
        let n ← Decode.length .encoded .byteBuffer
        let bytes ← Decode.take .readVec n
        return Value.byteBuffer bytes) True (.byteBuffer bytes) e := by
  refine Encoding.Carries.length_bind h (by rw [Encoding.bytes_chunk]; exact (Nat.mul_one _).le) ?_
  exact (Encoding.carries_chunk (Decode.reads_take .readVec bytes) e).bind_pure _

/-- A property is attached as it is written alone. -/
lemma standsAttached {p : Property Value} {n : Nat} (h : Stands (standard.writeAt (n + 1)) (.property p)) :
    StandsAttached (standard.writeAt n) p := by
  have hwritten : standard.writeAt (n + 1) (.property p) =
      present .property ++ writeProperty (standard.writeAt n) p :=
    writeAt_succ (v := .property p) (s := property .encoded) rfl rfl rfl n
  rw [Stands, hwritten] at h
  exact h

lemma nests_vertexProperty {p : VertexProperty Value} {n : Nat}
    (h : Stands (standard.writeAt (n + 1)) (.vertexProperty p)) :
    Nests (present .vertexProperty ++ writeVertexProperty (standard.writeAt n) p)
      (Value.vertexProperty p).levels (.vertexProperty (Value.expandedVertexProperty p)) := by
  have hwritten : standard.writeAt (n + 1) (.vertexProperty p) =
      present .vertexProperty ++ writeVertexProperty (standard.writeAt n) p :=
    writeAt_succ (v := .vertexProperty p) (s := vertexProperty .encoded) rfl rfl rfl n
  rw [Stands, hwritten] at h
  exact h

/-- Properties inside a value that is written at one level more. -/
lemma standsAttached_of_mem {properties : List (Property Value)} {n : Nat}
    (hn : Value.levelsProperties properties ≤ n)
    (ih : ∀ p ∈ properties, ∀ n, (Value.property p).levels ≤ n → Stands (standard.writeAt n) (.property p)) :
    ∀ p ∈ properties, StandsAttached (standard.writeAt n) p := by
  intro p hp
  have hlevels := Value.levelsProperties_le.mp hn p hp
  exact standsAttached (ih p hp (n + 1) (by omega))

/-- The payload of a map, written at one level less than the map. -/
lemma stands_entries {entries : List (Value × Value)} (hlen : entries.length ≤ maxLength) {n : Nat}
    (h : ∀ e ∈ entries, Stands (standard.writeAt n) e.1 ∧ Stands (standard.writeAt n) e.2) :
    Nests (standard.writeAt (n + 1) (.map entries)) (1 + Value.levelsEntries entries)
      (.map (entries.map fun e => (e.1.expanded, e.2.expanded))) := by
  rw [writeAt_succ (r := standard) (s := map .encoded) rfl rfl rfl]
  exact (carries_map hlen h).nests rfl

/-- **Every well-formed value stands, as it is written, for what it is expanded to.** -/
theorem stands_writeAt {v : Value} (h : v.WellFormed) (n : Nat) (hn : v.levels ≤ n) :
    Stands (standard.writeAt n) v := by
  induction h generalizing n with
  | @intro v sized _ ih =>
    cases v with
    | null =>
      rw [Stands, standard.writeAt_null rfl]
      exact nests_null
    | boolean b => exact stands_leaf rfl rfl rfl rfl (fun e => (Encoding.carries_bool b e).map _) hn
    | byte k => exact stands_leaf rfl rfl rfl rfl (fun e => (Encoding.carries_byte k e).map _) hn
    | short k => exact stands_leaf rfl rfl rfl rfl (fun e => (Encoding.carries_short k e).map _) hn
    | int k => exact stands_leaf rfl rfl rfl rfl (fun e => (Encoding.carries_int k e).map _) hn
    | long k => exact stands_leaf rfl rfl rfl rfl (fun e => (Encoding.carries_long k e).map _) hn
    | float bits => exact stands_leaf rfl rfl rfl rfl (fun e => (Encoding.carries_float bits e).map _) hn
    | double bits => exact stands_leaf rfl rfl rfl rfl (fun e => (Encoding.carries_double bits e).map _) hn
    | char c => exact stands_leaf rfl rfl rfl rfl (fun e => (Encoding.carries_char c e).map _) hn
    | string s => exact stands_leaf rfl rfl rfl rfl (fun e => (Encoding.carries_string rfl sized e).map _) hn
    | uuid id => exact stands_leaf rfl rfl rfl rfl (fun e => (Encoding.carries_uuid id e).map _) hn
    | date k => exact stands_leaf rfl rfl rfl rfl (fun e => (Encoding.carries_long k e).map _) hn
    | timestamp k => exact stands_leaf rfl rfl rfl rfl (fun e => (Encoding.carries_long k e).map _) hn
    | duration seconds nanos => exact stands_leaf rfl rfl rfl rfl (carries_duration seconds nanos) hn
    | class_ s => exact stands_leaf rfl rfl rfl rfl (fun e => (Encoding.carries_string rfl sized e).map _) hn
    | byteBuffer bytes => exact stands_leaf rfl rfl rfl rfl (carries_byteBuffer sized) hn
    | list items =>
      refine stands_of_fills rfl rfl rfl rfl hn fun n hn limit m => ?_
      have hitems := Value.levelsItems_le.mp hn
      rw [Value.expanded, Value.expandedItems_eq]
      exact (carries_items rfl sized (fun v hv => ih v hv n (hitems v hv)) limit m).map Value.list
    | set items =>
      refine stands_of_fills rfl rfl rfl rfl hn fun n hn limit m => ?_
      have hitems := Value.levelsItems_le.mp hn
      rw [Value.expanded, Value.expandedItems_eq]
      exact (carries_items rfl sized (fun v hv => ih v hv n (hitems v hv)) limit m).map Value.set
    | map entries =>
      refine stands_of_fills rfl rfl rfl rfl hn fun n hn => ?_
      have hentries := Value.levelsEntries_le.mp hn
      rw [Value.expanded, Value.expandedEntries_eq]
      exact carries_map sized fun e he =>
        ⟨ih _ (List.mem_flatMap.mpr ⟨e, he, by simp⟩) n (hentries e he).1,
          ih _ (List.mem_flatMap.mpr ⟨e, he, by simp⟩) n (hentries e he).2⟩
    | mapEntry key value =>
      -- written as the map of the entry, which nests as deep
      obtain ⟨n, rfl⟩ := Nat.exists_eq_add_of_le' (Nat.le_trans (Nat.le_add_right 1 _) hn)
      have hlevels : (Value.mapEntry key value).levels = 1 + Value.levelsEntries [(key, value)] := by
        simp only [Value.levels, Value.levelsEntries, Value.levelsEntry, Nat.max_zero]
      have hentries := Value.levelsEntries_le.mp (show Value.levelsEntries [(key, value)] ≤ n by omega)
      rw [Stands, writeAt_mapEntry, hlevels]
      exact stands_entries (by simp [maxLength]) fun e he => by
        obtain rfl := List.mem_singleton.mp he
        exact ⟨ih key (by simp [Value.parts]) n (hentries _ he).1, ih value (by simp [Value.parts]) n (hentries _ he).2⟩
    | vertex v =>
      obtain ⟨id, label, properties⟩ := v
      refine stands_of_fills rfl rfl rfl rfl hn fun n hn => ?_
      obtain ⟨hid, hproperties⟩ := max_le_iff.mp hn
      refine fills_vertex (ih _ (by simp [Value.parts]) n hid) sized.1 sized.2 fun p hp => ?_
      have hlevels := Value.levelsVertexProperties_le.mp hproperties p hp
      exact nests_vertexProperty (ih _ (by simp [Value.parts, hp]) (n + 1) (by omega))
    | edge d =>
      obtain ⟨id, label, ⟨inId, inLabel⟩, ⟨outId, outLabel⟩, properties⟩ := d
      refine stands_of_fills rfl rfl rfl rfl hn fun n hn => ?_
      obtain ⟨hid, hproperties⟩ := max_le_iff.mp (max_le_iff.mp hn).1
      obtain ⟨hin, hout⟩ := max_le_iff.mp (max_le_iff.mp hn).2
      obtain ⟨hlabel, hinLabel, houtLabel, hlen⟩ := sized
      exact fills_edge (ih _ (by simp [Value.parts]) n hid) hlabel (ih _ (by simp [Value.parts]) n hin) hinLabel
        (ih _ (by simp [Value.parts]) n hout) houtLabel hlen
        (standsAttached_of_mem hproperties fun p hp => ih _ (by simp [Value.parts, hp]))
    | vertexProperty p =>
      obtain ⟨id, label, value, properties⟩ := p
      refine stands_of_fills rfl rfl rfl rfl hn fun n hn => ?_
      obtain ⟨hid, hrest⟩ := max_le_iff.mp hn
      obtain ⟨hvalue, hproperties⟩ := max_le_iff.mp hrest
      exact fills_vertexProperty (ih _ (by simp [Value.parts]) n hid) sized.1 (ih _ (by simp [Value.parts]) n hvalue)
        sized.2 (standsAttached_of_mem hproperties fun q hq => ih _ (by simp [Value.parts, hq]))
    | property p =>
      obtain ⟨key, value⟩ := p
      refine stands_of_fills rfl rfl rfl rfl hn fun n hn => ?_
      exact fills_property sized (ih _ (by simp [Value.parts]) n hn)
    | path p =>
      obtain ⟨labels, objects⟩ := p
      refine stands_of_fills rfl rfl rfl rfl hn fun n hn => ?_
      obtain ⟨hsame, hlen, hsteps⟩ := sized
      have hobjects := Value.levelsItems_le.mp (Nat.le_trans (Nat.le_add_left _ 1) (max_le_iff.mp hn).2)
      exact fills_path hsame hlen hsteps fun v hv => ih v hv n (hobjects v hv)
    | traverser t =>
      obtain ⟨bulk, value⟩ := t
      refine stands_of_fills rfl rfl rfl rfl hn fun n hn => ?_
      exact fills_traverser (ih _ (by simp [Value.parts]) n hn)
    | bulkSet items =>
      refine stands_of_fills rfl rfl rfl rfl hn fun n hn => ?_
      have hitems := Value.levelsCounted_le.mp hn
      rw [Value.expanded, Value.expandedCounted_eq]
      exact carries_bulkSet sized fun e he => ih _ (List.mem_map.mpr ⟨e, he, rfl⟩) n (hitems e he)

/-- What is written of a well-formed value, and how it is read at each depth. -/
lemma carries_write {v : Value} (h : v.WellFormed) (m : Nat) :
    (standard.write v).Carries (standard.read m) (v.levels ≤ m) v.expanded (tooDeep m) :=
  (stands_writeAt h (levelsFor v) (Nat.le_add_right _ _)).carries m m

end GraphServer.Registry

/-! ### Through a buffer -/

namespace GraphServer

namespace Buffer

variable {b : Buffer} {pool : Pool}

/-- Chunks for which there is room are all written. -/
lemma exists_writeChunks (hp : pool.Sound) (chunks : List Bytes) (room : b.HasRoom chunks.flatten.length) :
    ∃ b' pool', b.writeChunks pool chunks = (b', pool', none) ∧ b'.unread = b.unread ++ chunks.flatten ∧
      b'.reader = b.reader ∧ b'.references = b.references := by
  induction chunks generalizing b pool with
  | nil => exact ⟨b, pool, rfl, by simp, rfl, rfl⟩
  | cons bytes rest ih =>
    have hle := room.le_limit
    rw [List.flatten_cons, List.length_append] at hle
    have front : b.HasRoom bytes.length := ⟨room.live, by omega⟩
    obtain ⟨b₁, pool₁, hw⟩ := exists_write front pool
    have first := write_spec hp hw
    have live : b₁.references ≠ 0 := first.references_eq ▸ room.live
    have left : b₁.writer + rest.flatten.length ≤ b₁.limit := by
      have hlimit := first.limit_le
      rw [first.writer_eq]
      omega
    obtain ⟨b₂, pool₂, hchunks, hunread, hreader, hreferences⟩ := ih first.sound ⟨live, left⟩
    refine ⟨b₂, pool₂, by rw [writeChunks, hw]; exact hchunks, ?_, hreader.trans first.reader_eq,
      hreferences.trans first.references_eq⟩
    rw [hunread, first.unread_eq, List.flatten_cons, List.append_assoc]

/-- An encoding that does not give up is written whole where there is room for it. -/
lemma exists_emit (hp : pool.Sound) {enc : Encoding} (written : enc.error? = none)
    (room : b.HasRoom enc.bytes.length) :
    ∃ b' pool', b.emit pool enc = (b', pool', none) ∧ b'.unread = b.unread ++ enc.bytes ∧
      b'.reader = b.reader ∧ b'.references = b.references := by
  obtain ⟨b', pool', hchunks, hrest⟩ := exists_writeChunks hp enc.chunks room
  exact ⟨b', pool', by rw [emit, hchunks]; exact congrArg _ (congrArg _ written), hrest⟩

/-- Chunks that were all written are appended to what is unread. -/
lemma writtenChunks (hp : pool.Sound) {chunks : List Bytes} {b' : Buffer} {pool' : Pool}
    (h : b.writeChunks pool chunks = (b', pool', none)) :
    b'.unread = b.unread ++ chunks.flatten ∧ b'.references = b.references := by
  induction chunks generalizing b pool with
  | nil =>
    obtain ⟨rfl, -⟩ := Prod.mk.inj h
    exact ⟨(List.append_nil _).symm, rfl⟩
  | cons bytes rest ih =>
    rw [writeChunks] at h
    cases hw : b.write pool bytes with
    | error e =>
      rw [hw] at h
      cases h
    | ok r =>
      rw [hw] at h
      have first := write_spec hp hw
      obtain ⟨hunread, hreferences⟩ := ih first.sound h
      rw [hunread, first.unread_eq, List.flatten_cons, List.append_assoc]
      exact ⟨rfl, hreferences.trans first.references_eq⟩

/-- An encoding that was written whole did not give up and is appended to what is unread. -/
lemma emitted (hp : pool.Sound) {enc : Encoding} {b' : Buffer} {pool' : Pool}
    (h : b.emit pool enc = (b', pool', none)) :
    enc.error? = none ∧ b'.unread = b.unread ++ enc.bytes ∧ b'.references = b.references := by
  rw [emit] at h
  split at h
  next => cases h
  next hchunks =>
    obtain ⟨rfl, houtcome⟩ := Prod.mk.inj h
    exact ⟨(Prod.mk.inj houtcome).2, writtenChunks hp hchunks⟩

/-- Reading bytes at the front of what is unread. -/
lemma decode_of_reads {α : Type} (live : b.references ≠ 0) {d : Decode α} {front rest : Bytes} {x : α}
    (hd : d.Reads front x) (h : b.unread = front ++ rest) :
    b.decode d = (.ok x, b.advance front.length) ∧ (b.advance front.length).unread = rest := by
  have hcursor : b.cursor = ⟨b.reader, front ++ rest⟩ := congrArg _ h
  rw [decode, ensureLive, if_neg live, hcursor]
  simp only [hd b.reader rest]
  exact ⟨by rw [Nat.add_sub_cancel_left], (read_append live h .readVec).2⟩

lemma decode_of_refuses {α : Type} (live : b.references ≠ 0) {d : Decode α} {front rest : Bytes} {e : Error}
    (hd : d.Refuses front e) (h : b.unread = front ++ rest) : (b.decode d).1 = .error e := by
  have hcursor : b.cursor = ⟨b.reader, front ++ rest⟩ := congrArg _ h
  obtain ⟨c, hc⟩ := hd b.reader rest
  rw [decode, ensureLive, if_neg live, hcursor]
  simp only [hc]

end Buffer

/-- **Values survive a buffer, to exactly their depth.** A well-formed value is written whole into every live
buffer with room for its encoding. Wherever that encoding stands at the front of the unread bytes, whatever
follows it, a reader that may go as deep as the value nests takes exactly the encoding and yields the value
with its lone map entries expanded, and one that may not go so deep fails with the report of that. -/
theorem Value.WellFormed.roundTrip {v : Value} (h : v.WellFormed) :
    (∀ (b : Buffer) (pool : Pool), pool.Sound → b.HasRoom (Registry.standard.write v).bytes.length →
      ∃ b' pool', b.emit pool (Registry.standard.write v) = (b', pool', none) ∧
        b'.unread = b.unread ++ (Registry.standard.write v).bytes ∧ b'.reader = b.reader ∧
        b'.references = b.references) ∧
    ∀ (b : Buffer) (rest : Bytes) (m : Nat), b.references ≠ 0 →
      b.unread = (Registry.standard.write v).bytes ++ rest →
      (v.levels ≤ m →
        b.decode (Registry.standard.read m) =
            (.ok v.expanded, b.advance (Registry.standard.write v).bytes.length) ∧
          (b.advance (Registry.standard.write v).bytes.length).unread = rest) ∧
      (m < v.levels →
        (b.decode (Registry.standard.read m)).1 = .error (.serialization (.nestedTooDeep m))) := by
  have carries := Registry.carries_write h
  refine ⟨fun b pool hp room => Buffer.exists_emit hp (carries 0).written room, fun b rest m live hb => ⟨?_, ?_⟩⟩
  · exact fun hle => Buffer.decode_of_reads live ((carries m).answers.reads hle) hb
  · exact fun hlt => Buffer.decode_of_refuses live ((carries m).answers.refuses (by omega)) hb

/-- A list of a lone map entry, a vertex with a property that has one itself, and a path. -/
def Value.nestedSample : Value :=
  .list [.mapEntry (.string "k") (.double 0x7FF8000000000001),
    .vertex ⟨.int 1, "person", [⟨.long 2, "name", .string "x", [⟨"since", .null⟩]⟩]⟩,
    .path ⟨[["a", "b"], []], [.null, .set []]⟩]

lemma Value.WellFormed.leaf {v : Value} (sized : v.Sized) (h : v.parts = []) : v.WellFormed :=
  .intro sized fun w hw => by simp [h] at hw

lemma Value.nestedSample_wellFormed : nestedSample.WellFormed := by
  have short (s : String) (h : (Utf8.encode s).length ≤ 8) : Fits s := h.trans (by decide)
  have int : (Value.int 1).WellFormed := .leaf trivial rfl
  have long : (Value.long 2).WellFormed := .leaf trivial rfl
  have null : Value.null.WellFormed := .leaf trivial rfl
  have double : (Value.double 0x7FF8000000000001).WellFormed := .leaf trivial rfl
  have x : (Value.string "x").WellFormed := .leaf (short "x" (by decide)) rfl
  have k : (Value.string "k").WellFormed := .leaf (short "k" (by decide)) rfl
  have noItems : (Value.set []).WellFormed := .leaf (Nat.zero_le _) rfl
  have since : (Value.property ⟨"since", .null⟩).WellFormed :=
    .intro (short "since" (by decide)) (by simp [parts, null])
  have name : (Value.vertexProperty ⟨.long 2, "name", .string "x", [⟨"since", .null⟩]⟩).WellFormed :=
    .intro ⟨short "name" (by decide), by decide⟩ (by simp [parts, long, x, since])
  have person : (Value.vertex ⟨.int 1, "person", [⟨.long 2, "name", .string "x", [⟨"since", .null⟩]⟩]⟩).WellFormed :=
    .intro ⟨short "person" (by decide), by decide⟩ (by simp [parts, int, name])
  have walk : (Value.path ⟨[["a", "b"], []], [.null, .set []]⟩).WellFormed := by
    refine .intro ⟨rfl, by decide, ?_⟩ (by simp [parts, null, noItems])
    simp [maxLength, short "a" (by decide), short "b" (by decide)]
  have entry : (Value.mapEntry (.string "k") (.double 0x7FF8000000000001)).WellFormed :=
    .intro trivial (by simp [parts, k, double])
  exact .intro (show 3 ≤ maxLength by decide) (by simp [nestedSample, parts, entry, person, walk])

theorem Value.WellFormed.roundTrip_nestedSample :
    Value.nestedSample.WellFormed ∧ Value.nestedSample.levels = 6 ∧
      ∃ b pool, (Buffer.fixed (Registry.standard.write Value.nestedSample).bytes.length).emit
          (Pool.make 1 0 false) (Registry.standard.write Value.nestedSample) = (b, pool, none) ∧
        (b.decode (Registry.standard.read 6)).1 = .ok Value.nestedSample.expanded ∧
        (b.decode (Registry.standard.read 5)).1 = .error (.serialization (.nestedTooDeep 5)) := by
  have wellFormed := Value.nestedSample_wellFormed
  have levels : Value.nestedSample.levels = 6 := by decide
  have room (n : Nat) : (Buffer.fixed n).HasRoom n :=
    ⟨Nat.one_ne_zero, by simp [Buffer.fixed, Buffer.ofSegments, Buffer.limit, totalLength]⟩
  have empty (n : Nat) : (Buffer.fixed n).unread = [] := by
    rw [← List.length_eq_zero_iff, Buffer.length_unread]
    rfl
  obtain ⟨written, readable⟩ := wellFormed.roundTrip
  obtain ⟨b, pool, hemit, hunread, -, hreferences⟩ := written (.fixed _) _ (.make 1 0 false) (room _)
  rw [empty, List.nil_append] at hunread
  have live : b.references ≠ 0 := hreferences ▸ Nat.one_ne_zero
  have read (m : Nat) := readable b [] m live (by rw [hunread, List.append_nil])
  refine ⟨wellFormed, levels, b, pool, hemit, ?_, ?_⟩
  · rw [((read 6).1 (by omega)).1]
  · exact (read 5).2 (by omega)

end GraphServer
