import GraphServer.Proofs.Buffer.Refinement
import GraphServer.Proofs.Buffer.Unread
import GraphServer.Proofs.Words

/-!
Sequences of typed values through a buffer, and views of what is written.

* `Buffer.viewsOf_spec`: a written span falls into at least one piece and at most one for each segment, and is
  borrowed exactly when it is one piece;
* `Buffer.perform_writes`: typed values are all written when there is room;
* `Buffer.perform_reads`: what stands at the front of the unread bytes is read back, value by value.
-/

namespace GraphServer

/-! ### Views -/

lemma length_slices_le (segments : List Bytes) (index length : Nat) :
    (slices segments index length).length ≤ segments.length := by
  induction segments generalizing index length with
  | nil => exact le_rfl
  | cons s rest ih =>
    rw [slices]
    split
    · exact Nat.zero_le _
    · split
      · exact (ih _ _).trans (Nat.le_succ _)
      · exact Nat.succ_le_succ (ih _ _)

namespace Buffer

variable {b : Buffer} {pool : Pool}

/-- The views of a written span: at least one piece and at most one for each segment, joining to the span,
and borrowed exactly when there is one. -/
structure Viewed (b : Buffer) (index length : Nat) (pieces : List Bytes) (v : View) : Prop where
  viewsOf_eq : b.viewsOf index length = .ok pieces
  viewOf_eq : b.viewOf index length = .ok v
  one_le : 1 ≤ pieces.length
  le_segments : pieces.length ≤ b.segments.length
  flatten_eq : pieces.flatten = b.flat.span index length
  bytes_eq : v.bytes = b.flat.span index length
  borrowed_iff : v.borrowed = true ↔ pieces.length = 1

lemma exists_viewed (live : b.references ≠ 0) {index length : Nat} (h : index + length ≤ b.writer) :
    ∃ pieces v, b.Viewed index length pieces v := by
  have hjoin : (slices b.segments index length).flatten = b.flat.span index length :=
    flatten_slices b.segments index length
  have hcount := length_slices_le b.segments index length
  have hview (pieces : List Bytes) (hp : b.viewsOf index length = .ok pieces) :
      b.viewOf index length = .ok ⟨pieces.flatten, pieces.length == 1⟩ := by
    rw [viewOf, hp]
    rfl
  have hcheck : checkSpan .views index length b.writer = .ok () := by
    rw [checkSpan, if_pos h]
  cases hs : slices b.segments index length with
  | nil =>
    have hviews : b.viewsOf index length = .ok [[]] := by
      rw [viewsOf, ensureLive, if_neg live, hcheck, hs]
      rfl
    rw [hs] at hjoin
    refine ⟨[[]], _, hviews, hview _ hviews, le_rfl, ?_, hjoin, hjoin, by simp⟩
    exact List.length_pos_of_ne_nil b.segments_ne
  | cons s rest =>
    have hviews : b.viewsOf index length = .ok (s :: rest) := by
      rw [viewsOf, ensureLive, if_neg live, hcheck, hs]
      rfl
    rw [hs] at hjoin hcount
    exact ⟨s :: rest, _, hviews, hview _ hviews, by simp, hcount, hjoin, hjoin, by simp⟩

end Buffer

/-! ### Typed values -/

/-- A value that a buffer has its own operations for; floating-point numbers are their bits. -/
inductive TypedValue where
  | bool (b : Bool)
  | byte (n : Int8)
  | u8 (n : UInt8)
  | short (n : Int16)
  | int (n : Int32)
  | long (n : Int64)
  | float (bits : UInt32)
  | double (bits : UInt64)
  | bytes (bytes : Bytes)

namespace TypedValue

/-- The operation that writes the value. -/
def write : TypedValue → BufferAction
  | bool b => .writeBool b
  | byte n => .writeByte n
  | u8 n => .writeU8 n
  | short n => .writeShort n
  | int n => .writeInt n
  | long n => .writeLong n
  | float bits => .writeFloat bits
  | double bits => .writeDouble bits
  | bytes s => .writeBytes s

/-- The operation that reads a value of the same type. -/
def read : TypedValue → BufferAction
  | bool _ => .readBool
  | byte _ => .readByte
  | u8 _ => .readU8
  | short _ => .readShort
  | int _ => .readInt
  | long _ => .readLong
  | float _ => .readFloat
  | double _ => .readDouble
  | bytes s => .readBytes s.length

/-- What reading the value yields. -/
def yield : TypedValue → BufferYield
  | bool b => .bool b
  | byte n => .number n.toInt
  | u8 n => .number n.toNat
  | short n => .number n.toInt
  | int n => .number n.toInt
  | long n => .long n
  | float bits => .bytes (Bytes.ofNat 4 bits.toNat)
  | double bits => .bytes (Bytes.ofNat 8 bits.toNat)
  | bytes s => .bytes s

/-- The bytes of the value. -/
def encoding : TypedValue → Bytes
  | bool b => Bytes.ofNat 1 (if b then 1 else 0)
  | byte n => Bytes.ofNat 1 n.toUInt8.toNat
  | u8 n => Bytes.ofNat 1 n.toNat
  | short n => Bytes.ofNat 2 n.toUInt16.toNat
  | int n => Bytes.ofNat 4 n.toUInt32.toNat
  | long n => Bytes.ofNat 8 n.toUInt64.toNat
  | float bits => Bytes.ofNat 4 bits.toNat
  | double bits => Bytes.ofNat 8 bits.toNat
  | bytes s => s

lemma apply_write (t : TypedValue) (b : Buffer) (pool : Pool) :
    b.apply pool t.write = b.writing pool (b.write pool t.encoding) := by
  cases t <;> rfl

/-- Reading a value is reading as many bytes as it has and taking them for it. -/
lemma exists_apply_read (t : TypedValue) :
    ∃ op yield, yield t.encoding = t.yield ∧
      ∀ (b : Buffer) (pool : Pool),
        b.apply pool t.read = b.reading pool (b.read op t.encoding.length) yield := by
  cases t with
  | bool x => exact ⟨.readBool, _, by cases x <;> rfl, fun _ _ => rfl⟩
  | byte n => exact ⟨.readByte, _, by simp [encoding, TypedValue.yield], fun _ _ => rfl⟩
  | u8 n =>
    have hn : Bytes.toNat (Bytes.ofNat 1 n.toNat) = n.toNat := Bytes.toNat_ofNat_of_lt n.toNat_lt
    exact ⟨.readU8, _, by simp [encoding, TypedValue.yield, hn], fun _ _ => rfl⟩
  | short n => exact ⟨.readShort, _, by simp [encoding, TypedValue.yield], fun _ _ => rfl⟩
  | int n => exact ⟨.readInt, _, by simp [encoding, TypedValue.yield], fun _ _ => rfl⟩
  | long n => exact ⟨.readLong, _, by simp [encoding, TypedValue.yield], fun _ _ => rfl⟩
  | float bits => exact ⟨.readFloat, _, rfl, fun _ _ => rfl⟩
  | double bits => exact ⟨.readDouble, _, rfl, fun _ _ => rfl⟩
  | bytes s => exact ⟨.readBytes, _, rfl, fun _ _ => rfl⟩

end TypedValue

namespace Buffer

variable {b : Buffer} {pool : Pool}

/-- What writing typed values leaves, if all were written. -/
structure WroteAll (b : Buffer) (ts : List TypedValue) (b' : Buffer) : Prop where
  unread_eq : b'.unread = b.unread ++ ts.flatMap TypedValue.encoding
  writer_eq : b'.writer = b.writer + (ts.flatMap TypedValue.encoding).length
  references_eq : b'.references = b.references

/-- Typed values that are all written are appended to the unread bytes. -/
lemma perform_writes (hp : pool.Sound) (ts : List TypedValue)
    (h : ∀ o ∈ (b.perform pool (ts.map TypedValue.write)).1, o.result = .ok .done) :
    b.WroteAll ts (b.perform pool (ts.map TypedValue.write)).2.1 := by
  induction ts generalizing b pool with
  | nil => exact ⟨by simp [perform], by simp [perform], rfl⟩
  | cons t ts ih =>
    simp only [List.map_cons, perform, TypedValue.apply_write] at h ⊢
    cases hw : b.write pool t.encoding with
    | error e =>
      rw [hw] at h
      cases h _ (List.mem_cons_self ..)
    | ok r =>
      obtain ⟨b₁, pool₁⟩ := r
      rw [hw] at h
      have first := write_spec hp hw
      have rest := ih first.sound fun o ho => h o (List.mem_cons_of_mem _ ho)
      constructor
      · rw [List.flatMap_cons, ← List.append_assoc, ← first.unread_eq]
        exact rest.unread_eq
      · rw [List.flatMap_cons, List.length_append, ← Nat.add_assoc, ← first.writer_eq]
        exact rest.writer_eq
      · exact rest.references_eq.trans first.references_eq

/-- Typed values are all written when there is room for them. -/
lemma perform_writes_ok (hp : pool.Sound) (ts : List TypedValue)
    (room : b.HasRoom (ts.flatMap TypedValue.encoding).length) :
    ∀ o ∈ (b.perform pool (ts.map TypedValue.write)).1, o.result = .ok .done := by
  induction ts generalizing b pool with
  | nil => simp [perform]
  | cons t ts ih =>
    have hle := room.le_limit
    rw [List.flatMap_cons, List.length_append] at hle
    have front : b.HasRoom t.encoding.length := ⟨room.live, by omega⟩
    obtain ⟨b₁, pool₁, hw⟩ := exists_write front pool
    have first := write_spec hp hw
    have live : b₁.references ≠ 0 := first.references_eq ▸ room.live
    have left : b₁.writer + (ts.flatMap TypedValue.encoding).length ≤ b₁.limit := by
      have hlimit := first.limit_le
      rw [first.writer_eq]
      omega
    have rest := ih first.sound ⟨live, left⟩
    simp only [List.map_cons, perform, TypedValue.apply_write, hw]
    intro o ho
    rcases List.mem_cons.mp ho with rfl | ho
    · rfl
    · exact rest o ho

/-- Typed values at the front of the unread bytes are read back in order. -/
lemma perform_reads (pool : Pool) (live : b.references ≠ 0) (ts : List TypedValue) {rest : Bytes}
    (h : b.unread = ts.flatMap TypedValue.encoding ++ rest) :
    (b.perform pool (ts.map TypedValue.read)).1.map BufferOutcome.result = ts.map (fun t => .ok t.yield) ∧
      (b.perform pool (ts.map TypedValue.read)).2.1.unread = rest ∧
      (b.perform pool (ts.map TypedValue.read)).2.1.writer = b.writer := by
  induction ts generalizing b with
  | nil => exact ⟨rfl, h, rfl⟩
  | cons t ts ih =>
    rw [List.flatMap_cons, List.append_assoc] at h
    obtain ⟨op, yield, hyield, happly⟩ := t.exists_apply_read
    obtain ⟨hread, hunread⟩ := read_append live h op
    obtain ⟨houts, hrest, hwriter⟩ := ih (b := b.advance t.encoding.length) live hunread
    have hstep : b.apply pool t.read = ({ result := .ok t.yield }, b.advance t.encoding.length, pool) := by
      rw [happly, hread, ← hyield]
      rfl
    simp only [List.map_cons, perform, hstep]
    exact ⟨congrArg _ houts, hrest, hwriter⟩

lemma reader_eq_writer_iff (b : Buffer) : b.reader = b.writer ↔ b.unread = [] := by
  have hr := b.reader_le
  rw [← List.length_eq_zero_iff, length_unread, readable]
  omega

end Buffer

end GraphServer
