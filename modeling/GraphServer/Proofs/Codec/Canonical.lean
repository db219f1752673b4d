import GraphServer.Proofs.Codec.RoundTrip
import GraphServer.Proofs.Codec.Yields

/-!
Reading and writing again as a canonical form.

The reader takes many spellings of one value: reserved bits of the flags, nulls under any type code, owners of
elements that it skips, absent lists of properties, labels and objects. What it reads is well formed and has no
lone map entries, so that the writer has one spelling for it, which takes at most one level more.

* `Value.Within.wellFormed`, `Value.Within.expanded_eq`: what is read has an encoding and comes back as it is;
* `Registry.rewrites`: **what was read is written, and read back from there**.
-/

namespace GraphServer

namespace Value

variable {n : Nat} {v : Value}

lemma Within.wellFormed (h : v.Within n) : v.WellFormed :=
  wellFormed_iff_throughout.mpr (h.regular.mono fun _ hw => hw.1)

lemma Within.expanded_eq (h : v.Within n) : v.expanded = v :=
  expanded_eq_self (h.regular.mono fun _ hw => hw.2)

end Value

/-- What a buffer yields, its reader yields somewhere. -/
lemma Decode.Yields.of_decode {α : Type} {d : Decode α} {P : α → Prop} (hd : d.Yields P) {b : Buffer} {x : α}
    (h : (b.decode d).1 = .ok x) : P x := by
  rw [Buffer.decode] at h
  cases hlive : b.ensureLive with
  | error e => simp only [hlive, reduceCtorEq] at h
  | ok _ =>
    cases hx : d b.cursor with
    | error e c => simp only [hlive, hx, reduceCtorEq] at h
    | ok y c =>
      simp only [hlive, hx, Except.ok.injEq] at h
      exact h ▸ hd _ _ _ hx

/-- A well-formed value without lone map entries is read back as it is from what is written of it. -/
lemma Registry.reads_write {v : Value} (h : v.WellFormed) (hplain : v.expanded = v) {m : Nat}
    (hm : v.levels ≤ m) : (standard.read m).Reads (standard.write v).bytes v := by
  have reads := (carries_write h m).answers.reads hm
  rwa [hplain] at reads

/-- **What was read is written, and read back from there.** A value that any buffer yields under a limit has
no lone map entry and no path with more or fewer label sets than objects, at any nesting. It is written whole
into every live buffer with room for its encoding. From wherever that encoding stands at the front of the
unread bytes, a reader with one level more takes exactly the encoding and yields the value, and only that, so
that writing once more gives the same encoding. -/
theorem Registry.rewrites {source : Buffer} {m : Nat} {v : Value}
    (h : (source.decode (standard.read m)).1 = .ok v) :
    v.Throughout (fun w => w.kind ≠ .mapEntry) ∧ v.Throughout Value.Even ∧
    (∀ (b : Buffer) (pool : Pool), pool.Sound → b.HasRoom (standard.write v).bytes.length →
      ∃ b' pool', b.emit pool (standard.write v) = (b', pool', none) ∧
        b'.unread = b.unread ++ (standard.write v).bytes ∧ b'.reader = b.reader ∧
        b'.references = b.references) ∧
    ∀ (b : Buffer) (rest : Bytes), b.references ≠ 0 → b.unread = (standard.write v).bytes ++ rest →
      b.decode (standard.read (m + 1)) = (.ok v, b.advance (standard.write v).bytes.length) ∧
        (b.advance (standard.write v).bytes.length).unread = rest ∧
        ∀ w, (b.decode (standard.read (m + 1))).1 = .ok w → standard.write w = standard.write v := by
  have within : v.Within (m + 1) := (yields_readAt m m).of_decode h
  have carries := carries_write within.wellFormed 0
  refine ⟨within.regular.mono fun _ hw => hw.2, within.regular.mono fun _ hw => hw.1.even,
    fun b pool hp room => Buffer.exists_emit hp carries.written room, fun b rest live hb => ?_⟩
  have reads := reads_write within.wellFormed within.expanded_eq within.levels_le
  obtain ⟨hdecode, hrest⟩ := Buffer.decode_of_reads live reads hb
  refine ⟨hdecode, hrest, fun w hw => ?_⟩
  rw [hdecode] at hw
  rw [Except.ok.inj hw]

/-- A path whose labels and objects are nulls, under reserved bits of the flags. -/
def Registry.barePath : Buffer :=
  .wrap [Kind.path.code, 2, Kind.set.code, 3, Kind.byte.code, 1]

/-- The one more level is needed: the path is read within one level, and its canonical form takes two. -/
theorem Registry.rewrites_barePath :
    (barePath.decode (standard.read 1)).1 = .ok (.path ⟨[], []⟩) ∧
    ((Buffer.wrap (standard.write (.path ⟨[], []⟩)).bytes).decode (standard.read 2)).1 =
      .ok (.path ⟨[], []⟩) ∧
    ((Buffer.wrap (standard.write (.path ⟨[], []⟩)).bytes).decode (standard.read 1)).1 =
      .error (.serialization (.nestedTooDeep 1)) := by
  have read : (barePath.decode (standard.read 1)).1 = .ok (.path ⟨[], []⟩) := rfl
  refine ⟨read, ?_, rfl⟩
  have again := (rewrites read).2.2.2 (.wrap (standard.write (.path ⟨[], []⟩)).bytes) [] Nat.one_ne_zero rfl
  rw [again.1]

end GraphServer
