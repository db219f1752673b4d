import GraphServer.Proofs.Codec.Bypass

/-!
Values that are replaced before they are written.

A value that is not null and whose serializer has something to put in its place is replaced by that, and so on
(`Registry.Replaces`). The replacements stop at a value that is null, has no serializer, or has one that takes it as it
is. Whether or not they stop, at most `maxTransforms` of them are followed.

* `Registry.Replaces.resolve_eq`, `Registry.Replaces.resolve_diverges`: replacements that are followed, and too many;
* `Registry.stops_or_exceeds`: they stop in time, or there are too many;
* `Registry.follows_replacements`: **a value is written as the last one of its replacements would be, and not at all if
  there are too many of them or the last one has no serializer**, for any table of serializers.
-/

namespace GraphServer

namespace Registry

variable {r : Registry} {v w : Value} {k steps : Nat}

/-- What a value is replaced by when it is written, if it is. -/
def replacement? (r : Registry) (v : Value) : Option Value :=
  if v.isNull then none else (r.find? v.kind).bind (·.transform v)

/-- So many replacements, one after the other, lead from a value to another one. -/
inductive Replaces (r : Registry) : Nat → Value → Value → Prop where
  | refl (v : Value) : r.Replaces 0 v v
  | step {k : Nat} {v w last : Value} : r.replacement? v = some w → r.Replaces k w last → r.Replaces (k + 1) v last

/-- However many levels are allowed beyond some number of them, this is what is written. -/
def Settles (r : Registry) (v : Value) (e : Encoding) : Prop :=
  ∃ enough, ∀ n, enough ≤ n → r.writeAt n v = e

/-- Nothing is written but for the report of an error. -/
structure Reports (r : Registry) (v : Value) (e : Error) : Prop where
  write_eq : r.write v = .fail e
  settles : r.Settles v (.fail e)
  /-- The buffer stays as it is. -/
  emit_eq : ∀ (b : Buffer) (pool : Pool), b.emit pool (r.write v) = (b, pool, some e)

/-- A value is written as another one that is not replaced. -/
structure WrittenAs (r : Registry) (v last : Value) : Prop where
  /-- With any number of levels, alone or inside another value. -/
  writeAt_eq : ∀ n, r.writeAt n v = r.writeAt n last
  settles_iff : ∀ e, r.Settles v e ↔ r.Settles last e
  /-- If writing comes to an end. -/
  write_eq : r.Converges v → r.Converges last → r.write v = r.write last
  of_null : last.isNull = true →
    r.write v = r.write last ∧ (r.write v).error? = none ∧ (r.write v).bytes = [0xFE, 1]
  of_unregistered : last.isNull = false → r.find? last.kind = none →
    r.write v = r.write last ∧ r.Reports v (.serializerNotFound last.kind)
  /-- In the fully qualified form, by the serializer of its own. -/
  of_registered : ∀ s, last.isNull = false → r.find? last.kind = some s →
    ∀ n, r.writeAt (n + 1) v = s.write (r.writeAt n) last

/-! ### Following replacements -/

lemma exists_of_replacement? (h : r.replacement? v = some w) :
    v.isNull = false ∧ ∃ s, r.get v.kind = .ok s ∧ s.transform v = some w := by
  rw [replacement?] at h
  split at h
  · cases h
  next hnull =>
    obtain ⟨s, hs, hw⟩ := Option.bind_eq_some_iff.mp h
    exact ⟨Bool.eq_false_iff.mpr hnull, s, by rw [get, hs], hw⟩

lemma resolve_zero (h : r.replacement? v = some w) : r.resolve 0 v = .error (.serialization .transformDiverged) := by
  obtain ⟨hnull, s, hs, hw⟩ := exists_of_replacement? h
  rw [resolve]
  simp [hnull, hs, hw]

lemma resolve_succ (h : r.replacement? v = some w) (steps : Nat) : r.resolve (steps + 1) v = r.resolve steps w := by
  obtain ⟨hnull, s, hs, hw⟩ := exists_of_replacement? h
  rw [resolve]
  simp [hnull, hs, hw]

/-- A value that is not replaced is found without any step, however many there may be. -/
lemma resolve_of_stops (h : r.replacement? v = none) (steps steps' : Nat) : r.resolve steps v = r.resolve steps' v := by
  unfold resolve
  cases hnull : v.isNull with
  | true => rfl
  | false =>
    cases hs : r.find? v.kind with
    | none => simp [get, hs]
    | some s =>
      have htransform : s.transform v = none := by simpa [replacement?, hnull, hs] using h
      simp [get, hs, htransform]

lemma Replaces.resolve_eq (h : r.Replaces k v w) (hstop : r.replacement? w = none) (hk : k ≤ steps) :
    r.resolve steps v = r.resolve steps w := by
  induction h generalizing steps with
  | refl v => rfl
  | step hnext _ ih =>
    obtain ⟨steps, rfl⟩ := Nat.exists_eq_add_of_le' (Nat.le_of_add_left_le hk)
    rw [resolve_succ hnext, ih hstop (Nat.le_of_succ_le_succ hk)]
    exact resolve_of_stops hstop _ _

lemma Replaces.resolve_diverges (h : r.Replaces (steps + 1) v w) :
    r.resolve steps v = .error (.serialization .transformDiverged) := by
  induction steps generalizing v with
  | zero =>
    obtain _ | ⟨hnext, -⟩ := h
    exact resolve_zero hnext
  | succ steps ih =>
    obtain _ | ⟨hnext, hrest⟩ := h
    rw [resolve_succ hnext, ih hrest]

/-- The replacements of a value stop after some number of them, or there are more. -/
lemma stops_or_exceeds (r : Registry) (k : Nat) (v : Value) :
    (∃ j ≤ k, ∃ w, r.Replaces j v w ∧ r.replacement? w = none) ∨ ∃ w, r.Replaces (k + 1) v w := by
  induction k generalizing v with
  | zero =>
    cases hv : r.replacement? v with
    | none => exact .inl ⟨0, le_rfl, v, .refl v, hv⟩
    | some w => exact .inr ⟨w, .step hv (.refl w)⟩
  | succ k ih =>
    cases hv : r.replacement? v with
    | none => exact .inl ⟨0, Nat.zero_le _, v, .refl v, hv⟩
    | some w =>
      obtain ⟨j, hj, last, hlast, hstop⟩ | ⟨last, hlast⟩ := ih w
      · exact .inl ⟨j + 1, Nat.succ_le_succ hj, last, .step hv hlast, hstop⟩
      · exact .inr ⟨last, .step hv hlast⟩

/-! ### Writing -/

lemma writeAt_congr (h : r.resolve maxTransforms v = r.resolve maxTransforms w) (n : Nat) :
    r.writeAt n v = r.writeAt n w := by
  cases n <;> simp only [writeAt, h]

lemma reports_of_resolve {e : Error} (h : r.resolve maxTransforms v = .error e) : r.Reports v e := by
  have hwrite (n : Nat) : r.writeAt n v = .fail e := by cases n <;> simp only [writeAt, h]
  exact ⟨hwrite _, ⟨0, fun n _ => hwrite n⟩, fun b pool => by rw [write, hwrite]; rfl⟩

lemma Replaces.writtenAs (h : r.Replaces k v w) (hstop : r.replacement? w = none) (hk : k ≤ maxTransforms) :
    r.WrittenAs v w := by
  have hresolve : r.resolve maxTransforms v = r.resolve maxTransforms w := h.resolve_eq hstop hk
  have hwrite := writeAt_congr hresolve
  refine ⟨hwrite, fun e => ?_, fun hv hw => ?_, fun hnull => ?_, fun hnull hnone => ?_, fun s hnull hs n => ?_⟩
  · simp only [Settles, hwrite]
  · have hv := hv _ (le_max_left (levelsFor v) (levelsFor w))
    rw [← hv, hwrite, hw _ (le_max_right _ _)]
  · have hnone (n : Nat) : r.writeAt n w = nullEncoding := r.writeAt_null hnull n
    rw [write, write, hwrite, hnone, hnone, bytes_nullEncoding]
    exact ⟨rfl, rfl, rfl⟩
  · have hmissing := resolve_of_find?_eq_none hnone hnull maxTransforms
    have hreports := reports_of_resolve (hresolve.trans hmissing)
    exact ⟨hreports.write_eq.trans (reports_of_resolve hmissing).write_eq.symm, hreports⟩
  · have htransform : s.transform w = none := by simpa [replacement?, hnull, hs] using hstop
    rw [hwrite, writeAt, Registry.resolve_eq hs htransform hnull]

/-- **Replacements are followed faithfully and always stop**, whatever the table of serializers and whatever they put in
the place of a value. If they stop after at most `maxTransforms` of them, the value is written as the last one is: as
the null bytes, with the report that it has no serializer and not a single byte, or in the fully qualified form by its
own serializer. If there are more of them, an error of serialization is reported and not a single byte is written. One
of the two is the case. -/
theorem follows_replacements (r : Registry) (v : Value) :
    (∀ k ≤ maxTransforms, ∀ last, r.Replaces k v last → r.replacement? last = none → r.WrittenAs v last) ∧
      (∀ last, r.Replaces (maxTransforms + 1) v last → r.Reports v (.serialization .transformDiverged)) ∧
      ((∃ k ≤ maxTransforms, ∃ last, r.Replaces k v last ∧ r.replacement? last = none) ∨
        ∃ last, r.Replaces (maxTransforms + 1) v last) :=
  ⟨fun _ hk _ h hstop => h.writtenAs hstop hk, fun _ h => reports_of_resolve h.resolve_diverges,
    r.stops_or_exceeds maxTransforms v⟩

/-- The standard serializers, with one that counts numbers down to zero, which it writes. -/
def countdown : Registry :=
  standard.register { Serializer.int with
    transform := fun | .int n => if n = 0 then none else some (.int (n - 1)) | _ => none }

/-- From eight on there are eight replacements and zero is written; from nine on there are too many. -/
theorem follows_replacements_countdown :
    countdown.write (.int 8) = countdown.write (.int 0) ∧
      countdown.Reports (.int 9) (.serialization .transformDiverged) := by
  have eight : countdown.Replaces 8 (.int 8) (.int 0) :=
    .step rfl <| .step rfl <| .step rfl <| .step rfl <| .step rfl <| .step rfl <| .step rfl <| .step rfl <| .refl _
  have written := (follows_replacements countdown (.int 8)).1 8 le_rfl (.int 0) eight rfl
  have zero : countdown.Converges (.int 0) := fun
    | 0, h => absurd h (Nat.not_le.mpr (Nat.add_pos_right _ (by decide)))
    | _ + 1, _ => rfl
  have converges : countdown.Converges (.int 8) := fun n h => by
    rw [write, written.writeAt_eq, written.writeAt_eq]
    exact zero n h
  exact ⟨written.write_eq converges zero, (follows_replacements countdown (.int 9)).2.1 _ (.step rfl eight)⟩

end Registry

end GraphServer
