import GraphServer.Proofs.Codec.Congruence

/-!
What the check of counts against the bytes that are left can change.

A count is refused at once when as many items, each as short as an item can be, need more than what is left. The
same readers without this check recognise the same spellings, so that they read the same values from the same bytes;
what the check refuses they find out later.

* `Registry.curbs_read`: with the check a reader does what it does without, or gives up with the report of a count;
* `Registry.guards_unchecked`: **the check refuses nothing that can be read**.
-/

namespace GraphServer

namespace Decode

variable {α : Type}

/-- The report of a count that needs more bytes than are left. -/
def Excess (e : Error) : Prop :=
  ∃ what count left, e = .serialization (.lengthExceedsInput what count left)

/-- Two readers that read the same, the first of which may give up earlier for a count that needs more bytes than are
left. -/
structure Guards (d d' : Decode α) : Prop where
  read_iff : ∀ (b : Buffer) x after, b.decode d = (.ok x, after) ↔ b.decode d' = (.ok x, after)
  refused : ∀ b : Buffer, b.decode d = b.decode d' ∨
    (∃ e, Excess e ∧ (b.decode d).1 = .error e) ∧ ∃ e, (b.decode d').1 = .error e

lemma curbs_length (widths : Widths) (what : Counted) :
    Curbs Excess (length widths what) (length .unchecked what) := by
  refine (curbs_refl int).bind fun n => ?_
  split
  · exact curbs_refl _
  refine (curbs_refl readable).bind fun left => ?_
  rw [if_neg (c := left < n.toInt.toNat * Widths.unchecked what) (by simp [Widths.unchecked])]
  split
  · exact curbs_throw ⟨what, _, left, rfl⟩ _
  · exact curbs_refl _

/-- Readers of one form, the first of which gives up earlier. -/
lemma Parses.guards {d d' : Decode α} {p : Form α} (hd : d.Parses p) (hd' : d'.Parses p) (h : Curbs Excess d d') :
    d.Guards d' where
  read_iff _ _ _ := hd.decode_iff.trans hd'.decode_iff.symm
  refused b := by
    obtain hsame | ⟨e, he, hrefused⟩ := h.decode b
    · exact .inl hsame
    · refine .inr ⟨⟨e, he, hrefused⟩, ?_⟩
      cases houtcome : b.decode d' with
      | mk outcome after =>
        cases outcome with
        | error e' => exact ⟨e', rfl⟩
        | ok x =>
          rw [hd.decode_iff.mpr (hd'.decode_iff.mp houtcome)] at hrefused
          cases hrefused

end Decode

namespace Registry

open Decode

/-- With the check of counts a reader does what it does without, or gives up with the report of a count. -/
lemma congruence_unchecked : Congruence (Curbs Excess) .encoded .unchecked :=
  congruence_curbs (curbs_length .encoded)

/-- **The check of counts refuses nothing that can be read.** For every table of standard serializers, whichever
kinds are in it, every limit of the depth and every buffer, a value is read with the check of counts just when it is
read without, it is the same value, and it takes the same bytes. Where the two differ, the check reports a count that
needs more bytes than are left, and without it the reading fails as well. The same holds of payloads whose kind is
known from their place. -/
theorem guards_unchecked {r : Registry} (h : r.BuiltIn) (limit : Nat) :
    (r.read limit).Guards ((r.withWidths .unchecked).read limit) ∧
    ∀ kind nullable,
      (r.readBare limit kind nullable).Guards ((r.withWidths .unchecked).readBare limit kind nullable) := by
  have le_encoded (what : Counted) : Widths.unchecked what ≤ Widths.encoded what := Nat.zero_le _
  have checked := congruence_unchecked.readAt r limit limit
  have bare (kind : Kind) (nullable : Bool) := congruence_unchecked.readBare r limit kind nullable
  have reads := parses_readAt .encoded (fun _ => le_rfl) r limit limit
  have readsBare := parses_readBare .encoded (fun _ => le_rfl) r limit
  rw [h.withWidths_encoded] at checked reads
  simp only [h.withWidths_encoded] at bare readsBare
  exact ⟨reads.guards (parses_readAt .unchecked le_encoded r limit limit) checked, fun kind nullable =>
    (readsBare kind nullable).guards (parses_readBare .unchecked le_encoded r limit kind nullable) (bare kind nullable)⟩

/-- A table with nothing but lists in it. -/
def lists : Registry :=
  empty.register (.list .encoded)

lemma builtIn_lists : lists.BuiltIn := by
  intro kind s h
  by_cases hkind : kind = .list
  · subst hkind
    exact h
  · simp [lists, empty, register, Serializer.list, hkind] at h

/-- A list that counts so many items and holds two nulls, with nothing after it. -/
def nulls (count : UInt8) : Buffer :=
  .wrap [Kind.list.code, 0, 0, 0, 0, count, Kind.unspecifiedNull.code, 1, Kind.unspecifiedNull.code, 1]

/-- The widths leave no byte over: where nothing but lists can be read, two nulls at the end of what there is pass the
check and are read as without it. Of a third null that is not there, either reader has its own report. -/
theorem guards_lists :
    lists.BuiltIn ∧
    ((nulls 2).decode (lists.read 1)).1 = .ok (.list [.null, .null]) ∧
    ((nulls 2).decode ((lists.withWidths .unchecked).read 1)).1 = .ok (.list [.null, .null]) ∧
    ((nulls 3).decode (lists.read 1)).1 = .error (.serialization (.lengthExceedsInput .list 3 4)) ∧
    ((nulls 3).decode ((lists.withWidths .unchecked).read 1)).1 = .error (.buffer (.outOfBounds .readU8 10 1 10)) := by
  have read : (nulls 2).decode (lists.read 1) = (.ok (.list [.null, .null]), ((nulls 2).decode (lists.read 1)).2) := rfl
  refine ⟨builtIn_lists, rfl, ?_, rfl, rfl⟩
  rw [((guards_unchecked builtIn_lists 1).1.read_iff (nulls 2) _ _).mp read]

end Registry

end GraphServer
