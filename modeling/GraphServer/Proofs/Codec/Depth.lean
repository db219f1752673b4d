import GraphServer.Proofs.Codec.Congruence
import GraphServer.Proofs.Codec.Nests

/-!
What the limit of the depth can change.

A reader hands on one level less to everything that it reads inside a value, whether it keeps it or not. What it reads
is therefore spelled within its limit, and a reader with a higher limit does the same, up to where the lower limit
gives up.

* `Registry.curbs_readAt`: with fewer levels a reader does what it does with more, or gives up with the report of a
  value that nests too deep;
* `Registry.limit_cuts`: **the limit of the depth only cuts**.
-/

namespace GraphServer.Registry

open Decode

/-- With fewer levels a reader does what it does with more, or reports its own limit. By induction on the fewer
levels; at none the two differ from the first value on that is not null. -/
lemma curbs_readAt (m m' : Nat) {levels levels' : Nat} (h : levels ≤ levels') :
    Curbs (· = tooDeep m) (standard.readAt m levels) (standard.readAt m' levels') := by
  have kept : Congruence (Curbs (· = tooDeep m)) .encoded .encoded := congruence_curbs fun _ => curbs_refl _
  have step (payload payload' : Serializer → Decode Value)
      (h : ∀ kind s, Serializer.standard? .encoded kind = some s → Curbs (· = tooDeep m) (payload s) (payload' s)) :
      Curbs (· = tooDeep m) (standard.readWith payload) (standard.readWith payload') := by
    have whole := kept.readWith standard payload payload' fun kind s s' hs hs' => by
      obtain rfl := Option.some.inj (hs.symm.trans hs')
      exact h kind s hs
    rwa [builtIn_standard.withWidths_encoded] at whole
  have deep (d : Decode Value) : Curbs (· = tooDeep m) (fault (.nestedTooDeep m)) d :=
    fun c => .inr ⟨tooDeep m, c, rfl, rfl⟩
  induction levels generalizing levels' with
  | zero =>
    cases levels' with
    | zero => exact step _ _ fun _ _ _ => deep _
    | succ levels' => exact step _ _ fun _ _ _ => deep _
  | succ levels ih =>
    obtain ⟨levels', rfl⟩ := Nat.exists_eq_add_of_le' h
    exact step _ _ fun kind s hs => kept.payload (ih (Nat.le_of_succ_le_succ h)) hs hs

/-- **The limit of the depth only cuts.** From every buffer, what is read under a limit is read under every higher
one, the same value from the same bytes. What is read under the higher one is read under the lower one as well, or
reported as nested deeper than that. And read under a limit is just what is spelled within so many levels: every value
in its bytes, also one that is skipped, stands at most so deep, a null taking no level. The value that is yielded nests
to so many levels itself. -/
theorem limit_cuts {m m' : Nat} (h : m ≤ m') (b : Buffer) :
    (∀ v after, b.decode (standard.read m) = (.ok v, after) → b.decode (standard.read m') = (.ok v, after)) ∧
    (∀ v after, b.decode (standard.read m') = (.ok v, after) →
      b.decode (standard.read m) = (.ok v, after) ∨
        (b.decode (standard.read m)).1 = .error (.serialization (.nestedTooDeep m))) ∧
    (∀ v after, b.decode (standard.read m) = (.ok v, after) ↔
      b.references ≠ 0 ∧ ∃ front rest, b.unread = front ++ rest ∧ standard.Spells m front v ∧
        after = b.advance front.length) ∧
    ∀ v after, b.decode (standard.read m) = (.ok v, after) → v.NestsTo m := by
  have cut : b.decode (standard.read m) = b.decode (standard.read m') ∨
      (b.decode (standard.read m)).1 = .error (tooDeep m) :=
    ((curbs_readAt m m' h).decode b).imp_right fun ⟨_, deep, hfail⟩ => deep ▸ hfail
  have recognised := parses_readAt .encoded (fun _ => le_rfl) standard m m
  rw [builtIn_standard.withWidths_encoded] at recognised
  refine ⟨fun v after hread => ?_, fun v after hread => ?_, fun v after => recognised.decode_iff,
    fun v after hread => ?_⟩
  · obtain hsame | hdeep := cut
    · rw [← hsame, hread]
    · rw [hread] at hdeep
      cases hdeep
  · obtain hsame | hdeep := cut
    · exact .inl (hsame.trans hread)
    · exact .inr hdeep
  · obtain ⟨-, front, rest, -, hspells, -⟩ := recognised.decode_iff.mp hread
    exact gives_spells standard m front v hspells

/-- A property without a value, whose owner is a list that holds an empty list. -/
def owned : Buffer :=
  .wrap ([Kind.property.code, 0, 0, 0, 0, 1, 107] ++ [Kind.unspecifiedNull.code, 1] ++
    [Kind.list.code, 0, 0, 0, 0, 1] ++ [Kind.list.code, 0, 0, 0, 0, 0])

/-- The owner is skipped, and yet it counts: the property itself nests to one level, but the lists in its owner's place
take two more. -/
theorem limit_cuts_owner :
    2 ≤ 3 ∧ (owned.decode (standard.read 3)).1 = .ok (.property ⟨"k", .null⟩) ∧
    (Value.property ⟨"k", .null⟩).NestsTo 1 ∧
    (owned.decode (standard.read 2)).1 = .error (.serialization (.nestedTooDeep 2)) ∧
    owned.decode (standard.read 4) = owned.decode (standard.read 3) := by
  have read : owned.decode (standard.read 3) = (.ok (.property ⟨"k", .null⟩), owned.advance 21) := rfl
  refine ⟨by decide, congrArg Prod.fst read, List.forall_mem_singleton.mpr rfl, rfl, ?_⟩
  rw [read, (limit_cuts (by decide : 3 ≤ 4) owned).1 _ _ read]

end GraphServer.Registry
