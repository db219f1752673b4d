import GraphServer.Message.Fields
import GraphServer.Proofs.Value.Throughout

/-!
Named values set one after the other.

* `Fields.ofList_entries`: setting the names of fields in their order gives the same fields;
* `Fields.get?_ofList`: the last value that a name was set to stays;
* `Fields.expanded`: the fields with every lone map entry in their values as the map of that entry.
-/

namespace GraphServer.Fields

@[ext] lemma ext {f g : Fields} (h : f.entries = g.entries) : f = g := by
  cases f
  cases g
  simp only at h
  subst h
  rfl

/-! ### Setting one name -/

section Place

variable {key other : String} {value : Value} {entries : List (String × Value)}

/-- A name that comes after all others is set at the end. -/
lemma place_of_forall_lt (h : ∀ e ∈ entries, e.1 < key) :
    place key value entries = entries ++ [(key, value)] := by
  induction entries with
  | nil => rfl
  | cons e rest ih =>
    obtain ⟨he, hrest⟩ := List.forall_mem_cons.mp h
    rw [place, if_neg (String.lt_asymm he), if_pos he, ih hrest, List.cons_append]

lemma length_place_le : (place key value entries).length ≤ entries.length + 1 := by
  induction entries with
  | nil => exact le_rfl
  | cons e rest ih =>
    rw [place]
    split
    · exact le_rfl
    split
    · simpa using ih
    · exact Nat.le_succ _

lemma lookup_cons_eq_ite (e : String × Value) (rest : List (String × Value)) :
    (e :: rest).lookup other = if other = e.1 then some e.2 else rest.lookup other := by
  by_cases h : other = e.1
  · rw [if_pos h, h, List.lookup_cons_self]
  · rw [if_neg h, List.lookup_cons, beq_false_of_ne h]

/-- Setting a name changes the value of this name only. -/
lemma lookup_place (entries : List (String × Value)) :
    (place key value entries).lookup other = if other = key then some value else entries.lookup other := by
  induction entries with
  | nil => rw [place, lookup_cons_eq_ite]
  | cons e rest ih =>
    rw [place]
    split
    next => rw [lookup_cons_eq_ite]
    next hle =>
      split
      next hlt =>
        rw [lookup_cons_eq_ite, lookup_cons_eq_ite, ih]
        by_cases he : other = e.1
        · rw [if_pos he, if_pos he, if_neg (he ▸ String.ne_of_lt hlt)]
        · rw [if_neg he, if_neg he]
      next hge =>
        have heq : key = e.1 := String.le_antisymm (String.not_lt.1 hge) (String.not_lt.1 hle)
        rw [lookup_cons_eq_ite, lookup_cons_eq_ite, heq]
        split <;> rfl

end Place

/-! ### Setting names in order -/

/-- The names of fields, set in their order after names that all come before them. -/
lemma foldl_insert_entries {entries : List (String × Value)} (h : entries.Pairwise fun a b => a.1 < b.1)
    (f : Fields) (hf : ∀ e ∈ f.entries, ∀ e' ∈ entries, e.1 < e'.1) :
    (entries.foldl (fun f e => f.insert e.1 e.2) f).entries = f.entries ++ entries := by
  induction entries generalizing f with
  | nil => rw [List.foldl_nil, List.append_nil]
  | cons e rest ih =>
    obtain ⟨he, hrest⟩ := List.pairwise_cons.mp h
    have hplace : (f.insert e.1 e.2).entries = f.entries ++ [e] :=
      place_of_forall_lt fun e' he' => hf e' he' e (List.mem_cons_self ..)
    rw [List.foldl_cons, ih hrest, hplace, List.append_assoc, List.singleton_append]
    intro e₁ h₁ e₂ h₂
    rw [hplace, List.mem_append, List.mem_singleton] at h₁
    obtain h₁ | rfl := h₁
    · exact hf e₁ h₁ e₂ (List.mem_cons_of_mem _ h₂)
    · exact he e₂ h₂

/-- Setting the names of fields in their order gives the same fields. -/
lemma ofList_entries (f : Fields) : ofList f.entries = f :=
  Fields.ext (foldl_insert_entries f.sorted empty (by simp [empty]))

/-- The last value that a name was set to stays. -/
lemma get?_ofList (entries : List (String × Value)) (key : String) :
    (ofList entries).get? key = entries.reverse.lookup key := by
  have step (f : Fields) : (entries.foldl (fun f e => f.insert e.1 e.2) f).get? key =
      (entries.reverse.lookup key).or (f.get? key) := by
    induction entries generalizing f with
    | nil => rfl
    | cons e rest ih =>
      rw [List.foldl_cons, ih, List.reverse_cons, List.lookup_append, Option.or_assoc]
      congr 1
      rw [get?, insert, lookup_place, lookup_cons_eq_ite]
      split <;> rfl
  exact (step empty).trans Option.or_none

lemma size_ofList_le (entries : List (String × Value)) : (ofList entries).size ≤ entries.length := by
  have step (f : Fields) :
      (entries.foldl (fun f e => f.insert e.1 e.2) f).size ≤ f.size + entries.length := by
    induction entries generalizing f with
    | nil => exact le_rfl
    | cons e rest ih =>
      have hplace : (f.insert e.1 e.2).size ≤ f.size + 1 := length_place_le
      have := ih (f.insert e.1 e.2)
      rw [List.foldl_cons, List.length_cons]
      omega
  exact (step empty).trans (Nat.zero_add _).le

lemma mem_of_mem_foldl_insert {entries : List (String × Value)} {e : String × Value} {f : Fields}
    (h : e ∈ (entries.foldl (fun f e => f.insert e.1 e.2) f).entries) : e ∈ f.entries ∨ e ∈ entries := by
  induction entries generalizing f with
  | nil => exact .inl h
  | cons e' rest ih =>
    obtain h | h := ih h
    · obtain rfl | h := mem_place h
      · exact .inr (List.mem_cons_self ..)
      · exact .inl h
    · exact .inr (List.mem_cons_of_mem _ h)

lemma mem_of_mem_ofList {entries : List (String × Value)} {e : String × Value}
    (h : e ∈ (ofList entries).entries) : e ∈ entries :=
  (mem_of_mem_foldl_insert h).resolve_left (by simp [empty])

/-! ### Lone map entries in the values -/

/-- The fields with every lone map entry in their values replaced by the map of that entry. -/
def expanded (f : Fields) : Fields where
  entries := f.entries.map fun e => (e.1, e.2.expanded)
  sorted := List.pairwise_map.mpr f.sorted

lemma expanded_eq_self {f : Fields} (h : ∀ e ∈ f.entries, e.2.expanded = e.2) : f.expanded = f :=
  Fields.ext (Value.map_eq_self fun e he => Prod.ext rfl (h e he))

end GraphServer.Fields
