import GraphServer.Value.Basic

/-!
Named values: finite maps from texts to values, kept in the order of the names.

The order of two texts is that of their characters, which is also that of their UTF-8 bytes. A name
occurs once; setting it again replaces its value.
-/

namespace GraphServer

/-- Named values in the order of their names. -/
structure Fields where
  entries : List (String × Value)
  sorted : entries.Pairwise fun a b => a.1 < b.1

namespace Fields

/-- No fields. -/
def empty : Fields := ⟨[], .nil⟩

instance : Inhabited Fields := ⟨empty⟩

/-- Sets one name in a sorted list. -/
def place (key : String) (value : Value) : List (String × Value) → List (String × Value)
  | [] => [(key, value)]
  | e :: rest =>
    if key < e.1 then (key, value) :: e :: rest
    else if e.1 < key then e :: place key value rest
    else (key, value) :: rest

theorem mem_place {key : String} {value : Value} {entries : List (String × Value)}
    {e : String × Value} (h : e ∈ place key value entries) : e = (key, value) ∨ e ∈ entries := by
  induction entries with
  | nil => simpa [place] using h
  | cons f rest ih =>
    rw [place] at h
    split at h
    · simpa using h
    · split at h
      · rcases List.mem_cons.1 h with rfl | h
        · simp
        · rcases ih h with h | h <;> simp [h]
      · rcases List.mem_cons.1 h with rfl | h <;> simp_all

theorem sorted_place {key : String} {value : Value} {entries : List (String × Value)}
    (h : entries.Pairwise fun a b => a.1 < b.1) :
    (place key value entries).Pairwise fun a b => a.1 < b.1 := by
  induction entries with
  | nil => simp [place]
  | cons f rest ih =>
    obtain ⟨hf, hr⟩ := List.pairwise_cons.1 h
    rw [place]
    split
    · rename_i hlt
      refine List.pairwise_cons.2 ⟨fun e he => ?_, h⟩
      rcases List.mem_cons.1 he with rfl | he
      · exact hlt
      · exact String.lt_trans hlt (hf e he)
    · rename_i hnlt
      split
      · rename_i hgt
        refine List.pairwise_cons.2 ⟨fun e he => ?_, ih hr⟩
        rcases mem_place he with rfl | he
        · exact hgt
        · exact hf e he
      · rename_i hngt
        have heq : key = f.1 :=
          String.le_antisymm (String.not_lt.1 hngt) (String.not_lt.1 hnlt)
        exact List.pairwise_cons.2 ⟨fun e he => heq ▸ hf e he, hr⟩

/-- Sets a name. -/
def insert (f : Fields) (key : String) (value : Value) : Fields :=
  ⟨place key value f.entries, sorted_place f.sorted⟩

/-- Sets names in order, so that the last value of a name stays. -/
def ofList (entries : List (String × Value)) : Fields :=
  entries.foldl (fun f e => f.insert e.1 e.2) empty

/-- The value of a name. -/
def get? (f : Fields) (key : String) : Option Value :=
  f.entries.lookup key

/-- The number of names. -/
def size (f : Fields) : Nat :=
  f.entries.length

end Fields

end GraphServer
