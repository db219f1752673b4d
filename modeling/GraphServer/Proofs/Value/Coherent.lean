import GraphServer.Proofs.Value.Numbers

/-!
The comparison operators agree with each other.

The order of two values and their equality are found out separately: the order kind by kind, and equality part by part.
Numbers alone have both from one comparison.

* `Value.beq_comm`: structural equality is symmetric, by induction on the parts of a value;
* `Value.compare_swap`: the order from the other side;
* `Value.equals_of_compare`: two values that have an order are equal just if neither comes first;
* `Value.IsNaN`: a value of a floating-point kind that stands for no number;
* `Value.coherent`: **the operators are what they should be to each other**, on all pairs of values.
-/

namespace GraphServer

/-! ### Structural equality from both sides -/

lemma Binary64.compare_swap (x y : Binary64) : y.compare x = (x.compare y).map Ordering.swap := by
  rw [compare, compare]
  by_cases hnan : x.isNaN ∨ y.isNaN
  · rw [if_pos hnan, if_pos hnan.symm]
    rfl
  · rw [if_neg hnan, if_neg (hnan ∘ Or.symm)]
    exact congrArg some Std.OrientedCmp.eq_swap

lemma Binary64.beq_comm (x y : Binary64) : x.beq y = y.beq x := by
  rw [beq, beq, compare_swap x y]
  cases x.compare y with
  | none => rfl
  | some o => cases o <;> rfl

namespace Value

mutual

/-- Structural equality is symmetric. -/
lemma beq_comm : (a b : Value) → a.beq b = b.beq a
  | .null, b => by cases b <;> rfl
  | .boolean _, b | .byte _, b | .short _, b | .int _, b | .long _, b | .char _, b | .string _, b | .uuid _, b
  | .date _, b | .timestamp _, b | .class_ _, b | .byteBuffer _, b => by
    cases b <;> first | rfl | exact BEq.comm
  | .float x, b => by cases b <;> first | rfl | exact Binary64.beq_comm _ _
  | .double x, b => by cases b <;> first | rfl | exact Binary64.beq_comm _ _
  | .duration s n, b => by cases b <;> first | rfl | exact congrArg₂ and BEq.comm BEq.comm
  | .list xs, b => by cases b <;> first | rfl | exact beqItems_comm xs _
  | .set xs, b => by cases b <;> first | rfl | exact beqItems_comm xs _
  | .map xs, b => by cases b <;> first | rfl | exact beqEntries_comm xs _
  | .mapEntry k v, b => by cases b <;> first | rfl | exact congrArg₂ and (beq_comm k _) (beq_comm v _)
  | .vertex x, b => by cases b <;> first | rfl | exact beqVertex_comm x _
  | .edge x, b => by cases b <;> first | rfl | exact beqEdge_comm x _
  | .vertexProperty x, b => by cases b <;> first | rfl | exact beqVertexProperty_comm x _
  | .property x, b => by cases b <;> first | rfl | exact beqProperty_comm x _
  | .path x, b => by cases b <;> first | rfl | exact beqPath_comm x _
  | .traverser x, b => by cases b <;> first | rfl | exact beqTraverser_comm x _
  | .bulkSet xs, b => by cases b <;> first | rfl | exact beqCounted_comm xs _

lemma beqItems_comm : (xs ys : List Value) → beqItems xs ys = beqItems ys xs
  | [], ys => by cases ys <;> rfl
  | x :: xs, [] => rfl
  | x :: xs, y :: ys => congrArg₂ and (beq_comm x y) (beqItems_comm xs ys)

lemma beqEntry_comm : (x y : Value × Value) → beqEntry x y = beqEntry y x
  | (k, v), (k', v') => congrArg₂ and (beq_comm k k') (beq_comm v v')

lemma beqEntries_comm : (xs ys : List (Value × Value)) → beqEntries xs ys = beqEntries ys xs
  | [], ys => by cases ys <;> rfl
  | x :: xs, [] => rfl
  | x :: xs, y :: ys => congrArg₂ and (beqEntry_comm x y) (beqEntries_comm xs ys)

lemma beqCount_comm : (x y : Value × Int64) → beqCount x y = beqCount y x
  | (v, n), (v', n') => congrArg₂ and (beq_comm v v') BEq.comm

lemma beqCounted_comm : (xs ys : List (Value × Int64)) → beqCounted xs ys = beqCounted ys xs
  | [], ys => by cases ys <;> rfl
  | x :: xs, [] => rfl
  | x :: xs, y :: ys => congrArg₂ and (beqCount_comm x y) (beqCounted_comm xs ys)

lemma beqProperty_comm : (x y : Property Value) → beqProperty x y = beqProperty y x
  | ⟨key, value⟩, ⟨key', value'⟩ => congrArg₂ and BEq.comm (beq_comm value value')

lemma beqProperties_comm : (xs ys : List (Property Value)) → beqProperties xs ys = beqProperties ys xs
  | [], ys => by cases ys <;> rfl
  | x :: xs, [] => rfl
  | x :: xs, y :: ys => congrArg₂ and (beqProperty_comm x y) (beqProperties_comm xs ys)

lemma beqVertexProperty_comm : (x y : VertexProperty Value) → beqVertexProperty x y = beqVertexProperty y x
  | ⟨id, label, value, properties⟩, ⟨id', label', value', properties'⟩ => by
    rw [beqVertexProperty, beqVertexProperty, beq_comm id id', beq_comm value value',
      beqProperties_comm properties properties', BEq.comm (a := label)]

lemma beqVertexProperties_comm :
    (xs ys : List (VertexProperty Value)) → beqVertexProperties xs ys = beqVertexProperties ys xs
  | [], ys => by cases ys <;> rfl
  | x :: xs, [] => rfl
  | x :: xs, y :: ys => congrArg₂ and (beqVertexProperty_comm x y) (beqVertexProperties_comm xs ys)

lemma beqElementRef_comm : (x y : ElementRef Value) → beqElementRef x y = beqElementRef y x
  | ⟨id, label⟩, ⟨id', label'⟩ => congrArg₂ and (beq_comm id id') BEq.comm

lemma beqVertex_comm : (x y : Vertex Value) → beqVertex x y = beqVertex y x
  | ⟨id, label, properties⟩, ⟨id', label', properties'⟩ => by
    rw [beqVertex, beqVertex, beq_comm id id', beqVertexProperties_comm properties properties', BEq.comm (a := label)]

lemma beqEdge_comm : (x y : Edge Value) → beqEdge x y = beqEdge y x
  | ⟨id, label, inVertex, outVertex, properties⟩, ⟨id', label', inVertex', outVertex', properties'⟩ => by
    rw [beqEdge, beqEdge, beq_comm id id', beqElementRef_comm inVertex inVertex',
      beqElementRef_comm outVertex outVertex', beqProperties_comm properties properties', BEq.comm (a := label)]

lemma beqPath_comm : (x y : Path Value) → beqPath x y = beqPath y x
  | ⟨labels, objects⟩, ⟨labels', objects'⟩ => congrArg₂ and BEq.comm (beqItems_comm objects objects')

lemma beqTraverser_comm : (x y : Traverser Value) → beqTraverser x y = beqTraverser y x
  | ⟨bulk, value⟩, ⟨bulk', value'⟩ => congrArg₂ and BEq.comm (beq_comm value value')

end

variable {a b : Value}

/-! ### The order from both sides -/

/-- Two orders one after the other, from the other side. -/
lemma then_swap {α β : Type} [Ord α] [Ord β] [Std.OrientedOrd α] [Std.OrientedOrd β] (x x' : α) (y y' : β) :
    (Ord.compare x' x).then (Ord.compare y' y) = ((Ord.compare x x').then (Ord.compare y y')).swap := by
  rw [Ordering.swap_then, ← Std.OrientedOrd.eq_swap, ← Std.OrientedOrd.eq_swap]

/-- The order from the other side is the reverse one, and there is none just if there is none from this side. -/
theorem compare_swap (a b : Value) : b.compare a = (a.compare b).map Ordering.swap := by
  unfold compare
  by_cases numeric : a.isNumeric ∧ b.isNumeric
  · rw [if_pos numeric, if_pos numeric.symm]
    exact compareNumbers_swap a b
  · rw [if_neg numeric, if_neg (numeric ∘ And.symm)]
    split
    case h_4 x y => exact congrArg some (then_swap y.hi x.hi y.lo x.lo)
    case h_7 s n s' n' => exact congrArg some (then_swap s' s n' n)
    case h_8 =>
      -- no two values of one kind that has an order, so none from this side either
      split <;> first | rfl | grind
    all_goals exact congrArg some Std.OrientedOrd.eq_swap

/-- Equality does not depend on the side. -/
theorem equals_comm (a b : Value) : a.equals b = b.equals a := by
  unfold equals
  by_cases numeric : a.isNumeric ∧ b.isNumeric
  · rw [if_pos numeric, if_pos numeric.symm, compareNumbers_swap a b]
    cases compareNumbers a b with
    | none => rfl
    | some o => cases o <;> rfl
  · have same : (a == b) = (b == a) := beq_comm a b
    rw [if_neg numeric, if_neg (numeric ∘ And.symm), same]
    simp only [ne_comm]

/-! ### Equality beside the order -/

/-- Equality as found by an order. -/
lemma beq_eq_compare {α : Type} [Ord α] [BEq α] [LawfulBEq α] [Std.LawfulEqOrd α] (x y : α) :
    (x == y) = (Ord.compare x y == .eq) := by
  rw [Bool.eq_iff_iff, beq_iff_eq, beq_iff_eq, Std.LawfulEqOrd.compare_eq_iff_eq]

lemma beq_uuid (x y : Uuid) : (x == y) = (compareUuids x y == .eq) := by
  obtain ⟨hi, lo⟩ := x
  obtain ⟨hi', lo'⟩ := y
  rw [Bool.eq_iff_iff, beq_iff_eq, beq_iff_eq, compareUuids, Ordering.then_eq_eq, Std.LawfulEqOrd.compare_eq_iff_eq,
    Std.LawfulEqOrd.compare_eq_iff_eq, Uuid.mk.injEq]

lemma beq_duration (s s' : Int64) (n n' : Int32) :
    (s == s' && n == n') = ((Ord.compare s s').then (Ord.compare n n') == .eq) := by
  rw [Bool.eq_iff_iff, Bool.and_eq_true, beq_iff_eq, beq_iff_eq, beq_iff_eq, Ordering.then_eq_eq,
    Std.LawfulEqOrd.compare_eq_iff_eq, Std.LawfulEqOrd.compare_eq_iff_eq]

/-- Of two values that have an order neither comes first just if they are equal. -/
theorem equals_of_compare {o : Ordering} (h : a.compare b = some o) : a.equals b = .ofBool (o == .eq) := by
  unfold compare at h
  unfold equals
  by_cases numeric : a.isNumeric ∧ b.isNumeric
  · rw [if_pos numeric] at h ⊢
    rw [h]
  · rw [if_neg numeric] at h ⊢
    split at h
    case h_8 => cases h
    all_goals
      obtain rfl := Option.some.inj h
      refine (if_neg (not_not.mpr rfl)).trans (congrArg Ternary.ofBool ?_)
    case h_1 x y => exact beq_eq_compare x y
    case h_2 x y => exact beq_eq_compare x y
    case h_3 x y => exact beq_eq_compare x y
    case h_4 x y => exact beq_uuid x y
    case h_5 x y => exact beq_eq_compare x y
    case h_6 x y => exact beq_eq_compare x y
    case h_7 s n s' n' => exact beq_duration s s' n n'


/-! ### What is not a number -/

/-- Being a number is a matter of the kind. -/
lemma isNumeric_eq (a : Value) :
    a.isNumeric = decide (a.kind ∈ [Kind.byte, Kind.short, Kind.int, Kind.long, Kind.float, Kind.double]) := by
  cases a <;> rfl

/-- A value of a floating-point kind that stands for no number. -/
def IsNaN (a : Value) : Prop :=
  a.isNumeric = true ∧ a.number? = none

/-- Not-a-number is no whole number, and not a number as a double either. -/
lemma IsNaN.binary64? (h : a.IsNaN) : a.integer? = none ∧ ∃ d : Binary64, a.binary64? = some d ∧ d.isNaN = true := by
  obtain ⟨numeric, h⟩ := h
  have nan (d : Binary64) (hd : d.number? = none) : d.isNaN = true := by
    rw [Binary64.number?_eq_point] at hd
    by_contra hnan
    rw [if_neg hnan] at hd
    cases hd
  cases a with
  | float bits => exact ⟨rfl, _, rfl, nan _ ((Binary64.number?_ofBinary32 bits).trans h)⟩
  | double bits => exact ⟨rfl, _, rfl, nan _ h⟩
  | byte | short | int | long => cases h
  | _ => cases numeric

lemma IsNaN.compareNumbers (h : a.IsNaN) (b : Value) : a.compareNumbers b = none := by
  obtain ⟨hwhole, d, hd, hnan⟩ := h.binary64?
  rw [Value.compareNumbers, hwhole, hd]
  cases b.binary64? with
  | none => rfl
  | some e => exact if_pos (.inl hnan)

lemma IsNaN.compare (h : a.IsNaN) (b : Value) : a.compare b = none := by
  unfold Value.compare
  split
  · exact h.compareNumbers b
  · have numeric := h.1
    split <;> first | rfl | cases numeric

lemma IsNaN.equals (h : a.IsNaN) (b : Value) : a.equals b = .error := by
  unfold Value.equals
  rw [h.compareNumbers b]
  by_cases hb : b.isNumeric
  · exact if_pos ⟨h.1, hb⟩
  · rw [if_neg fun both => hb both.2, if_pos]
    intro same
    rw [isNumeric_eq, ← same, ← isNumeric_eq] at hb
    exact hb h.1

/-! ### The operators -/

open Comparison

/-- The operators on two values are what they should be to each other. -/
structure Coherent (a b : Value) : Prop where
  /-- The order from the other side is the reverse one, or there is none on either side. -/
  compare_swap : b.compare a = (a.compare b).map Ordering.swap
  /-- Equality does not depend on the side. -/
  equals_comm : a.equals b = b.equals a
  /-- The strict orders are each other's converse. -/
  lt_eq_gt : lt.test a b = gt.test b a
  /-- The other orders are the negations of the strict ones. -/
  lte_eq_not_gt : lte.test a b = (gt.test a b).not
  gte_eq_not_lt : gte.test a b = (lt.test a b).not
  neq_eq_not_eq : neq.test a b = (eq.test a b).not
  /-- Of two values with an order exactly one of the strict orders and equality holds, and the others do not. -/
  decided : (a.compare b).isSome →
    ∃ op ∈ [lt, eq, gt], op.test a b = .true ∧ ∀ other ∈ [lt, eq, gt], other ≠ op → other.test a b = .false
  /-- Not to come after is to come first or to be equal. -/
  lte_eq_or : (a.compare b).isSome → lte.test a b = (lt.test a b).or (eq.test a b)
  /-- Not-a-number on either side is an error of every operator. -/
  nan : a.IsNaN ∨ b.IsNaN → ∀ op : Comparison, op.test a b = .error

/-- The operators on two values with an order, by how they are ordered. -/
lemma test_of_compare {o : Ordering} (h : a.compare b = some o) :
    lt.test a b = .ofBool o.isLT ∧ eq.test a b = .ofBool (o == .eq) ∧ gt.test a b = .ofBool o.isGT ∧
      lte.test a b = .ofBool o.isLE := by
  simp only [test, ordered, h, equals_of_compare h, and_self]

/-- Without an order and without equality every operator is in error. -/
lemma test_of_error (hcompare : a.compare b = none) (hequals : a.equals b = .error) (op : Comparison) :
    op.test a b = .error := by
  cases op <;> simp only [test, ordered, hcompare, hequals, Ternary.not]

/-- **The comparison operators are coherent.** The order and equality of any two values do not depend on the side that
they are seen from; each operator is the converse or the negation of another, under three-valued negation; of two
values with an order exactly one of less, equal and greater is true; and not-a-number is an error of all operators. -/
theorem coherent (a b : Value) : Coherent a b where
  compare_swap := compare_swap a b
  equals_comm := equals_comm a b
  lt_eq_gt := by
    simp only [test, ordered, compare_swap a b]
    cases a.compare b with
    | none => rfl
    | some o => cases o <;> rfl
  lte_eq_not_gt := by
    simp only [test, ordered]
    cases a.compare b with
    | none => rfl
    | some o => cases o <;> rfl
  gte_eq_not_lt := by
    simp only [test, ordered]
    cases a.compare b with
    | none => rfl
    | some o => cases o <;> rfl
  neq_eq_not_eq := rfl
  decided defined := by
    obtain ⟨o, ho⟩ := Option.isSome_iff_exists.mp defined
    obtain ⟨hlt, heq, hgt, -⟩ := test_of_compare ho
    cases o with
    | lt => exact ⟨lt, by simp, hlt, by simp [heq, hgt, Ternary.ofBool]⟩
    | eq => exact ⟨eq, by simp, heq, by simp [hlt, hgt, Ternary.ofBool]⟩
    | gt => exact ⟨gt, by simp, hgt, by simp [hlt, heq, Ternary.ofBool]⟩
  lte_eq_or defined := by
    obtain ⟨o, ho⟩ := Option.isSome_iff_exists.mp defined
    obtain ⟨hlt, heq, -, hlte⟩ := test_of_compare ho
    rw [hlt, heq, hlte]
    cases o <;> rfl
  nan h op := by
    rcases h with h | h
    · exact test_of_error (h.compare b) (h.equals b) op
    · refine test_of_error ?_ ((equals_comm a b).trans (h.equals a)) op
      rw [compare_swap b a, h.compare a]
      rfl

/-- Null has no order, and is equal to itself; a text and a number are in error, and so is not-a-number with itself. -/
example : (null.compare null, null.equals null, (string "").equals (int 0), (double 0x7FF8000000000000).equals
    (double 0x7FF8000000000000)) = (none, .true, .error, .error) := by
  decide

end Value

end GraphServer
