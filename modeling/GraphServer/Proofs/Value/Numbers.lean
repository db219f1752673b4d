import GraphServer.Proofs.Value.Rounding

/-!
How numbers of different widths compare.

Two whole numbers compare exactly, and so do two floating-point numbers. Between the two kinds the whole number is
rounded to a double first, so that it may be taken for a floating-point number that it is not.

* `Value.number?`: the exact number of a value;
* `Value.Blurs`: a whole number that is taken for a floating-point number next to it;
* `Value.compared`: **values compare as their numbers do, except where one is taken for the other**;
* `Value.equals_not_transitive`: equality is not transitive for that reason.
-/

namespace GraphServer

namespace Value

open FloatFormat (single double)

variable {a b : Value} {x y : Number}

/-- The exact number of a numeric value. -/
def number? : Value → Option Number
  | float bits => single.number? bits.toNat
  | double bits => FloatFormat.double.number? bits.toNat
  | v => v.integer?.map fun n => .finite n.toInt

/-- A whole number is taken for a floating-point number: it rounds to it without being it. -/
def Blurs (a b : Value) : Prop :=
  ∃ (n : Int64) (d : Binary64) (q : ℚ), a.integer? = some n ∧ b.integer? = none ∧ d.Rounds n.toInt q ∧
    b.number? = some (.finite q) ∧ q ≠ n.toInt

lemma isNumeric_of_number? (h : a.number? = some x) : a.isNumeric = true := by
  cases a <;> first | rfl | cases h

/-- A whole number, or a floating-point number with the number of a double. -/
lemma number?_cases (h : a.number? = some x) :
    (∃ n : Int64, a.integer? = some n ∧ a.binary64? = some (.ofInt n.toInt) ∧ x = .finite n.toInt) ∨
      (a.integer? = none ∧ ∃ d, a.binary64? = some d ∧ d.number? = some x) := by
  cases a with
  | byte | short | int | long => exact .inl ⟨_, rfl, rfl, (Option.some.inj h).symm⟩
  | float bits => exact .inr ⟨rfl, _, rfl, (Binary64.number?_ofBinary32 bits).trans h⟩
  | double bits => exact .inr ⟨rfl, _, rfl, h⟩
  | _ => cases h

lemma natAbs_toInt_lt (n : Int64) : n.toInt.natAbs < 2 ^ 64 := by
  have := n.toInt_lt
  have := n.le_toInt
  omega

/-- Whether a whole number is taken for a floating-point number is decided by what it is turned into. -/
lemma blurs_iff {n : Int64} {q : ℚ} (ha : a.integer? = some n) (hb : b.number? = some y) (floating : b.integer? = none)
    (rounds : (Binary64.ofInt n.toInt).Rounds n.toInt q) : a.Blurs b ↔ y = .finite q ∧ q ≠ n.toInt := by
  constructor
  · rintro ⟨n', d, r, ha', -, hr, hb', hne⟩
    obtain rfl := Option.some.inj (ha.symm.trans ha')
    have same := Option.some.inj ((hr.number?_ofInt (natAbs_toInt_lt n)).symm.trans rounds.number?_eq)
    obtain rfl := Number.finite_injective same
    exact ⟨Option.some.inj (hb.symm.trans hb'), hne⟩
  · rintro ⟨rfl, hne⟩
    exact ⟨n, _, q, ha, floating, rounds, hb, hne⟩

/-- Rounding a whole number leaves it on the same side of every other double. -/
lemma cmp_rounded {n : ℤ} {d e : Binary64} {q : ℚ} (rounds : d.Rounds n q) (he : e.number? = some y)
    (hne : y ≠ .finite q) : cmp (Number.finite q) y = cmp (Number.finite n) y := by
  induction y using WithBot.recBotCoe with
  | bot => rfl
  | coe y =>
    induction y using WithTop.recTopCoe with
    | top => rfl
    | coe r =>
      change e.number? = some (.finite r) at he
      change cmp (Number.finite q) (Number.finite r) = cmp (Number.finite n) (Number.finite r)
      have near := rounds.nearest e r he
      have hrq : r ≠ q := fun h => hne (congrArg Number.finite h)
      rw [Number.finite_strictMono.cmp_map_eq, Number.finite_strictMono.cmp_map_eq]
      -- a double between the number and what it rounds to would be nearer
      rcases hrq.lt_or_gt with below | above
      · have : r < n := by
          by_contra h
          rw [abs_of_nonpos (by linarith), abs_of_nonpos (by linarith)] at near
          linarith
        rw [(cmp_eq_gt_iff _ _).mpr below, (cmp_eq_gt_iff _ _).mpr this]
      · have : n < r := by
          by_contra h
          rw [abs_of_nonneg (by linarith), abs_of_nonneg (by linarith)] at near
          linarith
        rw [(cmp_eq_lt_iff _ _).mpr above, (cmp_eq_lt_iff _ _).mpr this]

/-! ### Comparing numbers -/

lemma compare_of_numeric (ha : a.number? = some x) (hb : b.number? = some y) {o : Ordering}
    (h : compareNumbers a b = some o) : a.compare b = some o ∧ a.equals b = .ofBool (o == .eq) := by
  have numeric : a.isNumeric ∧ b.isNumeric := ⟨isNumeric_of_number? ha, isNumeric_of_number? hb⟩
  unfold compare equals
  rw [if_pos numeric, if_pos numeric, h]
  exact ⟨rfl, rfl⟩

/-- How two numbers compare. -/
structure Compared (a b : Value) (x y : Number) : Prop where
  /-- One that is taken for the other is equal to it. -/
  blurred : a.Blurs b ∨ b.Blurs a → a.compare b = some .eq ∧ a.equals b = .true
  /-- Any others compare as their exact numbers do. -/
  sharp : ¬(a.Blurs b ∨ b.Blurs a) → a.compare b = some (cmp x y) ∧ a.equals b = .ofBool (x = y)
  /-- Only a whole number of more than 53 bits is taken for another. -/
  far : a.Blurs b ∨ b.Blurs a → ∃ n : Int64, (a.integer? = some n ∨ b.integer? = some n) ∧ 2 ^ 53 < n.toInt.natAbs

lemma compare_int64 (n m : Int64) : Ord.compare n m = cmp n.toInt m.toInt := by
  rw [cmp_eq_compare]
  simp only [Ord.compare, compareOfLessAndEq, Int64.lt_iff_toInt_lt, ← Int64.toInt_inj]

/-- Two whole numbers compare as such, and any others as doubles. -/
lemma compareNumbers_whole {n m : Int64} (ha : a.integer? = some n) (hb : b.integer? = some m) :
    compareNumbers a b = some (cmp (Number.finite n.toInt) (.finite m.toInt)) := by
  have cast : StrictMono fun n : ℤ => (n : ℚ) := Int.cast_strictMono
  rw [Number.finite_strictMono.cmp_map_eq, cast.cmp_map_eq n.toInt m.toInt, ← compare_int64, compareNumbers, ha, hb]

lemma compareNumbers_floating (h : a.integer? = none ∨ b.integer? = none) {d e : Binary64}
    (hd : a.binary64? = some d) (he : b.binary64? = some e) (hx : d.number? = some x) (hy : e.number? = some y) :
    compareNumbers a b = some (cmp x y) := by
  rw [← Binary64.compare_eq_cmp hx hy, compareNumbers]
  split
  · simp_all
  · rw [hd, he]
    rfl

lemma ofBool_cmp (x y : Number) : Ternary.ofBool (cmp x y == .eq) = .ofBool (x = y) := by
  congr 1
  rw [Bool.eq_iff_iff, beq_iff_eq, cmp_eq_eq_iff, decide_eq_true_eq]

/-- Without a whole number and a floating-point one, no number is taken for another. -/
lemma Compared.of_cmp (ha : a.number? = some x) (hb : b.number? = some y)
    (hab : ¬a.Blurs b) (hba : ¬b.Blurs a) (h : compareNumbers a b = some (cmp x y)) : Compared a b x y where
  blurred blurs := (blurs.elim hab hba).elim
  sharp _ := ofBool_cmp x y ▸ compare_of_numeric ha hb h
  far blurs := (blurs.elim hab hba).elim

/-- A whole number beside a floating-point one: it is rounded, and then taken for the number that it is rounded to. -/
lemma Compared.of_whole {n : Int64} {d : Binary64} (ha : a.integer? = some n)
    (hwhole : a.binary64? = some (.ofInt n.toInt)) (floating : b.integer? = none) (hd : b.binary64? = some d)
    (hx : a.number? = some (.finite n.toInt)) (hy : b.number? = some y) (hdy : d.number? = some y) :
    Compared a b (.finite n.toInt) y := by
  obtain ⟨q, rounds⟩ := Binary64.ofInt_rounds (natAbs_toInt_lt n)
  have blurs := blurs_iff ha hy floating rounds
  have other : ¬b.Blurs a := by
    rintro ⟨n', -, -, hn', -⟩
    cases floating.symm.trans hn'
  have h := compareNumbers_floating (.inr floating) hwhole hd rounds.number?_eq hdy
  refine ⟨fun hblurs => ?_, fun hsharp => ?_, fun hblurs => ?_⟩
  · obtain ⟨rfl, -⟩ := blurs.mp (hblurs.resolve_right other)
    rw [cmp_self_eq_eq] at h
    exact compare_of_numeric hx hy h
  · have same : cmp (Number.finite q) y = cmp (Number.finite n.toInt) y := by
      by_cases hyq : y = .finite q
      · have kept : q = n.toInt := by
          by_contra hne
          exact hsharp (.inl (blurs.mpr ⟨hyq, hne⟩))
        rw [kept]
      · exact cmp_rounded rounds hdy hyq
    rw [same] at h
    exact ofBool_cmp _ y ▸ compare_of_numeric hx hy h
  · obtain ⟨rfl, hne⟩ := blurs.mp (hblurs.resolve_right other)
    refine ⟨n, .inl ha, not_le.mp fun hle => hne ?_⟩
    have kept := Option.some.inj (rounds.number?_eq.symm.trans (Binary64.number?_ofInt_of_le hle))
    exact Number.finite_injective kept

/-- The comparison from the other side. -/
lemma compareNumbers_swap (a b : Value) : compareNumbers b a = Ordering.swap <$> compareNumbers a b := by
  have ints (n m : Int64) : Ord.compare m n = (Ord.compare n m).swap := by
    rw [compare_int64, compare_int64, cmp_swap]
  have doubles (d e : Binary64) : e.compare d = Ordering.swap <$> d.compare e := by
    rw [Binary64.compare, Binary64.compare, ← cmp_eq_compare, ← cmp_eq_compare, ← cmp_swap d.rank]
    by_cases hnan : d.isNaN ∨ e.isNaN
    · rw [if_pos hnan, if_pos hnan.symm]
      rfl
    · rw [if_neg hnan, if_neg (hnan ∘ Or.symm)]
      rfl
  rw [compareNumbers, compareNumbers]
  cases a.integer? with
  | none => cases a.binary64? <;> cases b.integer? <;> cases b.binary64? <;> first | rfl | exact doubles _ _
  | some n =>
    cases b.integer? with
    | none => cases a.binary64? <;> cases b.binary64? <;> first | rfl | exact doubles _ _
    | some m => exact congrArg some (ints n m)

lemma Compared.swap (h : Compared a b x y) (ha : a.number? = some x) (hb : b.number? = some y) : Compared b a y x := by
  have numeric : a.isNumeric ∧ b.isNumeric := ⟨isNumeric_of_number? ha, isNumeric_of_number? hb⟩
  have hab : a.compare b = compareNumbers a b := by
    unfold compare
    exact if_pos numeric
  have hswap := compareNumbers_swap a b
  rw [← hab] at hswap
  refine ⟨fun blurs => ?_, fun sharp => ?_, fun blurs => ?_⟩
  · rw [(h.blurred blurs.symm).1] at hswap
    exact compare_of_numeric hb ha hswap
  · rw [(h.sharp fun blurs => sharp blurs.symm).1] at hswap
    have hcmp : compareNumbers b a = some (cmp y x) := hswap.trans (congrArg some (cmp_swap x y))
    exact ofBool_cmp y x ▸ compare_of_numeric hb ha hcmp
  · obtain ⟨n, hn, far⟩ := h.far blurs.symm
    exact ⟨n, hn.symm, far⟩

/-- **Numbers compare by value, except where one is rounded.** Two numbers of any widths compare as their exact numbers
do, and are equal just when those are, unless one is a whole number that rounds to the other without being it: then
they are equal. Only whole numbers above `2 ^ 53` do so. -/
theorem compared (ha : a.number? = some x) (hb : b.number? = some y) : Compared a b x y := by
  rcases number?_cases ha with ⟨n, hn, hna, rfl⟩ | ⟨hn, d, hd, hdx⟩
  · rcases number?_cases hb with ⟨m, hm, -, rfl⟩ | ⟨hm, e, he, hey⟩
    · have whole {a b : Value} {n : Int64} (hb : b.integer? = some n) : ¬a.Blurs b := by
        rintro ⟨-, -, -, -, hb', -⟩
        cases hb.symm.trans hb'
      exact .of_cmp ha hb (whole hm) (whole hn) (compareNumbers_whole hn hm)
    · exact .of_whole hn hna hm he ha hb hey
  · rcases number?_cases hb with ⟨m, hm, hmb, rfl⟩ | ⟨hm, e, he, hey⟩
    · exact (Compared.of_whole hm hmb hn hd hb ha hdx).swap hb ha
    · have floating {a b : Value} (ha : a.integer? = none) : ¬a.Blurs b := by
        rintro ⟨n, -, -, ha', -⟩
        cases ha.symm.trans ha'
      exact .of_cmp ha hb (floating hn) (floating hm) (compareNumbers_floating (.inl hn) hd he hdx hey)

/-- The least whole number above zero that is not a double. -/
def firstRounded : Value := long 9007199254740993

/-- The double that it rounds to. -/
def roundedTo : Value := double 0x4340000000000000

lemma number?_firstRounded : firstRounded.number? = some (.finite 9007199254740993) := rfl

lemma number?_roundedTo : roundedTo.number? = some (.finite 9007199254740992) := by
  have pattern : Binary64.ofInt 9007199254740992 = ⟨0x4340000000000000⟩ := by decide
  have kept := Binary64.number?_ofInt_of_le (n := 9007199254740992) (by decide)
  rw [pattern] at kept
  exact kept

theorem compared_firstRounded : firstRounded.number? = some (.finite 9007199254740993) ∧
    roundedTo.number? = some (.finite 9007199254740992) ∧ firstRounded.Blurs roundedTo ∧
    Compared firstRounded roundedTo (.finite 9007199254740993) (.finite 9007199254740992) := by
  have pattern : Binary64.ofInt 9007199254740993 = ⟨0x4340000000000000⟩ := by decide
  obtain ⟨q, rounds⟩ := Binary64.ofInt_rounds (n := 9007199254740993) (by decide)
  have number : roundedTo.number? = some (.finite q) := by
    have h := rounds.number?_eq
    rw [pattern] at h
    exact h
  obtain rfl := Number.finite_injective (Option.some.inj (number.symm.trans number?_roundedTo))
  refine ⟨number?_firstRounded, number?_roundedTo, ?_, compared number?_firstRounded number?_roundedTo⟩
  have differ : (9007199254740992 : ℚ) ≠ (9007199254740993 : ℤ) := by norm_num
  exact ⟨_, _, _, rfl, rfl, rounds, number, differ⟩

/-- **Equality of numbers is not transitive**: two different whole numbers are equal to the double that one of them is
and the other rounds to. -/
theorem equals_not_transitive :
    firstRounded.number? = some (.finite 9007199254740993) ∧
      roundedTo.number? = some (.finite 9007199254740992) ∧ firstRounded.compare roundedTo = some .eq ∧
      firstRounded.equals roundedTo = .true ∧ roundedTo.equals (long 9007199254740992) = .true ∧
      firstRounded.equals (long 9007199254740992) = .false :=
  ⟨number?_firstRounded, number?_roundedTo, by decide, by decide, by decide, by decide⟩

end Value

end GraphServer
