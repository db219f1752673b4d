import GraphServer.Proofs.Value.Exact

/-!
Which double a whole number is turned into.

The doubles lie on a line of ranks, with numbers that grow along it. A whole number lies between two neighbours on
that line; the conversion takes the nearer one, and of two equally near the one with the even fraction.

* `NearestEven`: what is nearest to a number along a line, of two nearest the even one;
* `Binary64.nearestEven_ofInt`: the conversion yields it;
* `Binary64.Rounds`: what a nearest double is, with ties to even, said of exact numbers alone;
* `Binary64.ofInt_rounds`, `Binary64.Rounds.number?_ofInt`: **the conversion rounds, and nothing else does**;
* `Binary64.number?_ofInt_of_le`: up to `2 ^ 53` a whole number is kept.
-/

namespace GraphServer

/-! ### Nearest on a line -/

/-- The value at `M` is nearest to `N` among all; another one is as near only if it is at an odd place and this one at
an even place. -/
structure NearestEven (S : ℤ → ℤ) (N M : ℤ) : Prop where
  nearest : ∀ r, (N - S M).natAbs ≤ (N - S r).natAbs
  even : ∀ r, r ≠ M → (N - S r).natAbs = (N - S M).natAbs → M % 2 = 0 ∧ r % 2 = 1

namespace NearestEven

variable {S : ℤ → ℤ} {N m M : ℤ}

/-- The lower one of two neighbours. -/
lemma low (mono : StrictMono S) (above : S m ≤ N)
    (near : N - S m < S (m + 1) - N ∨ (N - S m = S (m + 1) - N ∧ m % 2 = 0)) : NearestEven S N m where
  nearest r := by
    rcases Int.lt_or_le m r with hr | hr
    · have := mono.monotone (Int.add_one_le_of_lt hr)
      omega
    · have := mono.monotone hr
      omega
  even r hne tie := by
    rcases lt_trichotomy r (m + 1) with hr | rfl | hr
    · have := mono (show r < m by omega)
      omega
    · omega
    · have := mono hr
      omega

/-- The upper one of two neighbours. -/
lemma high (mono : StrictMono S) (below : N < S (m + 1))
    (near : S (m + 1) - N < N - S m ∨ (N - S m = S (m + 1) - N ∧ m % 2 = 1)) : NearestEven S N (m + 1) where
  nearest r := by
    rcases Int.lt_or_le m r with hr | hr
    · have := mono.monotone (Int.add_one_le_of_lt hr)
      omega
    · have := mono.monotone hr
      omega
  even r hne tie := by
    rcases lt_trichotomy r m with hr | rfl | hr
    · have := mono hr
      omega
    · omega
    · have := mono (show m + 1 < r by omega)
      omega

/-- A number that is on the line. -/
lemma exact (mono : StrictMono S) (h : S M = N) : NearestEven S N M := by
  have := mono (lt_add_one M)
  exact low mono h.le (.inl (by omega))

/-- The choice between two neighbours: the upper one if it is nearer, or if it is even and they are equally near. -/
lemma of_neighbours (mono : StrictMono S) {m A B R : ℕ} (lower : S m = A) (upper : S (m + 1) = A + B) (hR : R < B) :
    NearestEven S (A + R : ℕ) (m + if B < 2 * R ∨ (2 * R = B ∧ m % 2 = 1) then 1 else 0 : ℕ) := by
  split
  next up =>
    rw [Nat.cast_add m 1, Nat.cast_one]
    refine high mono ?_ ?_
    · rw [upper]
      omega
    · rw [upper, lower]
      omega
  next down =>
    rw [add_zero]
    refine low mono ?_ ?_
    · rw [lower]
      omega
    · rw [upper, lower]
      omega

/-- A line that is the same in both directions. -/
lemma neg (h : NearestEven S N M) (odd : ∀ r, S (-r) = -S r) : NearestEven S (-N) (-M) where
  nearest r := by
    have := h.nearest (-r)
    rw [odd] at this ⊢
    omega
  even r hne tie := by
    have := h.even (-r) (by omega)
    rw [odd] at this tie
    omega

end NearestEven

namespace Binary64

open FloatFormat (double)

/-! ### The conversion -/

/-- One is this power of two many times the least positive double. -/
def finest : Nat := 1074

lemma least_double : 2 ^ finest * double.least = 1 := by
  have hleast : double.least = (2 : ℚ) ^ (-1074 : ℤ) := rfl
  rw [hleast, finest, ← zpow_natCast, ← zpow_add₀ two_ne_zero]
  rfl

lemma short_exponent {top : Nat} (h : top ≤ 52) : 52 - top + (top + 1022) = finest := by
  unfold finest
  omega

lemma long_exponent {top : Nat} (h : 52 < top) : top + 1022 = top - 52 + finest := by
  unfold finest
  omega

/-- The numbers with the first bit at `top` lie a power of two apart. -/
lemma steps_quotient {top quotient : Nat} (hlow : 2 ^ 52 ≤ quotient) (hhigh : quotient ≤ 2 ^ 53) :
    double.steps ((top + 1023) * 2 ^ 52 + (quotient - 2 ^ 52)) = quotient * 2 ^ (top + 1022) := by
  have hexponent : top + 1023 = top + 1022 + 1 := rfl
  rw [hexponent, steps_double (top + 1022) (by omega), Nat.add_sub_cancel' hlow]

/-- The pattern that a whole number is turned into. -/
structure Turned (negative : Bool) (n : Nat) (M : Nat) : Prop where
  magnitude_eq : (ofNat negative n).magnitude = M
  isNegative_eq : (ofNat negative n).isNegative = negative
  finite : M < double.infinity
  nearest : NearestEven double.signedSteps (n * 2 ^ finest : Nat) M

/-- A whole number of at most 53 bits is kept. -/
lemma turned_short (negative : Bool) {n : Nat} (hn : n ≠ 0) (htop : n.log2 ≤ 52) :
    Turned negative n ((n.log2 + 1023) * 2 ^ 52 + (n <<< (52 - n.log2) - 1 <<< 52)) := by
  have hfraction := (steps_shifted hn htop (n.log2 + 1022)).2
  have fits : (n.log2 + 1023) * 2 ^ 52 + (n <<< (52 - n.log2) - 1 <<< 52) < 2 ^ 63 := by omega
  have spec := assemble_spec negative fits
  have hof : ofNat negative n = assemble negative (n.log2 + 1023) (n <<< (52 - n.log2) - 1 <<< 52) := by
    rw [ofNat, if_neg hn]
    exact if_pos htop
  refine ⟨hof ▸ spec.1, hof ▸ spec.2, ?_, .exact double.signedSteps_strictMono ?_⟩
  · have hdouble : double.infinity = 2047 * 2 ^ 52 := rfl
    omega
  · have hexponent : n.log2 + 1023 = n.log2 + 1022 + 1 := rfl
    rw [FloatFormat.signedSteps_natCast, hexponent, (steps_shifted hn htop (n.log2 + 1022)).1, short_exponent htop]

/-- A longer one lies between two neighbours, and the nearer one is taken. -/
lemma nearest_long {top q r : Nat} (htop : 52 < top) (hlow : 2 ^ 52 ≤ q) (hhigh : q < 2 ^ 53)
    (hr : r < 2 ^ (top - 52)) :
    NearestEven double.signedSteps ((q * 2 ^ (top - 52) + r) * 2 ^ finest : Nat)
      ((top + 1023) * 2 ^ 52 + (q - 2 ^ 52 +
        if 2 ^ (top - 52) < 2 * r ∨ (2 * r = 2 ^ (top - 52) ∧ q % 2 = 1) then 1 else 0) : Nat) := by
  have hpos : 0 < 2 ^ finest := Nat.two_pow_pos _
  -- the two neighbours, in steps
  have lower : double.signedSteps ((top + 1023) * 2 ^ 52 + (q - 2 ^ 52) : Nat) =
      (q * 2 ^ (top - 52) * 2 ^ finest : Nat) := by
    rw [FloatFormat.signedSteps_natCast, steps_quotient hlow hhigh.le, long_exponent htop, pow_add, mul_assoc]
  have upper : double.signedSteps (((top + 1023) * 2 ^ 52 + (q - 2 ^ 52) : Nat) + 1) =
      (q * 2 ^ (top - 52) * 2 ^ finest : Nat) + (2 ^ (top - 52) * 2 ^ finest : Nat) := by
    have hsucc : (((top + 1023) * 2 ^ 52 + (q - 2 ^ 52) : Nat) + 1 : ℤ) =
        ((top + 1023) * 2 ^ 52 + (q + 1 - 2 ^ 52) : Nat) := by omega
    have hq : (q + 1) * 2 ^ (top - 52 + finest) =
        q * 2 ^ (top - 52) * 2 ^ finest + 2 ^ (top - 52) * 2 ^ finest := by ring
    rw [hsucc, FloatFormat.signedSteps_natCast, steps_quotient (hlow.trans q.le_succ) hhigh, long_exponent htop, hq,
      Nat.cast_add]
  have parity : ((top + 1023) * 2 ^ 52 + (q - 2 ^ 52)) % 2 = q % 2 := by omega
  have hn : (q * 2 ^ (top - 52) + r) * 2 ^ finest = q * 2 ^ (top - 52) * 2 ^ finest + r * 2 ^ finest := by ring
  have choice : (2 ^ (top - 52) < 2 * r ∨ (2 * r = 2 ^ (top - 52) ∧ q % 2 = 1)) ↔
      (2 ^ (top - 52) * 2 ^ finest < 2 * (r * 2 ^ finest) ∨ (2 * (r * 2 ^ finest) = 2 ^ (top - 52) * 2 ^ finest ∧
        ((top + 1023) * 2 ^ 52 + (q - 2 ^ 52)) % 2 = 1)) := by
    rw [parity, ← mul_assoc 2 r, Nat.mul_lt_mul_right hpos, Nat.mul_left_inj hpos.ne']
  rw [hn, ← Nat.add_assoc]
  simp only [choice]
  exact .of_neighbours double.signedSteps_strictMono lower upper (Nat.mul_lt_mul_of_pos_right hr hpos)

/-- A whole number of more bits, by its first 53 bits and the rest. -/
lemma ofNat_long (negative : Bool) {n : Nat} (hn : n ≠ 0) (htop : 52 < n.log2) :
    ofNat negative n = assemble negative (n.log2 + 1023) (n / 2 ^ (n.log2 - 52) - 2 ^ 52 +
      if 2 ^ (n.log2 - 52) < 2 * (n % 2 ^ (n.log2 - 52)) ∨
        (2 * (n % 2 ^ (n.log2 - 52)) = 2 ^ (n.log2 - 52) ∧ n / 2 ^ (n.log2 - 52) % 2 = 1) then 1 else 0) := by
  rw [ofNat, if_neg hn]
  simp only [if_neg htop.not_ge, Nat.shiftLeft_eq, one_mul, decide_eq_true_eq]

lemma turned_long (negative : Bool) {n : Nat} (hn : n < 2 ^ 64) (htop : 52 < n.log2) :
    ∃ M, Turned negative n M := by
  have hn0 : n ≠ 0 := by
    rintro rfl
    simp at htop
  have htop' : n.log2 < 64 := (Nat.log2_lt hn0).mpr hn
  have hunit : 0 < 2 ^ (n.log2 - 52) := Nat.two_pow_pos _
  have hlow : 2 ^ 52 ≤ n / 2 ^ (n.log2 - 52) := by
    rw [Nat.le_div_iff_mul_le hunit, ← pow_add, Nat.add_sub_cancel' htop.le]
    exact Nat.log2_self_le hn0
  have hhigh : n / 2 ^ (n.log2 - 52) < 2 ^ 53 := by
    have hexponent : 53 + (n.log2 - 52) = n.log2 + 1 := by omega
    rw [Nat.div_lt_iff_lt_mul hunit, ← pow_add, hexponent]
    exact Nat.lt_log2_self
  have nearest := nearest_long htop hlow hhigh (Nat.mod_lt n hunit)
  rw [Nat.div_add_mod'] at nearest
  have hof := ofNat_long negative hn0 htop
  have fraction_le : ∀ (c : Prop) [Decidable c], n / 2 ^ (n.log2 - 52) - 2 ^ 52 + (if c then 1 else 0) ≤ 2 ^ 52 := by
    intro c _
    split <;> omega
  have fits := fraction_le (2 ^ (n.log2 - 52) < 2 * (n % 2 ^ (n.log2 - 52)) ∨
    (2 * (n % 2 ^ (n.log2 - 52)) = 2 ^ (n.log2 - 52) ∧ n / 2 ^ (n.log2 - 52) % 2 = 1))
  generalize n / 2 ^ (n.log2 - 52) - 2 ^ 52 + _ = fraction at nearest hof fits
  have spec : (assemble negative (n.log2 + 1023) fraction).magnitude = _ ∧ _ := assemble_spec negative (by omega)
  rw [← hof] at spec
  refine ⟨_, spec.1, spec.2, ?_, nearest⟩
  have hdouble : double.infinity = 2047 * 2 ^ 52 := rfl
  omega

lemma exists_turned (negative : Bool) {n : Nat} (hn : n < 2 ^ 64) : ∃ M, Turned negative n M := by
  rcases Nat.eq_zero_or_pos n with rfl | hpos
  · have spec : (ofNat negative 0).magnitude = 0 * 2 ^ 52 + 0 ∧ _ := assemble_spec negative (by decide)
    exact ⟨_, spec.1, spec.2, by decide, .exact double.signedSteps_strictMono (by
      simp only [zero_mul, add_zero, FloatFormat.signedSteps_natCast, FloatFormat.steps_zero])⟩
  · rcases Nat.lt_or_ge 52 n.log2 with long | short
    · exact turned_long negative hn long
    · exact ⟨_, turned_short negative hpos.ne' short⟩

/-- **A whole number is turned into the nearest double**, of two nearest into the even one. -/
lemma nearestEven_ofInt {n : ℤ} (hn : n.natAbs < 2 ^ 64) :
    (ofInt n).magnitude < double.infinity ∧
      NearestEven double.signedSteps (n * 2 ^ finest) (ofInt n).rank := by
  obtain ⟨M, turned⟩ := exists_turned (decide (n < 0)) hn
  have finite := turned.finite
  have nearest := turned.nearest
  have hrank : (ofInt n).rank = signed (decide (n < 0)) M := by
    rw [rank_eq_signed, ofInt, turned.magnitude_eq, turned.isNegative_eq]
  rw [← turned.magnitude_eq] at finite
  refine ⟨finite, ?_⟩
  rw [hrank]
  rcases Int.lt_or_le n 0 with negative | nonneg
  · have hN : n * 2 ^ finest = -(n.natAbs * 2 ^ finest : Nat) := by
      rw [Nat.cast_mul, Int.ofNat_natAbs_of_nonpos negative.le]
      push_cast
      ring
    rw [hN, signed, if_pos (decide_eq_true negative)]
    exact nearest.neg double.signedSteps_neg
  · have hN : n * 2 ^ finest = (n.natAbs * 2 ^ finest : Nat) := by
      rw [Nat.cast_mul, Int.natAbs_of_nonneg nonneg]
      push_cast
      rfl
    rw [hN, signed, if_neg (by simpa using nonneg)]
    exact nearest

/-! ### Rounding, by the numbers alone -/

/-- A double is what a whole number rounds to: no double is nearer, and if another one is as near, its own last bit is
zero. -/
structure Rounds (n : ℤ) (d : Binary64) (q : ℚ) : Prop where
  number?_eq : d.number? = some (.finite q)
  nearest : ∀ (e : Binary64) (r : ℚ), e.number? = some (.finite r) → |n - q| ≤ |n - r|
  even : ∀ (e : Binary64) (r : ℚ), e.number? = some (.finite r) → r ≠ q → |n - r| = |n - q| → d.bits.toNat % 2 = 0

lemma number?_of_finite {d : Binary64} (h : d.magnitude < double.infinity) :
    d.number? = some (.finite (double.signedSteps d.rank * double.least)) := by
  have hrank : d.rank.natAbs = d.magnitude := by
    rw [rank]
    split <;> omega
  have hnan : ¬d.isNaN = true := by
    rw [isNaN, decide_eq_true_eq]
    exact h.le.not_gt
  rw [number?_eq_point, if_neg hnan, FloatFormat.point_of_lt (hrank ▸ h)]

/-- A double that stands for a number stands for that of its rank. -/
lemma eq_of_number? {d : Binary64} {q : ℚ} (h : d.number? = some (.finite q)) :
    q = double.signedSteps d.rank * double.least := by
  rw [number?_eq_point] at h
  split at h
  · cases h
  · have h := Option.some.inj h
    rw [FloatFormat.point] at h
    split at h
    · cases h
    · split at h
      · cases h
      · exact (Number.finite_injective h).symm

/-- How far a whole number is from a number of so many steps. -/
lemma abs_sub_steps (n s : ℤ) :
    |(n : ℚ) - s * double.least| = ((n * 2 ^ finest - s).natAbs : ℚ) * double.least := by
  have hn : (n : ℚ) = n * (2 ^ finest * double.least) := by rw [least_double, mul_one]
  have hsub : (n : ℚ) - s * double.least = ((n * 2 ^ finest - s : ℤ) : ℚ) * double.least := by
    push_cast
    rw [sub_mul, mul_assoc, ← hn]
  rw [hsub, abs_mul, abs_of_pos double.least_pos, Nat.cast_natAbs, Int.cast_abs]

lemma bits_mod_two (d : Binary64) : (d.bits.toNat % 2 : ℤ) = d.rank % 2 := by
  have hmagnitude : d.magnitude % 2 = d.bits.toNat % 2 := by
    simp only [magnitude, Nat.shiftLeft_eq]
    omega
  rw [rank]
  split <;> omega

/-- **A whole number is rounded.** -/
theorem ofInt_rounds {n : ℤ} (hn : n.natAbs < 2 ^ 64) : ∃ q, Rounds n (ofInt n) q := by
  obtain ⟨finite, spec⟩ := nearestEven_ofInt hn
  refine ⟨_, number?_of_finite finite, fun e r he => ?_, fun e r he hne tie => ?_⟩
  · rw [eq_of_number? he, abs_sub_steps, abs_sub_steps]
    exact mul_le_mul_of_nonneg_right (by exact_mod_cast spec.nearest e.rank) double.least_pos.le
  · obtain rfl := eq_of_number? he
    rw [abs_sub_steps, abs_sub_steps] at tie
    have tie := mul_right_cancel₀ double.least_pos.ne' tie
    have hrank : e.rank ≠ (ofInt n).rank := fun h => hne (by rw [h])
    have even := (spec.even e.rank hrank (by exact_mod_cast tie)).1
    rw [← bits_mod_two] at even
    exact_mod_cast even

/-- **Nothing else is what it rounds to.** -/
theorem Rounds.number?_ofInt {n : ℤ} {d : Binary64} {q : ℚ} (h : Rounds n d q) (hn : n.natAbs < 2 ^ 64) :
    (ofInt n).number? = some (.finite q) := by
  obtain ⟨finite, spec⟩ := nearestEven_ofInt hn
  have number := number?_of_finite finite
  obtain rfl := eq_of_number? h.number?_eq
  by_cases hrank : d.rank = (ofInt n).rank
  · rw [number, hrank]
  exfalso
  -- both are nearest, so that they are equally near; then one is even and the other odd
  have hle := h.nearest _ _ number
  rw [abs_sub_steps, abs_sub_steps] at hle
  have hle := le_of_mul_le_mul_right hle double.least_pos
  have tie : (n * 2 ^ finest - double.signedSteps d.rank).natAbs =
      (n * 2 ^ finest - double.signedSteps (ofInt n).rank).natAbs :=
    le_antisymm (by exact_mod_cast hle) (spec.nearest d.rank)
  have odd := (spec.even d.rank hrank tie).2
  have hne : double.signedSteps (ofInt n).rank * double.least ≠ double.signedSteps d.rank * double.least := by
    intro heq
    have heq := mul_right_cancel₀ double.least_pos.ne' heq
    exact hrank (double.signedSteps_strictMono.injective (by exact_mod_cast heq)).symm
  have even := h.even _ _ number hne (by rw [abs_sub_steps, abs_sub_steps, tie])
  have parity := d.bits_mod_two
  omega

/-- Every whole number up to `2 ^ 53` is on the line. -/
lemma exists_steps {n : Nat} (hn : n ≤ 2 ^ 53) : ∃ m, double.steps m = n * 2 ^ finest := by
  rcases Nat.eq_zero_or_pos n with rfl | hpos
  · exact ⟨0, by simp⟩
  rcases hn.lt_or_eq with hlt | rfl
  · have htop : n.log2 ≤ 52 := Nat.le_of_lt_succ ((Nat.log2_lt hpos.ne').mpr hlt)
    refine ⟨_, (steps_shifted hpos.ne' htop (n.log2 + 1022)).1.trans ?_⟩
    rw [short_exponent htop]
  · refine ⟨_, (steps_double (finest + 1) (Nat.zero_le _)).trans ?_⟩
    ring

/-- **Up to `2 ^ 53` a whole number is kept.** -/
theorem number?_ofInt_of_le {n : ℤ} (hn : n.natAbs ≤ 2 ^ 53) : (ofInt n).number? = some (.finite n) := by
  obtain ⟨finite, spec⟩ := nearestEven_ofInt (n := n) (hn.trans_lt (by decide))
  obtain ⟨m, hm⟩ := exists_steps hn
  have kept : n * 2 ^ finest = double.signedSteps (signed (decide (n < 0)) m) := by
    rw [signed]
    split
    next negative =>
      rw [FloatFormat.signedSteps_neg, FloatFormat.signedSteps_natCast, hm, Nat.cast_mul,
        Int.ofNat_natAbs_of_nonpos (of_decide_eq_true negative).le]
      push_cast
      ring
    next nonneg =>
      rw [FloatFormat.signedSteps_natCast, hm, Nat.cast_mul, Int.natAbs_of_nonneg (by simpa using nonneg)]
      push_cast
      rfl
  have nearest := spec.nearest (signed (decide (n < 0)) m)
  rw [← kept, sub_self, Int.natAbs_zero, Nat.le_zero, Int.natAbs_eq_zero, sub_eq_zero] at nearest
  rw [number?_of_finite finite, ← nearest]
  push_cast
  rw [mul_assoc, least_double, mul_one]

end Binary64

end GraphServer
