import GraphServer.Value.Order
import Mathlib.Order.Monotone.Odd
import Mathlib.Order.WithBot
import Mathlib.Tactic

/-!
The exact numbers that floating-point patterns stand for.

`FloatFormat.number?` reads a pattern by its fields, for any widths of exponent and fraction. The numbers of one
sign grow with the pattern, so that comparing patterns by their rank compares the numbers, and a single-precision
pattern and the double made of it stand for one number.

* `FloatFormat.steps_strictMono`: a larger pattern stands for a larger number;
* `FloatFormat.number?_eq`: the number of a pattern as that of its rank;
* `Binary64.compare_eq_cmp`: **comparing doubles compares the exact numbers**;
* `Binary64.number?_ofBinary32`: **widening to a double keeps the number**.
-/

namespace GraphServer

/-- A number or an infinity. -/
abbrev Number := WithBot (WithTop ℚ)

/-- A number that is no infinity. -/
def Number.finite (q : ℚ) : Number :=
  ((q : WithTop ℚ) : WithBot (WithTop ℚ))

lemma Number.finite_injective : Function.Injective Number.finite :=
  WithBot.coe_injective.comp WithTop.coe_injective

lemma Number.finite_strictMono : StrictMono Number.finite :=
  fun _ _ h => WithBot.coe_lt_coe.mpr (WithTop.coe_lt_coe.mpr h)

/-- The widths of the exponent and of the fraction of a floating-point pattern. -/
structure FloatFormat where
  exponentBits : Nat
  fractionBits : Nat
  exponentBits_pos : 0 < exponentBits

namespace FloatFormat

def single : FloatFormat := ⟨8, 23, by decide⟩

def double : FloatFormat := ⟨11, 52, by decide⟩

/-- The exponent field of the numbers from one up to two. -/
def bias (f : FloatFormat) : Nat :=
  2 ^ (f.exponentBits - 1) - 1

/-- The number with the given fields: an infinity if the exponent is all ones and the fraction zero, none if the fraction
is not zero then; otherwise the significand, with a leading one unless the exponent is zero, at its power of two. -/
def ofFields (f : FloatFormat) (negative : Bool) (exponent fraction : Nat) : Option Number :=
  if exponent = 2 ^ f.exponentBits - 1 then
    if fraction = 0 then some (if negative then ⊥ else ⊤) else none
  else
    let significand := if exponent = 0 then fraction else 2 ^ f.fractionBits + fraction
    let magnitude : ℚ := significand * 2 ^ ((max exponent 1 : ℤ) - f.bias - f.fractionBits)
    some (.finite (if negative then -magnitude else magnitude))

/-- The number that a pattern stands for: its last bits are the fraction, those before them the exponent, and the first
one is the sign. -/
def number? (f : FloatFormat) (pattern : Nat) : Option Number :=
  f.ofFields (pattern / 2 ^ (f.exponentBits + f.fractionBits) % 2 = 1)
    (pattern / 2 ^ f.fractionBits % 2 ^ f.exponentBits) (pattern % 2 ^ f.fractionBits)

variable {f : FloatFormat}

/-! ### Magnitudes -/

/-- The magnitude of infinity; above it lies what is not a number. -/
def infinity (f : FloatFormat) : Nat :=
  (2 ^ f.exponentBits - 1) * 2 ^ f.fractionBits

/-- The least positive number. -/
def least (f : FloatFormat) : ℚ :=
  2 ^ (1 - f.bias - f.fractionBits : ℤ)

/-- How many times the least positive number a magnitude stands for. -/
def steps (f : FloatFormat) (magnitude : Nat) : Nat :=
  if magnitude / 2 ^ f.fractionBits = 0 then magnitude % 2 ^ f.fractionBits
  else (2 ^ f.fractionBits + magnitude % 2 ^ f.fractionBits) * 2 ^ (magnitude / 2 ^ f.fractionBits - 1)

lemma infinity_pos (f : FloatFormat) : 0 < f.infinity :=
  Nat.mul_pos (Nat.sub_pos_of_lt (Nat.one_lt_two_pow f.exponentBits_pos.ne')) (Nat.two_pow_pos _)

lemma least_pos (f : FloatFormat) : 0 < f.least := by
  rw [least]
  positivity

lemma steps_of_lt {m : Nat} (h : m < 2 ^ f.fractionBits) : f.steps m = m := by
  rw [steps, Nat.div_eq_of_lt h, if_pos rfl, Nat.mod_eq_of_lt h]

@[simp] lemma steps_zero (f : FloatFormat) : f.steps 0 = 0 :=
  steps_of_lt (Nat.two_pow_pos _)

/-- A full fraction counts as the next exponent. -/
lemma steps_mul_add (k : Nat) {fraction : Nat} (h : fraction ≤ 2 ^ f.fractionBits) :
    f.steps ((k + 1) * 2 ^ f.fractionBits + fraction) = (2 ^ f.fractionBits + fraction) * 2 ^ k := by
  have hpos : 0 < 2 ^ f.fractionBits := Nat.two_pow_pos _
  rcases h.lt_or_eq with hlt | rfl
  · have hdiv : ((k + 1) * 2 ^ f.fractionBits + fraction) / 2 ^ f.fractionBits = k + 1 := by
      rw [mul_comm, Nat.mul_add_div hpos, Nat.div_eq_of_lt hlt, add_zero]
    have hmod : ((k + 1) * 2 ^ f.fractionBits + fraction) % 2 ^ f.fractionBits = fraction := by
      rw [mul_comm, Nat.mul_add_mod, Nat.mod_eq_of_lt hlt]
    rw [steps, hdiv, hmod, if_neg (Nat.succ_ne_zero k), Nat.add_sub_cancel]
  · have hnext : (k + 1) * 2 ^ f.fractionBits + 2 ^ f.fractionBits = (k + 2) * 2 ^ f.fractionBits := by ring
    rw [hnext, steps, Nat.mul_div_cancel _ hpos, Nat.mul_mod_left, if_neg (by omega), Nat.add_zero]
    change 2 ^ f.fractionBits * 2 ^ (k + 1) = _
    ring

/-- A larger magnitude stands for a larger number. -/
lemma steps_strictMono (f : FloatFormat) : StrictMono f.steps := by
  refine strictMono_nat_of_lt_succ fun m => ?_
  have hpos : 0 < 2 ^ f.fractionBits := Nat.two_pow_pos _
  by_cases hsmall : m < 2 ^ f.fractionBits
  · -- below the least normal number, the steps are the magnitudes
    rw [steps_of_lt hsmall]
    rcases (Nat.succ_le_of_lt hsmall).lt_or_eq with hlt | heq
    · rw [steps_of_lt hlt]
      exact Nat.lt_succ_self m
    · have hnext := f.steps_mul_add 0 (Nat.zero_le (2 ^ f.fractionBits))
      rw [zero_add, one_mul, add_zero, pow_zero, mul_one] at hnext
      rw [← Nat.succ_eq_add_one, heq, hnext]
      exact hsmall
  · -- above it, the next magnitude has one more in the fraction, which may be full then
    obtain ⟨k, hk⟩ : ∃ k, m / 2 ^ f.fractionBits = k + 1 :=
      Nat.exists_eq_succ_of_ne_zero (Nat.div_pos (not_lt.mp hsmall) hpos).ne'
    have hfraction := Nat.mod_lt m hpos
    have hm : m = (k + 1) * 2 ^ f.fractionBits + m % 2 ^ f.fractionBits := by
      rw [← hk, mul_comm, Nat.div_add_mod]
    rw [hm, add_assoc, steps_mul_add k hfraction.le, steps_mul_add k hfraction]
    exact Nat.mul_lt_mul_of_pos_right (Nat.lt_succ_self _) (Nat.two_pow_pos k)

/-! ### Ranks -/

/-- How many times the least positive number the pattern with a rank stands for. -/
def signedSteps (f : FloatFormat) (rank : ℤ) : ℤ :=
  rank.sign * f.steps rank.natAbs

lemma signedSteps_neg (f : FloatFormat) (rank : ℤ) : f.signedSteps (-rank) = -f.signedSteps rank := by
  rw [signedSteps, signedSteps, Int.sign_neg, Int.natAbs_neg, neg_mul]

@[simp] lemma signedSteps_natCast (f : FloatFormat) (m : Nat) : f.signedSteps m = f.steps m := by
  cases m with
  | zero => rw [signedSteps, Nat.cast_zero, Int.sign_zero, zero_mul, steps_zero, Nat.cast_zero]
  | succ m => rw [signedSteps, Int.sign_eq_one_of_pos (by positivity), one_mul, Int.natAbs_natCast]

lemma signedSteps_strictMono (f : FloatFormat) : StrictMono f.signedSteps := by
  refine strictMono_of_odd_strictMonoOn_nonneg f.signedSteps_neg fun x hx y hy hlt => ?_
  obtain ⟨m, rfl⟩ := Int.eq_ofNat_of_zero_le hx
  obtain ⟨n, rfl⟩ := Int.eq_ofNat_of_zero_le hy
  rw [signedSteps_natCast, signedSteps_natCast]
  exact_mod_cast f.steps_strictMono (by exact_mod_cast hlt)

/-- The number that the pattern with a rank stands for. -/
def point (f : FloatFormat) (rank : ℤ) : Number :=
  if rank ≤ -(f.infinity : ℤ) then ⊥
  else if (f.infinity : ℤ) ≤ rank then ⊤
  else .finite (f.signedSteps rank * f.least)

lemma point_neg_infinity (f : FloatFormat) : f.point (-f.infinity) = ⊥ := by
  rw [point, if_pos le_rfl]

lemma point_infinity (f : FloatFormat) : f.point f.infinity = ⊤ := by
  have hpos : (0 : ℤ) < f.infinity := by exact_mod_cast f.infinity_pos
  rw [point, if_neg (by omega), if_pos le_rfl]

lemma point_of_lt {rank : ℤ} (h : rank.natAbs < f.infinity) :
    f.point rank = .finite (f.signedSteps rank * f.least) := by
  rw [point, if_neg (by omega), if_neg (by omega)]

lemma point_strictMonoOn (f : FloatFormat) :
    StrictMonoOn f.point (Set.Icc (-(f.infinity : ℤ)) f.infinity) := by
  intro x hx y hy hlt
  obtain ⟨hx, -⟩ := hx
  obtain ⟨-, hy⟩ := hy
  rw [point, point]
  split
  · split
    · omega
    · split
      · exact WithBot.bot_lt_coe _
      · exact WithBot.bot_lt_coe _
  · split
    · omega
    · split
      · omega
      · split
        · exact WithBot.coe_lt_coe.mpr (WithTop.coe_lt_top _)
        · refine Number.finite_strictMono ?_
          have hsteps : f.signedSteps x < f.signedSteps y := f.signedSteps_strictMono hlt
          exact mul_lt_mul_of_pos_right (by exact_mod_cast hsteps) f.least_pos

/-- The pattern without its sign. -/
def magnitude (f : FloatFormat) (pattern : Nat) : Nat :=
  pattern % 2 ^ (f.exponentBits + f.fractionBits)

/-- A whole number that grows with the number of the pattern. -/
def rank (f : FloatFormat) (pattern : Nat) : ℤ :=
  if 2 ^ (f.exponentBits + f.fractionBits) ≤ pattern then -(f.magnitude pattern : ℤ) else f.magnitude pattern

lemma div_mod_eq_magnitude (f : FloatFormat) (pattern : Nat) :
    pattern / 2 ^ f.fractionBits % 2 ^ f.exponentBits = f.magnitude pattern / 2 ^ f.fractionBits := by
  rw [magnitude, Nat.add_comm, pow_add, Nat.mod_mul_right_div_self]

lemma mod_eq_magnitude (f : FloatFormat) (pattern : Nat) :
    pattern % 2 ^ f.fractionBits = f.magnitude pattern % 2 ^ f.fractionBits := by
  rw [magnitude, Nat.add_comm, pow_add, Nat.mod_mul_right_mod]

/-- The significand at its power of two is so many times the least positive number. -/
lemma significand_mul (f : FloatFormat) (m : Nat) :
    ((if m / 2 ^ f.fractionBits = 0 then m % 2 ^ f.fractionBits
        else 2 ^ f.fractionBits + m % 2 ^ f.fractionBits : Nat) : ℚ) *
      2 ^ ((max (m / 2 ^ f.fractionBits : Nat) 1 : ℤ) - f.bias - f.fractionBits) = f.steps m * f.least := by
  rw [steps, least]
  split
  next zero =>
    rw [zero]
    rfl
  next nonzero =>
    obtain ⟨k, hk⟩ := Nat.exists_eq_succ_of_ne_zero nonzero
    have hmax : (max (m / 2 ^ f.fractionBits : Nat) 1 : ℤ) - f.bias - f.fractionBits =
        (k : ℤ) + (1 - f.bias - f.fractionBits) := by
      rw [hk]
      omega
    rw [hmax, hk, zpow_add₀ two_ne_zero, zpow_natCast, Nat.succ_sub_one]
    push_cast
    ring

lemma magnitude_lt (f : FloatFormat) (pattern : Nat) :
    f.magnitude pattern < 2 ^ f.exponentBits * 2 ^ f.fractionBits := by
  rw [← pow_add]
  exact Nat.mod_lt _ (Nat.two_pow_pos _)

/-- The exponent field is all ones from infinity on. -/
lemma div_eq_iff (f : FloatFormat) (pattern : Nat) :
    f.magnitude pattern / 2 ^ f.fractionBits = 2 ^ f.exponentBits - 1 ↔ f.infinity ≤ f.magnitude pattern := by
  have hlt := f.magnitude_lt pattern
  have hpos : 0 < 2 ^ f.fractionBits := Nat.two_pow_pos _
  have hone : 0 < 2 ^ f.exponentBits := Nat.two_pow_pos _
  have hdiv := (Nat.div_lt_iff_lt_mul hpos).mpr hlt
  rw [infinity, ← Nat.le_div_iff_mul_le hpos]
  omega

/-- The number of a pattern is that of its rank. -/
lemma number?_eq (f : FloatFormat) {pattern : Nat} (h : pattern < 2 * 2 ^ (f.exponentBits + f.fractionBits)) :
    f.number? pattern = if f.infinity < f.magnitude pattern then none else some (f.point (f.rank pattern)) := by
  have sign : pattern / 2 ^ (f.exponentBits + f.fractionBits) % 2 = 1 ↔
      2 ^ (f.exponentBits + f.fractionBits) ≤ pattern := by
    have hlt := (Nat.div_lt_iff_lt_mul (Nat.two_pow_pos _)).mpr h
    have hle := Nat.le_div_iff_mul_le (x := 1) (y := pattern) (Nat.two_pow_pos (f.exponentBits + f.fractionBits))
    rw [one_mul] at hle
    generalize pattern / 2 ^ (f.exponentBits + f.fractionBits) = d at hlt hle
    rw [← hle]
    omega
  rw [number?, div_mod_eq_magnitude, mod_eq_magnitude, ofFields]
  simp only [div_eq_iff, sign, rank, decide_eq_true_eq]
  by_cases hall : f.infinity ≤ f.magnitude pattern
  · rw [if_pos hall]
    have hdecomp := Nat.div_add_mod' (f.magnitude pattern) (2 ^ f.fractionBits)
    rw [(f.div_eq_iff pattern).mpr hall, ← infinity] at hdecomp
    by_cases hzero : f.magnitude pattern % 2 ^ f.fractionBits = 0
    · have heq : f.magnitude pattern = f.infinity := by omega
      rw [if_pos hzero, heq, if_neg (lt_irrefl _)]
      split
      · rw [point_neg_infinity]
      · rw [point_infinity]
    · rw [if_neg hzero, if_pos (by omega)]
  · have finite : ¬f.infinity < f.magnitude pattern := fun h => hall h.le
    rw [if_neg hall, if_neg finite, significand_mul]
    split
    · rw [point_of_lt (by omega), signedSteps_neg, signedSteps_natCast, Int.cast_neg, Int.cast_natCast, neg_mul]
    · rw [point_of_lt (by omega), signedSteps_natCast, Int.cast_natCast]

end FloatFormat

/-! ### Doubles -/

namespace Binary64

open FloatFormat (double single)

/-- The number that a double stands for. -/
def number? (x : Binary64) : Option Number :=
  double.number? x.bits.toNat

lemma magnitude_eq (x : Binary64) : double.magnitude x.bits.toNat = x.magnitude := rfl

lemma rank_eq (x : Binary64) : double.rank x.bits.toNat = x.rank := by
  rw [FloatFormat.rank, magnitude_eq, rank, isNegative]
  simp only [decide_eq_true_eq]
  rfl

lemma number?_eq_point (x : Binary64) : x.number? = if x.isNaN then none else some (double.point x.rank) := by
  have hlt : x.bits.toNat < 2 * 2 ^ (double.exponentBits + double.fractionBits) := x.bits.toNat_lt
  rw [number?, double.number?_eq hlt, magnitude_eq, rank_eq, isNaN]
  simp only [decide_eq_true_eq]
  rfl

lemma rank_mem (x : Binary64) (h : x.isNaN = false) :
    x.rank ∈ Set.Icc (-(double.infinity : ℤ)) double.infinity := by
  have hle : x.magnitude ≤ double.infinity := by
    rw [isNaN, decide_eq_false_iff_not, not_lt] at h
    exact h
  rw [rank, Set.mem_Icc]
  split <;> omega

/-- **Comparing doubles compares the numbers that they stand for.** -/
theorem compare_eq_cmp {x y : Binary64} {a b : Number} (hx : x.number? = some a) (hy : y.number? = some b) :
    x.compare y = some (cmp a b) := by
  rw [number?_eq_point] at hx hy
  split at hx
  · cases hx
  next hxn =>
    split at hy
    · cases hy
    next hyn =>
      rw [Bool.not_eq_true] at hxn hyn
      obtain rfl := Option.some.inj hx
      obtain rfl := Option.some.inj hy
      rw [compare, if_neg (by simp [hxn, hyn]), double.point_strictMonoOn.cmp_map_eq (x.rank_mem hxn) (y.rank_mem hyn),
        cmp_eq_compare]

/-- A magnitude with a sign. -/
def signed (negative : Bool) (m : Nat) : ℤ :=
  if negative then -(m : ℤ) else m

lemma rank_eq_signed (x : Binary64) : x.rank = signed x.isNegative x.magnitude := rfl

/-- The fields of an assembled pattern are where they were put. -/
lemma assemble_spec (negative : Bool) {exponent fraction : Nat} (h : exponent * 2 ^ 52 + fraction < 2 ^ 63) :
    (assemble negative exponent fraction).magnitude = exponent * 2 ^ 52 + fraction ∧
      (assemble negative exponent fraction).isNegative = negative := by
  simp only [magnitude, isNegative, assemble, Nat.shiftLeft_eq, one_mul, UInt64.toNat_ofNat']
  cases negative <;> simp <;> omega

lemma number?_assemble (negative : Bool) {exponent fraction : Nat} (h : exponent * 2 ^ 52 + fraction < 2 ^ 63) :
    (assemble negative exponent fraction).number? = if double.infinity < exponent * 2 ^ 52 + fraction then none
      else some (double.point (signed negative (exponent * 2 ^ 52 + fraction))) := by
  obtain ⟨hmagnitude, hnegative⟩ := assemble_spec negative h
  rw [number?_eq_point, rank_eq_signed, hmagnitude, hnegative, isNaN, hmagnitude]
  simp only [decide_eq_true_eq]
  rfl

/-! ### From single precision to double precision -/

/-- The steps of doubles are finer than those of single precision by this power of two. -/
def finer : Nat := 925

lemma normal_exponent (k : Nat) : 29 + (k + 896) = k + finer := by
  unfold finer
  omega

lemma subnormal_exponent {top : Nat} (h : top < 23) : 52 - top + (top + 873) = finer := by
  unfold finer
  omega

lemma least_single : single.least = 2 ^ finer * double.least := by
  have hdouble : double.least = (2 : ℚ) ^ (-1074 : ℤ) := rfl
  have hsingle : single.least = (2 : ℚ) ^ (925 + -1074 : ℤ) := rfl
  rw [hdouble, hsingle, zpow_add₀ two_ne_zero, finer, ← zpow_natCast]
  rfl

lemma point_signed_infinity (f : FloatFormat) (negative : Bool) :
    f.point (signed negative f.infinity) = if negative then ⊥ else ⊤ := by
  cases negative
  · exact f.point_infinity
  · exact f.point_neg_infinity

/-- The same number in other steps. -/
lemma point_widen {m M : Nat} (hm : m < single.infinity) (hM : M < double.infinity)
    (h : double.steps M = single.steps m * 2 ^ finer) (negative : Bool) :
    double.point (signed negative M) = single.point (signed negative m) := by
  have steps : (double.steps M : ℚ) * double.least = single.steps m * single.least := by
    rw [h, least_single, Nat.cast_mul, Nat.cast_pow, Nat.cast_ofNat, mul_assoc]
  cases negative
  · change double.point (M : ℤ) = single.point (m : ℤ)
    rw [FloatFormat.point_of_lt (by simpa using hM), FloatFormat.point_of_lt (by simpa using hm),
      FloatFormat.signedSteps_natCast, FloatFormat.signedSteps_natCast, Int.cast_natCast, Int.cast_natCast, steps]
  · change double.point (-(M : ℤ)) = single.point (-(m : ℤ))
    rw [FloatFormat.point_of_lt (by simpa using hM), FloatFormat.point_of_lt (by simpa using hm),
      FloatFormat.signedSteps_neg, FloatFormat.signedSteps_neg,
      FloatFormat.signedSteps_natCast, FloatFormat.signedSteps_natCast, Int.cast_neg, Int.cast_neg,
      Int.cast_natCast, Int.cast_natCast, neg_mul, neg_mul, steps]

lemma steps_double (k : Nat) {fraction : Nat} (h : fraction ≤ 2 ^ 52) :
    double.steps ((k + 1) * 2 ^ 52 + fraction) = (2 ^ 52 + fraction) * 2 ^ k :=
  double.steps_mul_add k h

/-- A number with at most 53 bits, shifted so that its first bit becomes the leading one. -/
lemma steps_shifted {n : Nat} (hn : n ≠ 0) (htop : n.log2 ≤ 52) (k : Nat) :
    double.steps ((k + 1) * 2 ^ 52 + (n <<< (52 - n.log2) - 1 <<< 52)) = n * 2 ^ (52 - n.log2 + k) ∧
      n <<< (52 - n.log2) - 1 <<< 52 < 2 ^ 52 := by
  have hlow : 2 ^ 52 ≤ n * 2 ^ (52 - n.log2) := by
    calc 2 ^ 52 = 2 ^ n.log2 * 2 ^ (52 - n.log2) := by rw [← pow_add, Nat.add_sub_cancel' htop]
      _ ≤ n * 2 ^ (52 - n.log2) := Nat.mul_le_mul_right _ (Nat.log2_self_le hn)
  have hhigh : n * 2 ^ (52 - n.log2) < 2 ^ 53 := by
    calc n * 2 ^ (52 - n.log2) < 2 ^ (n.log2 + 1) * 2 ^ (52 - n.log2) :=
          Nat.mul_lt_mul_of_pos_right Nat.lt_log2_self (Nat.two_pow_pos _)
      _ = 2 ^ 53 := by rw [← pow_add]; congr 1; omega
  rw [Nat.shiftLeft_eq, Nat.shiftLeft_eq, one_mul]
  have hfraction : n * 2 ^ (52 - n.log2) - 2 ^ 52 < 2 ^ 52 := by omega
  refine ⟨?_, hfraction⟩
  rw [steps_double k hfraction.le, Nat.add_sub_cancel' hlow, mul_assoc, ← pow_add]

/-- The fraction of a single-precision number at its place in a double, the exponent counted from the other bias. -/
lemma steps_normal (k : Nat) {fraction : Nat} (h : fraction < 2 ^ 23) :
    double.steps ((k + 897) * 2 ^ 52 + fraction <<< 29) = single.steps ((k + 1) * 2 ^ 23 + fraction) * 2 ^ finer := by
  rw [Nat.shiftLeft_eq]
  have narrow : single.steps ((k + 1) * 2 ^ 23 + fraction) = (2 ^ 23 + fraction) * 2 ^ k := single.steps_mul_add k h.le
  have split : 2 ^ 52 + fraction * 2 ^ 29 = (2 ^ 23 + fraction) * 2 ^ 29 := by omega
  have room : fraction * 2 ^ 29 ≤ 2 ^ 52 := by omega
  have hexponent : k + 897 = k + 896 + 1 := by omega
  rw [hexponent, steps_double (k + 896) room, narrow, split, mul_assoc, mul_assoc, ← pow_add, ← pow_add,
    normal_exponent]

/-- Fields of a double that stand for the number of a single-precision pattern. -/
lemma number?_widened {exponent fraction m : Nat} (hm : m < single.infinity)
    (hM : exponent * 2 ^ 52 + fraction < double.infinity)
    (h : double.steps (exponent * 2 ^ 52 + fraction) = single.steps m * 2 ^ finer) (negative : Bool) :
    (assemble negative exponent fraction).number? = some (single.point (signed negative m)) := by
  have hdouble : double.infinity = 2047 * 2 ^ 52 := rfl
  rw [number?_assemble negative (by omega), if_neg hM.le.not_gt, point_widen hm hM h]

/-- A single-precision number whose exponent is all ones: an infinity, or none. -/
lemma number?_widened_top (negative : Bool) {fraction : Nat} (h : fraction < 2 ^ 23) :
    (if fraction = 0 then assemble negative 0x7FF 0
      else assemble negative 0x7FF ((fraction % 1 <<< 22) <<< 29 + 1 <<< 51)).number? =
    if single.infinity < 255 * 2 ^ 23 + fraction then none
      else some (single.point (signed negative (255 * 2 ^ 23 + fraction))) := by
  have hsingle : single.infinity = 255 * 2 ^ 23 := rfl
  have hdouble : double.infinity = 2047 * 2 ^ 52 := rfl
  by_cases hzero : fraction = 0
  · rw [if_pos hzero, number?_assemble negative (by omega), if_neg (by omega), if_neg (by omega), hzero, add_zero,
      add_zero, ← hsingle, point_signed_infinity]
    exact congrArg some (point_signed_infinity double negative)
  · rw [if_neg hzero, number?_assemble negative (by simp only [Nat.shiftLeft_eq]; omega), if_pos, if_pos (by omega)]
    simp only [Nat.shiftLeft_eq]
    omega

/-- A single-precision number whose exponent is zero is normal as a double: its first bit becomes the leading one. -/
lemma number?_widened_subnormal (negative : Bool) {fraction : Nat} (h : fraction < 2 ^ 23) :
    (if fraction = 0 then assemble negative 0 0
      else assemble negative (fraction.log2 + 874) (fraction <<< (52 - fraction.log2) - 1 <<< 52)).number? =
    some (single.point (signed negative fraction)) := by
  have hsingle : single.infinity = 255 * 2 ^ 23 := rfl
  have hdouble : double.infinity = 2047 * 2 ^ 52 := rfl
  by_cases hzero : fraction = 0
  · rw [if_pos hzero, hzero]
    refine number?_widened (by decide) (by decide) ?_ negative
    rw [zero_mul, add_zero, FloatFormat.steps_zero, FloatFormat.steps_zero, zero_mul]
  · have htop : fraction.log2 < 23 := (Nat.log2_lt hzero).mpr h
    obtain ⟨hsteps, hfraction⟩ := steps_shifted hzero (by omega) (fraction.log2 + 873)
    rw [if_neg hzero]
    refine number?_widened (by omega) (by omega) ?_ negative
    rw [hsteps, subnormal_exponent htop, FloatFormat.steps_of_lt h]

/-- Any other single-precision number. -/
lemma number?_widened_normal (negative : Bool) {exponent fraction : Nat} (hzero : exponent ≠ 0) (htop : exponent < 255)
    (h : fraction < 2 ^ 23) :
    (assemble negative (exponent + 896) (fraction <<< 29)).number? =
      some (single.point (signed negative (exponent * 2 ^ 23 + fraction))) := by
  obtain ⟨k, rfl⟩ := Nat.exists_eq_succ_of_ne_zero hzero
  have hsingle : single.infinity = 255 * 2 ^ 23 := rfl
  have hdouble : double.infinity = 2047 * 2 ^ 52 := rfl
  have hfraction : fraction <<< 29 < 2 ^ 52 := by
    rw [Nat.shiftLeft_eq]
    omega
  have hexponent : k.succ + 896 = k + 897 := by omega
  rw [hexponent]
  exact number?_widened (by omega) (by omega) (steps_normal k h) negative

/-- **Widening to a double keeps the number**, and what is not a number stays none. -/
theorem number?_ofBinary32 (pattern : UInt32) :
    (ofBinary32 pattern).number? = single.number? pattern.toNat := by
  have hlt : pattern.toNat < 2 * 2 ^ (single.exponentBits + single.fractionBits) := pattern.toNat_lt
  have hexponent : pattern.toNat >>> 23 % 1 <<< 8 = single.magnitude pattern.toNat / 2 ^ 23 := by
    rw [Nat.shiftRight_eq_div_pow]
    exact single.div_mod_eq_magnitude pattern.toNat
  have hfraction : pattern.toNat % 1 <<< 23 = single.magnitude pattern.toNat % 2 ^ 23 :=
    single.mod_eq_magnitude pattern.toNat
  have hrank : single.rank pattern.toNat =
      signed (decide (1 <<< 31 ≤ pattern.toNat)) (single.magnitude pattern.toNat) := by
    rw [signed, FloatFormat.rank]
    simp only [decide_eq_true_eq]
    rfl
  rw [single.number?_eq hlt, hrank, ofBinary32]
  have hmagnitude : single.magnitude pattern.toNat < 2 ^ 31 := Nat.mod_lt _ (by decide)
  generalize decide (1 <<< 31 ≤ pattern.toNat) = negative
  simp only [hexponent, hfraction]
  generalize single.magnitude pattern.toNat = m at hmagnitude
  have hsingle : single.infinity = 255 * 2 ^ 23 := rfl
  have hm := Nat.div_add_mod' m (2 ^ 23)
  have hF : m % 2 ^ 23 < 2 ^ 23 := Nat.mod_lt _ (by decide)
  generalize m / 2 ^ 23 = E at hm
  generalize m % 2 ^ 23 = F at hm hF
  subst hm
  by_cases htop : E = 255
  · rw [if_pos htop, number?_widened_top negative hF, htop]
  rw [if_neg htop, if_neg (by omega : ¬single.infinity < E * 2 ^ 23 + F)]
  by_cases hzero : E = 0
  · rw [if_pos hzero, number?_widened_subnormal negative hF, hzero, zero_mul, zero_add]
  · rw [if_neg hzero, number?_widened_normal negative hzero (by omega) hF]

end Binary64

end GraphServer
