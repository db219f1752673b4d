/-!
Double-precision numbers as bit patterns: the sign, eleven bits of exponent and 52 bits of fraction.

* `Binary64.compare`: the order of the numbers that two patterns stand for, undefined when either is
  not a number; the two zeros are equal and the infinities lie at the ends;
* `Binary64.ofBinary32`: the double with the value of a single-precision pattern; not-a-number keeps
  its sign and payload and becomes quiet;
* `Binary64.ofInt`: the double nearest to a whole number, of two nearest the one with an even fraction.
-/

namespace GraphServer

/-- The bit pattern of a double-precision number. -/
structure Binary64 where
  bits : UInt64
  deriving DecidableEq, Repr

namespace Binary64

/-- The pattern without its sign. -/
def magnitude (x : Binary64) : Nat :=
  x.bits.toNat % 1 <<< 63

/-- Whether the sign bit is set. -/
def isNegative (x : Binary64) : Bool :=
  1 <<< 63 ≤ x.bits.toNat

/-- Whether the pattern stands for no number: its exponent is all ones and its fraction is not zero. -/
def isNaN (x : Binary64) : Bool :=
  0x7FF <<< 52 < x.magnitude

/-- A whole number that grows with the number that the pattern stands for: patterns of one sign are
ordered as their magnitudes are. -/
def rank (x : Binary64) : Int :=
  if x.isNegative then -(x.magnitude : Int) else x.magnitude

/-- The order of two numbers, if both patterns stand for one. -/
def compare (x y : Binary64) : Option Ordering :=
  if x.isNaN ∨ y.isNaN then none else some (Ord.compare x.rank y.rank)

/-- Equality of the numbers that two patterns stand for. -/
def beq (x y : Binary64) : Bool :=
  x.compare y == some .eq

/-- Assembles a pattern; a fraction of `2 ^ 52` carries into the exponent. -/
def assemble (negative : Bool) (exponent fraction : Nat) : Binary64 :=
  ⟨UInt64.ofNat ((if negative then 1 <<< 63 else 0) + exponent <<< 52 + fraction)⟩

/-- The double with the value of a single-precision pattern. -/
def ofBinary32 (pattern : UInt32) : Binary64 :=
  let negative : Bool := 1 <<< 31 ≤ pattern.toNat
  let exponent := pattern.toNat >>> 23 % 1 <<< 8
  let fraction := pattern.toNat % 1 <<< 23
  if exponent = 255 then
    if fraction = 0 then assemble negative 0x7FF 0
    else assemble negative 0x7FF ((fraction % 1 <<< 22) <<< 29 + 1 <<< 51)
  else if exponent = 0 then
    if fraction = 0 then assemble negative 0 0
    else
      let top := fraction.log2
      assemble negative (top + 874) (fraction <<< (52 - top) - 1 <<< 52)
  else assemble negative (exponent + 896) (fraction <<< 29)

/-- The double nearest to a natural number with at most 1023 bits, ties to the even fraction. -/
def ofNat (negative : Bool) (n : Nat) : Binary64 :=
  if n = 0 then assemble negative 0 0
  else
    let top := n.log2
    if top ≤ 52 then assemble negative (top + 1023) (n <<< (52 - top) - 1 <<< 52)
    else
      let unit := 1 <<< (top - 52)
      let quotient := n / unit
      let twice := 2 * (n % unit)
      let up : Bool := unit < twice ∨ (twice = unit ∧ quotient % 2 = 1)
      assemble negative (top + 1023) (quotient - 1 <<< 52 + if up then 1 else 0)

/-- The double nearest to a whole number, ties to the even fraction. -/
def ofInt (n : Int) : Binary64 :=
  ofNat (decide (n < 0)) n.natAbs

end Binary64

end GraphServer
