import GraphServer.Logic.Ternary
import GraphServer.Value.Equality

/-!
Comparing values.

Integral numbers compare as integers; as soon as one side is a floating-point number both are
compared as doubles, and not-a-number compares with nothing. Texts, characters, booleans,
identifiers, points in time and durations compare with their own kind. Null, containers and graph
elements have no order, but they are equal or unequal to a value of their own kind.
-/

namespace GraphServer

namespace Value

/-- The double of a numeric value; a wide integer is rounded. -/
def binary64? : Value → Option Binary64
  | float bits => some (.ofBinary32 bits)
  | double bits => some ⟨bits⟩
  | v => v.integer?.map fun n => .ofInt n.toInt

/-- Whether the value is a number. -/
def isNumeric : Value → Bool
  | byte _ | short _ | int _ | long _ | float _ | double _ => true
  | _ => false

/-- The order of two numbers. -/
def compareNumbers (a b : Value) : Option Ordering :=
  match a.integer?, b.integer? with
  | some x, some y => some (Ord.compare x y)
  | _, _ => do (← a.binary64?).compare (← b.binary64?)

/-- The order of two identifiers is that of their bytes. -/
def compareUuids (a b : Uuid) : Ordering :=
  (Ord.compare a.hi b.hi).then (Ord.compare a.lo b.lo)

/-- The order of two values, if they can be compared. -/
def compare (a b : Value) : Option Ordering :=
  if a.isNumeric ∧ b.isNumeric then compareNumbers a b
  else
    match a, b with
    | string x, string y => some (Ord.compare x y)
    | char x, char y => some (Ord.compare x y)
    | boolean x, boolean y => some (Ord.compare x y)
    | uuid x, uuid y => some (compareUuids x y)
    | date x, date y => some (Ord.compare x y)
    | timestamp x, timestamp y => some (Ord.compare x y)
    | duration s n, duration s' n' => some ((Ord.compare s s').then (Ord.compare n n'))
    | _, _ => none

/-- Equality under three-valued logic: an error between values of different kinds that are not both
numbers, and whenever not-a-number takes part. -/
def equals (a b : Value) : Ternary :=
  if a.isNumeric ∧ b.isNumeric then
    match compareNumbers a b with
    | none => .error
    | some o => .ofBool (o == .eq)
  else if a.kind ≠ b.kind then .error
  else .ofBool (a == b)

/-- The test of an order; an error between values that have none. -/
def ordered (accept : Ordering → Bool) (a b : Value) : Ternary :=
  match a.compare b with
  | none => .error
  | some o => .ofBool (accept o)

end Value

/-! ### Comparison operators -/

/-- A comparison operator. -/
inductive Comparison where
  | eq | neq | lt | lte | gt | gte
  deriving DecidableEq, Repr

namespace Comparison

/-- Every operator. -/
def all : List Comparison :=
  [eq, neq, lt, lte, gt, gte]

/-- Applies an operator to two values. -/
def test : Comparison → Value → Value → Ternary
  | eq, a, b => a.equals b
  | neq, a, b => (a.equals b).not
  | lt, a, b => a.ordered Ordering.isLT b
  | lte, a, b => a.ordered Ordering.isLE b
  | gt, a, b => a.ordered Ordering.isGT b
  | gte, a, b => a.ordered Ordering.isGE b

end Comparison

end GraphServer
