/-!
Three-valued logic with an error state.

A comparison of things that cannot be compared is neither true nor false. The error state passes
through the connectives, except where the other operand already decides the result, and becomes
false only at `Ternary.collapse`.
-/

namespace GraphServer

/-- A truth value, or the error of a comparison that makes no sense. -/
inductive Ternary where
  | true | false | error
  deriving DecidableEq, Repr, Inhabited

namespace Ternary

/-- The truth value of a boolean. -/
def ofBool : Bool → Ternary
  | .true => true
  | .false => false

/-- Conjunction: false decides, then the error. -/
def and : Ternary → Ternary → Ternary
  | false, _ => false
  | _, false => false
  | error, _ => error
  | _, error => error
  | true, true => true

/-- Disjunction: true decides, then the error. -/
def or : Ternary → Ternary → Ternary
  | true, _ => true
  | _, true => true
  | error, _ => error
  | _, error => error
  | false, false => false

/-- Negation keeps the error. -/
def not : Ternary → Ternary
  | true => false
  | false => true
  | error => error

/-- Exclusive disjunction: the error decides. -/
def xor : Ternary → Ternary → Ternary
  | error, _ => error
  | _, error => error
  | a, b => ofBool (a != b)

/-- The boolean at the edge of a predicate, where the error counts as false. -/
def collapse (t : Ternary) : Bool :=
  t == true

/-- Whether this is the error. -/
def isError (t : Ternary) : Bool :=
  t == error

end Ternary

end GraphServer
