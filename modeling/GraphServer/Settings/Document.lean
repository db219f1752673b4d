/-!
Configuration documents and how a record is read from one.

A record is read from an object, by the names of its fields and with names of no field passed over, or
from an array, by their order. A field that is not there keeps its default. A document that does not fit
yields no record at all.
-/

namespace GraphServer

/-- A configuration document. -/
inductive Document where
  | null
  | bool (b : Bool)
  /-- A whole number that is not negative. -/
  | natural (n : Nat)
  /-- Any other number. -/
  | otherNumber
  | text (s : String)
  | array (items : List Document)
  | object (entries : List (String × Document))
  deriving Inhabited

namespace Document

/-- The values of the fields with the given names, as far as they are there. -/
def fields? (names : List String) : Document → Option (List (Option Document))
  | .array items =>
    if items.length ≤ names.length then
      some (items.map some ++ List.replicate (names.length - items.length) none)
    else none
  | .object entries =>
    names.mapM fun name =>
      match entries.filter (·.1 = name) with
      | [] => some none
      | [e] => some (some e.2)
      | _ => none
  | _ => none

/-- The value of a field, or its default when it is not there. -/
def field {α : Type} (read : Document → Option α) (default : α) : Option Document → Option α
  | none => some default
  | some d => read d

/-- A number below a bound. -/
def below? (bound : Nat) : Document → Option Nat
  | natural n => if n < bound then some n else none
  | _ => none

/-- A number of at most 64 bits. -/
def word64? : Document → Option Nat := below? UInt64.size

/-- A number of at most 32 bits. -/
def word32? : Document → Option Nat := below? UInt32.size

/-- A text. -/
def text? : Document → Option String
  | text s => some s
  | _ => none

/-- A choice among words: the word itself, or an object with the word as its only name and null as its
value. -/
def keyword? : Document → Option String
  | text s => some s
  | object [(s, null)] => some s
  | _ => none

end Document

end GraphServer
