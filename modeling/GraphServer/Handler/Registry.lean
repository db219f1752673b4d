import GraphServer.Handler.Basic

/-!
Which handler answers which operation. A handler registered again for the same operation of the same
processor replaces the one before.
-/

namespace GraphServer

/-- An operation of a processor. -/
structure OpName where
  processor : String
  op : String
  deriving DecidableEq, Repr

/-- The handlers of operations, without two for the same one. -/
structure OpRegistry where
  entries : List (OpName × (Request → Handler)) := []

namespace OpRegistry

/-- The handler of an operation. -/
def find? (r : OpRegistry) (name : OpName) : Option (Request → Handler) :=
  (r.entries.find? (·.1 = name)).map (·.2)

/-- Registers a handler in place of any other for the same operation. -/
def register (r : OpRegistry) (name : OpName) (handler : Request → Handler) : OpRegistry :=
  ⟨r.entries.filter (·.1 ≠ name) ++ [(name, handler)]⟩

/-- The number of operations. -/
def size (r : OpRegistry) : Nat :=
  r.entries.length

/-- The operations in full detail. -/
def detail (r : OpRegistry) : String :=
  let names := r.entries.map fun e => s!"({Quoted.encode e.1.processor}, {Quoted.encode e.1.op})"
  s!"OpRegistry \x7b ops: {Quoted.list names} \x7d"

/-- What answers a request: its handler, or the error that there is none. -/
def handlerOf (r : OpRegistry) (request : Request) : Handler :=
  match r.find? ⟨request.processor, request.op⟩ with
  | some handler => handler request
  | none => .return (.error (.unknownOp request.processor request.op))

/-- The last registration is found. -/
theorem find?_register_self (r : OpRegistry) (name : OpName) (handler : Request → Handler) :
    (r.register name handler).find? name = some handler := by
  have h : (r.entries.filter (·.1 ≠ name)).find? (·.1 = name) = none := by
    simp [List.find?_eq_none]
  simp only [find?, register, List.find?_append, h]
  simp

/-- A registration leaves other operations alone. -/
theorem find?_register_of_ne (r : OpRegistry) {name other : OpName} (h : other ≠ name)
    (handler : Request → Handler) : (r.register name handler).find? other = r.find? other := by
  have key : (r.entries.filter (·.1 ≠ name)).find? (·.1 = other)
      = r.entries.find? (·.1 = other) := by
    induction r.entries with
    | nil => rfl
    | cons e rest ih =>
      by_cases he : e.1 = name
      · have hne : e.1 ≠ other := fun h' => h (h'.symm.trans he)
        simpa [he, hne, Ne.symm h] using ih
      · by_cases ho : e.1 = other
        · simp [ho, h] at ih ⊢
        · simp [he, ho] at ih ⊢
          exact ih
  simp only [find?, register, List.find?_append, key]
  cases r.entries.find? (·.1 = other) <;> simp [Ne.symm h]

end OpRegistry

end GraphServer
