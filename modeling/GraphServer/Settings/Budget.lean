import GraphServer.Message.Basic

/-!
The time that a request may take: what the request itself asks for, unless that is negative, and
otherwise what the server grants. Zero means no limit.
-/

namespace GraphServer

/-- The time limit of a request in milliseconds, if it has one. -/
def Request.budget (r : Request) (granted : Nat) : Option Nat :=
  let limit :=
    match r.integer? Request.timeoutArg with
    | some n => if 0 ≤ n then n.toInt.toNat else granted
    | none => granted
  if limit = 0 then none else some limit

end GraphServer
