import GraphServer.System.Delivery

/-!
One step of a process and what it leads to: another point at which it goes on, a point at which it waits,
or its end.
-/

namespace GraphServer

/-- What a step of a process leads to, where `α` is the kind of its points. -/
inductive Turn (α : Type) where
  /-- It goes on at a point. -/
  | go (point : α)
  /-- It waits at a point. -/
  | wait (point : α)
  /-- It has ended. -/
  | done (result : Except Error Unit)

/-- The turn of a process for which a part of it stands in. -/
def Turn.map {α β : Type} (f : α → β) : Turn α → Turn β
  | .go x => .go (f x)
  | .wait x => .wait (f x)
  | .done r => .done r

namespace Transit

/-- The turn of a process that sends a parcel: where it goes on with the outcome, and where it waits. -/
def turn {α : Type} (x : System × Transit) (next : Except Error Unit → α) (waiting : Handover → α) :
    System × Turn α :=
  match x with
  | (s, .done r) => (s, .go (next r))
  | (s, .waiting h) => (s, .wait (waiting h))

end Transit

namespace System

/-- A step of a handler. -/
def stepHandler (s : System) (p : ProcessId) (context : ContextId) :
    HandlerPoint → System × Turn HandlerPoint
  | .ready (.return result) => (s, .done result)
  | .ready (.call c next) =>
    Transit.turn (s.call p context c) (fun r => .ready (next r)) (.calling · next)
  | .ready (.sleep ms next) => (s, .go (.sleeping (s.now + ms) next))
  | .calling h next => Transit.turn (s.resume p h) (fun r => .ready (next r)) (.calling · next)
  | .sleeping due next =>
    match s.spendAt? due with
    | some s => (s, .go (.ready next))
    | none => (s, .wait (.sleeping due next))

/-- A step of a delivery. -/
def stepDelivery (s : System) (p : ProcessId) (c : ChannelId) (d : Delivery) (point : DeliveryPoint) :
    System × Turn DeliveryPoint :=
  let transit :=
    match point with
    | .start => s.deliver p c d
    | .sending h => s.resume p h
  match transit with
  | (s, .done r) => (s, .done (d.outcome r))
  | (s, .waiting h) => (s, .wait (.sending h))

end System

end GraphServer
