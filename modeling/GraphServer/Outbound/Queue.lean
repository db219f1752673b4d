import GraphServer.Outbound.Frame
import GraphServer.Settings.Basic

/-!
The bounded queue between those who send and the writer of a transport.

A message needs a place. Places are taken at once while there are free ones, and otherwise in the order
in which senders asked for them: a place that becomes free is granted to the sender that has waited
longest, which fills it when it runs again. A closed queue takes nothing more and keeps no one waiting.

Beside the places the queue counts the frames that are on their way, those that wait for a place and
those that the writer has taken and not yet written included.
-/

namespace GraphServer

/-- Names one who sends. -/
abbrev SenderId := Nat

/-- A bounded queue of messages. -/
structure OutboundQueue where
  settings : WriterSettings
  /-- The messages in their places. -/
  messages : List Outgoing := []
  /-- The senders that hold a place which they have not filled yet. -/
  granted : List SenderId := []
  /-- The senders that wait for a place, in the order in which they came. -/
  waiting : List SenderId := []
  /-- How many frames are on their way. -/
  pending : Nat := 0
  /-- Whether the writer takes nothing more. -/
  closed : Bool := false
  /-- Whether nobody is left who could send. -/
  abandoned : Bool := false
  deriving DecidableEq, Repr

namespace OutboundQueue

/-! ### Places -/

/-- The number of places; there is at least one. -/
def capacity (q : OutboundQueue) : Nat :=
  max q.settings.channelCapacity 1

/-- The number of places that are filled or granted. -/
def taken (q : OutboundQueue) : Nat :=
  q.messages.length + q.granted.length

/-- Whether so many frames are on their way that senders have to wait before they ask for a place. -/
def underPressure (q : OutboundQueue) : Bool :=
  q.settings.maxPendingFrames ≤ q.pending

/-- Puts a message into a free place. -/
def store (q : OutboundQueue) (m : Outgoing) : OutboundQueue :=
  { q with messages := q.messages ++ [m] }

/-- Grants a free place to the sender that has waited longest. -/
def grant (q : OutboundQueue) : OutboundQueue × Option SenderId :=
  match q.waiting with
  | [] => (q, none)
  | s :: rest => ({ q with granted := q.granted ++ [s], waiting := rest }, some s)

/-! ### Sending -/

/-- What asking for a place leads to. -/
inductive Entry where
  /-- The queue is closed. -/
  | refused
  /-- The message is in its place. -/
  | stored (q : OutboundQueue)
  /-- The sender has to wait. -/
  | queued (q : OutboundQueue)

/-- Asks for a place for a message. -/
def enter (q : OutboundQueue) (s : SenderId) (m : Outgoing) : Entry :=
  if q.closed then .refused
  else if q.taken < q.capacity then .stored (q.store m)
  else .queued { q with waiting := q.waiting ++ [s] }

/-- Asks for a place that is to be filled later. -/
def reserve (q : OutboundQueue) (s : SenderId) : Entry :=
  if q.closed then .refused
  else if q.taken < q.capacity then .queued { q with granted := q.granted ++ [s] }
  else .queued { q with waiting := q.waiting ++ [s] }

/-- Asks again for a sender that has waited. -/
def resume (q : OutboundQueue) (s : SenderId) (m : Outgoing) : Entry :=
  if q.closed then .refused
  else if s ∈ q.granted then .stored (store { q with granted := q.granted.erase s } m)
  else .queued q

/-- A sender stops waiting; a place granted to it goes to the next one. -/
def leave (q : OutboundQueue) (s : SenderId) : OutboundQueue × Option SenderId :=
  if s ∈ q.granted then { q with granted := q.granted.erase s }.grant
  else ({ q with waiting := q.waiting.erase s }, none)

/-- One more frame is on its way. -/
def count (q : OutboundQueue) : OutboundQueue :=
  { q with pending := q.pending + 1 }

/-- That many frames are no longer on their way. -/
def discount (q : OutboundQueue) (n : Nat) : OutboundQueue :=
  { q with pending := q.pending - n }

/-- Sends a frame if that needs no waiting. -/
def trySend (q : OutboundQueue) (f : OutboundFrame) : Except Error OutboundQueue :=
  if q.underPressure then .error .backpressureTimeout
  else if q.closed then .error .connectionClosed
  else if q.taken < q.capacity then .ok (q.count.store (.frame f))
  else .error .backpressureTimeout

/-! ### Receiving -/

/-- Takes the first message, whose place is granted anew. -/
def receive (q : OutboundQueue) : Option (Outgoing × OutboundQueue × Option SenderId) :=
  match q.messages with
  | [] => none
  | m :: rest => some (m, { q with messages := rest }.grant)

/-- Closes the queue, with which the messages in it are lost: the senders that waited. -/
def close (q : OutboundQueue) : OutboundQueue × List SenderId :=
  ({ q with messages := [], granted := [], waiting := [], closed := true }, q.waiting)

end OutboundQueue

end GraphServer
