import GraphServer.Message.Basic
import GraphServer.Outbound.Writer

/-!
Channels: the outgoing half of a client connection.

A channel takes responses until it is closed; closing it closes the transport after everything that was
taken before. A channel remembers in order what was put into its queue. Sessions are bound to the
channel over which they were opened.
-/

namespace GraphServer

/-- Names a channel. -/
abbrev ChannelId := Nat

/-- Names a process. -/
abbrev ProcessId := Nat

/-- What was put into the queue of a channel. -/
inductive Sent where
  | response (r : Response)
  | close

/-- A message on its way into a queue, and what it stands for: nothing, if it is a frame of unknown
contents. -/
structure Parcel where
  message : Outgoing
  meaning : Option Sent

namespace Parcel

/-- The order to close. -/
def close : Parcel := ⟨.close, some .close⟩

/-- A frame that spells a response. -/
def response (r : Response) (f : OutboundFrame) : Parcel := ⟨.frame f, some (.response r)⟩

/-- A frame of unknown contents. -/
def raw (f : OutboundFrame) : Parcel := ⟨.frame f, none⟩

/-- Whether the parcel is a frame. -/
def isFrame (p : Parcel) : Bool :=
  match p.message with
  | .frame _ => true
  | .close => false

end Parcel

/-- The outgoing half of a client connection. -/
structure Channel where
  outbound : Outbound
  /-- The process that runs its writer, once there is one. -/
  writer : Option ProcessId := none
  /-- Whether it was closed, so that it takes no responses. -/
  closed : Bool := false
  /-- What was put into its queue, in order. -/
  sent : List Sent := []

namespace Channel

/-- Whether responses have no way out any more, because the channel was closed or its writer ended. -/
def isClosed (c : Channel) : Bool :=
  c.closed || c.outbound.queue.closed

/-- The channel with another queue. -/
def withQueue (c : Channel) (q : OutboundQueue) : Channel :=
  { c with outbound := { c.outbound with queue := q } }

/-- The channel after a parcel was put into its queue. -/
def record (c : Channel) (p : Parcel) : Channel :=
  { c with sent := c.sent ++ p.meaning.toList }

end Channel

end GraphServer
