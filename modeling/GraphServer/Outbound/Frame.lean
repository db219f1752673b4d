import GraphServer.Frame.LengthPrefix

/-!
What travels to a transport: frames, each behind its length prefix, and at last the order to close.
-/

namespace GraphServer

/-- A frame with its length prefix. -/
structure OutboundFrame where
  lengthPrefix : Bytes
  body : Bytes
  deriving DecidableEq, Repr

namespace OutboundFrame

/-- The frame of a body, which has to be short enough for a prefix. -/
def make (body : Bytes) : Except Error OutboundFrame := do
  return ⟨← LengthPrefix.encode body.length, body⟩

/-- The bytes of a frame as they go out. -/
def bytes (f : OutboundFrame) : Bytes :=
  f.lengthPrefix ++ f.body

/-- The number of bytes of a frame as it goes out. -/
def size (f : OutboundFrame) : Nat :=
  LengthPrefix.width + f.body.length

end OutboundFrame

/-- A message to the writer of a transport. -/
inductive Outgoing where
  /-- A frame is to be written. -/
  | frame (f : OutboundFrame)
  /-- The transport is to be shut down after everything before. -/
  | close
  deriving DecidableEq, Repr

/-- The frames among messages. -/
def Outgoing.frames (messages : List Outgoing) : List OutboundFrame :=
  messages.filterMap fun
    | .frame f => some f
    | .close => none

end GraphServer
