import GraphServer.Handler.Registry
import GraphServer.Session.Basic

/-!
Processes: what runs in a server, and where each of them stands.

A process is a program at a point. Between two points it runs without interruption; at some points it
waits, for time to pass, for another process, or for a place in a queue. All that a process remembers
while it waits is in its point.
-/

namespace GraphServer

/-- Names a connection. -/
abbrev ConnectionId := Nat

/-! ### Waiting for a queue -/

/-- Why a parcel is not yet in the queue. -/
inductive HandoverStage where
  /-- Too many frames are on their way, which will be looked at again when the timers reach `due`; the
  sender has been waiting since `since`. -/
  | pressed (since due : Nat)
  /-- A place was asked for and is not filled yet, because none is free or its sender was set aside. -/
  | queued

/-- A parcel whose sender waits to put it into the queue of a channel. -/
structure Handover where
  channel : ChannelId
  parcel : Parcel
  stage : HandoverStage

/-! ### Points -/

/-- Where a handler stands. -/
inductive HandlerPoint where
  | ready (h : Handler)
  /-- A call waits for the queue. -/
  | calling (h : Handover) (next : Except Error Unit → Handler)
  | sleeping (due : Nat) (next : Handler)

/-- The time that a task may take: how long it is and when it is over. -/
structure Deadline where
  budget : Nat
  due : Nat
  deriving DecidableEq, Repr

/-- Where the execution of one task stands. -/
inductive RunPoint where
  | start (t : Task)
  /-- The handler runs. -/
  | joining (t : Task) (handler : ProcessId) (deadline : Option Deadline)
  /-- The last response of the task waits for the queue. -/
  | sending (h : Handover)
  | over

/-- Where the worker of a session stands. -/
inductive WorkerPoint where
  /-- It looks for a task. -/
  | choosing
  /-- It waits to be notified. -/
  | resting
  | running (p : RunPoint)

/-- Where the end of a session's time stands. -/
inductive TimeoutPoint where
  | start
  /-- The tasks that wait are to be taken. -/
  | draining
  /-- Tasks are to be answered. -/
  | answering (rest : List Task)
  /-- The channel is to be closed. -/
  | closing
  /-- A parcel waits for the queue. -/
  | sending (h : Handover) (next : TimeoutPoint)
  /-- The process that watches the time is to be stopped. -/
  | disarming
  | over

/-- Where a connection stands. -/
inductive ConnectionPoint where
  | start
  /-- It waits for bytes. -/
  | reading
  /-- Frames are to be handled. -/
  | handling (frames : List Bytes)
  /-- A reply waits for the queue; its failure ends the connection. -/
  | replying (h : Handover) (frames : List Bytes)
  /-- The reply to a request that could not be read waits for the queue; what follows does not depend on
  its fate. -/
  | excusing (h : Handover) (next : ConnectionPoint)
  /-- Everything is to be taken down. -/
  | ending (result : Except Error Unit)
  /-- The order to close waits for the queue. -/
  | closing (h : Handover) (result : Except Error Unit)

/-! ### Programs -/

/-- Something to be put into the queue of a channel. -/
inductive Delivery where
  /-- A response. -/
  | response (r : Response)
  /-- A response that is dropped without complaint when too many frames are on their way. -/
  | reply (r : Response)
  /-- The order to close the channel. -/
  | close
  /-- A parcel as it is. -/
  | parcel (p : Parcel)

/-- The outcome of a delivery, given what became of its parcel. -/
def Delivery.outcome : Delivery → Except Error Unit → Except Error Unit
  | .reply _, .error .backpressureTimeout => .ok ()
  | .close, .error .connectionClosed => .ok ()
  | _, result => result

/-- Where a delivery stands. -/
inductive DeliveryPoint where
  | start
  | sending (h : Handover)

/-- A program at a point. -/
inductive Program where
  /-- The handler of a request. -/
  | handler (context : ContextId) (point : HandlerPoint)
  /-- The only task of a session. -/
  | single (session : SessionId) (point : RunPoint)
  /-- The worker of a session. -/
  | worker (session : SessionId) (point : WorkerPoint)
  /-- The watch over the lifetime of a session, and when it is over once the watch has begun. -/
  | lifetime (session : SessionId) (milliseconds : Nat) (due : Option Nat)
  /-- The end of the time of a session or of the task in it. -/
  | timeout (session : SessionId) (elapsed : Nat) (ofSession : Bool) (point : TimeoutPoint)
  /-- The writer of a channel. -/
  | writer (channel : ChannelId)
  /-- The server's end of a connection. -/
  | connection (id : ConnectionId) (point : ConnectionPoint)
  /-- A delivery to a channel. -/
  | delivery (channel : ChannelId) (d : Delivery) (point : DeliveryPoint)
  /-- It has returned, or it was stopped and has no result. -/
  | finished (result : Option (Except Error Unit))

namespace Program

/-- The parcel with which a program waits for a queue. -/
def handover? : Program → Option Handover
  | handler _ (.calling h _) => some h
  | single _ (.sending h) => some h
  | worker _ (.running (.sending h)) => some h
  | timeout _ _ _ (.sending h _) => some h
  | connection _ (.replying h _) => some h
  | connection _ (.excusing h _) => some h
  | connection _ (.closing h _) => some h
  | delivery _ _ (.sending h) => some h
  | _ => none

/-- The time at which a program that waits is to be looked at again. -/
def due? (p : Program) : Option Nat :=
  match p with
  | handler _ (.sleeping due _) => some due
  | single _ (.joining _ _ (some d)) => some d.due
  | worker _ (.running (.joining _ _ (some d))) => some d.due
  | lifetime _ _ (some due) => some due
  | p =>
    match p.handover? with
    | some ⟨_, _, .pressed _ due⟩ => some due
    | _ => none

/-- Whether a program waits for another process to end. -/
def isJoining (p : Program) (other : ProcessId) : Bool :=
  match p with
  | single _ (.joining _ h _) => h == other
  | worker _ (.running (.joining _ h _)) => h == other
  | _ => false

/-- Whether a program waits for a session to notify it. -/
def isResting : Program → Bool
  | worker _ .resting => true
  | _ => false

/-- Whether a program waits for bytes. -/
def isReading : Program → Bool
  | connection _ .reading => true
  | _ => false

/-- Whether a program has ended. -/
def isFinished : Program → Bool
  | finished _ => true
  | _ => false

end Program

/-- A process. -/
structure Process where
  program : Program
  /-- Whether it is to be stopped when it is its turn. -/
  cancelled : Bool := false

end GraphServer
