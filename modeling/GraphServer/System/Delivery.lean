import GraphServer.System.Basic

/-!
Putting parcels into the queues of channels.

A frame first waits while too many frames are on their way, looking again with every millisecond, until
its sender loses patience; then it is counted as on its way, and its sender asks for a place and waits
for a free one. An order to close only waits for a place. Filling a place takes something off the
allowance of the sender; one without allowance gets its place or takes its stand among those that wait,
and is set aside before it fills the place. A sender that is stopped while it waits gives up its place;
its frame stays counted.
-/

namespace GraphServer

/-- What became of a parcel so far. -/
inductive Transit where
  /-- It is in the queue, or there is a reason why it will not be. -/
  | done (result : Except Error Unit)
  /-- Its sender waits. -/
  | waiting (h : Handover)

namespace System

/-- Counts a frame as on its way. -/
def count (s : System) (c : ChannelId) (parcel : Parcel) : System :=
  if parcel.isFrame then s.onChannel c fun x => x.withQueue x.outbound.queue.count else s

/-- A queue that refuses a frame after all does not count it any more. -/
def uncount (s : System) (c : ChannelId) (parcel : Parcel) : System :=
  if parcel.isFrame then s.onChannel c fun x => x.withQueue (x.outbound.queue.discount 1) else s

/-- What follows from the answer of a queue to a parcel. -/
def ask (s : System) (c : ChannelId) (parcel : Parcel)
    (question : OutboundQueue → OutboundQueue.Entry) : System × Transit :=
  match s.channels[c]? with
  | none => (s, .done (.error .connectionClosed))
  | some x =>
    match question x.outbound.queue with
    | .refused => (s.uncount c parcel, .done (.error .connectionClosed))
    | .stored q =>
      ((s.spend.onChannel c fun x => (x.withQueue q).record parcel).wakeReceiver c, .done (.ok ()))
    | .queued q => (s.onChannel c (·.withQueue q), .waiting ⟨c, parcel, .queued⟩)

/-- Asks for a place for a parcel, which is not filled yet if the allowance is used up. -/
def enter (s : System) (p : ProcessId) (c : ChannelId) (parcel : Parcel) : System × Transit :=
  s.ask c parcel fun q => if s.allowance = 0 then q.reserve p else q.enter p parcel.message

/-- Asks for a place for a parcel unless too many frames are on their way. -/
def press (s : System) (p : ProcessId) (c : ChannelId) (parcel : Parcel) (since : Nat) :
    System × Transit :=
  match s.channels[c]? with
  | none => (s, .done (.error .connectionClosed))
  | some x =>
    let q := x.outbound.queue
    if parcel.isFrame && q.underPressure then
      if q.settings.backpressureTimeout ≤ s.wall - since then
        (s, .done (.error .backpressureTimeout))
      else (s, .waiting ⟨c, parcel, .pressed since (s.now + 1)⟩)
    else (s.count c parcel).enter p c parcel

/-- Sends a parcel off. -/
def send (s : System) (p : ProcessId) (c : ChannelId) (parcel : Parcel) : System × Transit :=
  s.press p c parcel s.wall

/-- Sends a frame if that needs no waiting. -/
def trySend (s : System) (c : ChannelId) (f : OutboundFrame) : System × Except Error Unit :=
  match s.channels[c]? with
  | none => (s, .error .connectionClosed)
  | some x =>
    match x.outbound.queue.trySend f with
    | .error e => (s, .error e)
    | .ok q => ((s.onChannel c (·.withQueue q)).wakeReceiver c, .ok ())

/-- Looks again after a parcel that waits. -/
def resume (s : System) (p : ProcessId) (h : Handover) : System × Transit :=
  match h.stage with
  | .pressed since due =>
    match s.spendAt? due with
    | some s => s.press p h.channel h.parcel since
    | none => (s, .waiting h)
  | .queued => s.ask h.channel h.parcel (·.resume p h.parcel.message)

/-- Gives up a parcel that waits. -/
def giveUp (s : System) (p : ProcessId) (h : Handover) : System :=
  match h.stage, s.channels[h.channel]? with
  | .queued, some x =>
    let (q, woken) := x.outbound.queue.leave p
    (s.onChannel h.channel (·.withQueue q)).wakeAll woken.toList
  | _, _ => s

/-! ### Responses -/

/-- The bytes of a response, or of its replacement when it cannot be encoded, as a frame. -/
def frameOf (s : System) (r : Response) : Except Error OutboundFrame := do
  let codec := s.service.codec
  OutboundFrame.make (← (codec.encodeResponse codec.allocator.pool r).1)

/-- Sends a response over a channel that is not closed. -/
def sendResponse (s : System) (p : ProcessId) (c : ChannelId) (r : Response) : System × Transit :=
  match s.channels[c]? with
  | none => (s, .done (.error .connectionClosed))
  | some x =>
    if x.closed then (s, .done (.error .connectionClosed))
    else
      match s.frameOf r with
      | .error e => (s, .done (.error e))
      | .ok f => s.send p c (.response r f)

/-- Closes a channel after everything that was sent. -/
def closeChannel (s : System) (p : ProcessId) (c : ChannelId) : System × Transit :=
  match s.channels[c]? with
  | none => (s, .done (.ok ()))
  | some x =>
    if x.closed then (s, .done (.ok ()))
    else (s.onChannel c fun x => { x with closed := true }).send p c .close

/-- Begins a delivery. -/
def deliver (s : System) (p : ProcessId) (c : ChannelId) : Delivery → System × Transit
  | .response r | .reply r => s.sendResponse p c r
  | .close => s.closeChannel p c
  | .parcel parcel => s.send p c parcel

/-! ### The last response and those before it -/

/-- Sends a response for a context, which goes nowhere if the context has no channel. -/
def sendFor (s : System) (p : ProcessId) (x : TaskContext) (r : Response) : System × Transit :=
  match x.channel with
  | some c => s.sendResponse p c r
  | none => (s, .done (.ok ()))

/-- Makes a call of a handler. -/
def call (s : System) (p : ProcessId) (i : ContextId) (c : Call) : System × Transit :=
  match s.contexts[i]? with
  | none => (s, .done (.error .connectionClosed))
  | some x =>
    if x.finished then (s, .done (.error (.protocol (.alreadyAnswered x.request))))
    else
      let s := if c.isTerminal then s.onContext i fun x => { x with finished := true } else s
      s.sendFor p x (c.response x.request)

/-- Sends the last response to a request, unless one was sent off. -/
def tryFinish (s : System) (p : ProcessId) (i : ContextId) (r : Uuid → Response) : System × Transit :=
  match s.contexts[i]? with
  | none => (s, .done (.ok ()))
  | some x =>
    if x.finished then (s, .done (.ok ()))
    else (s.onContext i fun x => { x with finished := true }).sendFor p x (r x.request)

/-- The response that tells of a timeout. -/
def timeoutResponse (elapsed : Nat) (ofSession : Bool) (request : Uuid) : Response :=
  let e : Error := .timeout elapsed ofSession
  .ofMessage request e.status e.message

/-- Answers a request with a timeout, unless its last response was sent off. -/
def replyTimeout (s : System) (p : ProcessId) (i : ContextId) (elapsed : Nat) (ofSession : Bool) :
    System × Transit :=
  s.tryFinish p i (timeoutResponse elapsed ofSession)

end System

end GraphServer
