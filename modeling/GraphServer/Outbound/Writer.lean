import GraphServer.Outbound.Queue
import GraphServer.Outbound.Transport
import GraphServer.Outbound.Unwritten

/-!
The writer of a transport, which alone takes messages out of the queue and writes them.

It takes what is ready, at most `batchLimit` frames and none after an order to close, writes the whole
batch, flushes, and only then counts its frames as arrived. After an order to close it takes nothing
more and shuts the transport down. A failure of the transport ends it at once; either way the queue is
closed when it ends.
-/

namespace GraphServer

/-- What a writer is about. -/
inductive WriterPhase where
  /-- It takes messages. -/
  | receiving
  /-- It writes the rest of a batch of so many frames, the last ones if an order to close followed. -/
  | writing (rest : Unwritten) (frames : Nat) (closing : Bool)
  /-- It shuts the transport down. -/
  | closing
  /-- It has ended. -/
  | ended (result : Except Error Unit)

/-- The way out: the queue, its writer and the transport. -/
structure Outbound where
  queue : OutboundQueue
  phase : WriterPhase := .receiving
  transport : Transport := {}

namespace Outbound

/-- The greatest number of frames written together. -/
def batchLimit : Nat := 64

/-- Messages taken together: their frames, whether an order to close was the last of them, the queue
after them and the senders to which their places were granted. -/
structure Batch where
  frames : List OutboundFrame
  closing : Bool
  queue : OutboundQueue
  woken : List SenderId

/-- Takes messages until there are none, `limit` frames are taken or the order to close. -/
def takeBatch : (limit : Nat) → OutboundQueue → Batch
  | 0, q => ⟨[], false, q, []⟩
  | limit + 1, q =>
    match q.receive with
    | none => ⟨[], false, q, []⟩
    | some (.close, q, woken) => ⟨[], true, q, woken.toList⟩
    | some (.frame f, q, woken) =>
      let b := takeBatch limit q
      { b with frames := f :: b.frames, woken := woken.toList ++ b.woken }

/-- Ends the writer, with which the queue is closed. -/
def finish (o : Outbound) (result : Except Error Unit) : Outbound × List SenderId :=
  let (queue, woken) := o.queue.close
  ({ o with queue, phase := .ended result }, woken)

/-- What a writer does after a batch. -/
def afterBatch (closing : Bool) : WriterPhase :=
  if closing then .closing else .receiving

/-- Goes one step: what it leads to and the senders to which something happened, or nothing if the
writer has to wait or has ended. -/
def step (o : Outbound) : Option (Outbound × List SenderId) :=
  match o.phase with
  | .receiving =>
    if o.queue.messages.isEmpty then
      if o.queue.abandoned then some (o.finish (.ok ())) else none
    else
      let b := takeBatch batchLimit o.queue
      let phase :=
        if b.frames.isEmpty then .closing
        else .writing (.ofFrames b.frames) b.frames.length b.closing
      some ({ o with queue := b.queue, phase }, b.woken)
  | .writing rest frames closing =>
    if rest.isEmpty then
      match o.transport.flush with
      | .error text => some (o.finish (.error (.io text)))
      | .ok () => some ({ o with queue := o.queue.discount frames, phase := afterBatch closing }, [])
    else if o.transport.stalled then none
    else
      match o.transport.write rest.bytes with
      | .error text => some (o.finish (.error (.io text)))
      | .ok (_, 0) => some (o.finish (.error (.io "transport accepted no bytes")))
      | .ok (transport, n) =>
        some ({ o with transport, phase := .writing (rest.advance n) frames closing }, [])
  | .closing =>
    match o.transport.shutdown with
    | .error text => some (o.finish (.error (.io text)))
    | .ok transport => some ({ o with transport }.finish (.ok ()))
  | .ended _ => none

/-- The result of the writer, once it has ended. -/
def result? (o : Outbound) : Option (Except Error Unit) :=
  match o.phase with
  | .ended result => some result
  | _ => none

/-- Whether the writer waits for messages. -/
def isReceiving (o : Outbound) : Bool :=
  match o.phase with
  | .receiving => true
  | _ => false

end Outbound

end GraphServer
