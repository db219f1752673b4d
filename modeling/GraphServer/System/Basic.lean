import GraphServer.Frame.Handshake
import GraphServer.Frame.Splitter
import GraphServer.Message.Codec
import GraphServer.Session.Table
import GraphServer.Settings.Budget
import GraphServer.System.Process

/-!
A server at work: its settings, its clock, and everything that its processes share.

Channels, sessions, contexts, connections and processes are named by their numbers and never go away.
Processes that can go on stand in the order in which they were woken. Timers run on one clock; the
patience of senders is measured on another one, which need not agree with it.

No process keeps the others waiting for long: in one turn it may only so often pass a point at which it
could have had to wait. Once this allowance is used up it is set aside at the next such point.
-/

namespace GraphServer

/-! ### The parts -/

/-- What is the same for the whole life of a server. -/
structure Service where
  settings : ServerSettings := {}
  codec : MessageCodec := {}
  ops : OpRegistry := {}

/-- The service under some settings, which have to be valid, with serializers and handlers. -/
def Service.make (settings : ServerSettings) (types : Registry) (ops : OpRegistry) :
    Except Error Service := do
  let settings ← settings.validate
  return {
    settings, ops
    codec := {
      registry := types, maxDepth := settings.maxValueDepth
      allocator := { kind := settings.allocator } } }

/-- What a handler and all who answer for it share: the request, where its responses go, and whether
the last of them was sent off. -/
structure TaskContext where
  request : Uuid
  channel : Option ChannelId
  finished : Bool := false
  deriving DecidableEq, Repr

namespace TaskContext

/-- The context in full detail. -/
def detail (c : TaskContext) : String :=
  s!"TaskContext \x7b request_id: {c.request.text}, finished: {c.finished} \x7d"

end TaskContext

/-- The server's end of a connection. -/
structure Connection where
  channel : ChannelId
  process : ProcessId
  splitter : FrameSplitter
  handshake : HandshakeDecoder := {}
  /-- The bytes that arrived and were not read yet. -/
  inbound : Bytes := []
  /-- Whether no more bytes can arrive. -/
  inboundEnded : Bool := false

/-- How often a process may pass a point at which it could have had to wait, in one turn. -/
def turnAllowance : Nat := 128

/-- A server at work. -/
structure System where
  service : Service := {}
  /-- The clock of the timers, in milliseconds. -/
  now : Nat := 0
  /-- The clock on which the patience of senders is measured, in milliseconds. -/
  wall : Nat := 0
  processes : List Process := []
  /-- The processes that were woken and did not have their turn yet, in order. -/
  ready : List ProcessId := []
  /-- The processes that were set aside, the last one first. -/
  aside : List ProcessId := []
  /-- What is left of the allowance of the process that has its turn. -/
  allowance : Nat := turnAllowance
  /-- What is left of the allowance of those who act from outside, since others last had their turns. -/
  reserve : Nat := turnAllowance
  /-- When processes are to be woken, in the order in which they asked for it. -/
  alarms : List (Nat × ProcessId) := []
  channels : List Channel := []
  contexts : List TaskContext := []
  sessions : List Session := []
  connections : List Connection := []
  table : SessionTable := {}

namespace System

/-! ### Changing a part -/

/-- Changes a channel. -/
def onChannel (s : System) (c : ChannelId) (f : Channel → Channel) : System :=
  { s with channels := s.channels.modify c f }

/-- Changes a session. -/
def onSession (s : System) (i : SessionId) (f : Session → Session) : System :=
  { s with sessions := s.sessions.modify i f }

/-- Changes a context. -/
def onContext (s : System) (c : ContextId) (f : TaskContext → TaskContext) : System :=
  { s with contexts := s.contexts.modify c f }

/-- Changes a connection. -/
def onConnection (s : System) (c : ConnectionId) (f : Connection → Connection) : System :=
  { s with connections := s.connections.modify c f }

/-- Changes a process. -/
def onProcess (s : System) (p : ProcessId) (f : Process → Process) : System :=
  { s with processes := s.processes.modify p f }

/-- Adds a context. -/
def addContext (s : System) (c : TaskContext) : System × ContextId :=
  ({ s with contexts := s.contexts ++ [c] }, s.contexts.length)

/-- Adds a session. -/
def addSession (s : System) (x : Session) : System × SessionId :=
  ({ s with sessions := s.sessions ++ [x] }, s.sessions.length)

/-! ### Processes -/

/-- The program of a process. -/
def program? (s : System) (p : ProcessId) : Option Program :=
  s.processes[p]?.map (·.program)

/-- The result of a process once it has ended; one that was stopped has none. -/
def result? (s : System) (p : ProcessId) : Option (Option (Except Error Unit)) :=
  match s.program? p with
  | some (.finished result) => some result
  | _ => none

/-- Wakes a process, unless it is awake. -/
def wake (s : System) (p : ProcessId) : System :=
  if p ∈ s.ready then s else { s with ready := s.ready ++ [p] }

/-- Wakes processes in order. -/
def wakeAll (s : System) (ps : List ProcessId) : System :=
  ps.foldl wake s

/-- Wakes a process if its program is at a certain kind of point. -/
def wakeIf (s : System) (p : ProcessId) (test : Program → Bool) : System :=
  if (s.program? p).any test then s.wake p else s

/-- Adds a process that stands at the start of a program and is not awake. -/
def addProcess (s : System) (program : Program) : System × ProcessId :=
  ({ s with processes := s.processes ++ [{ program }] }, s.processes.length)

/-- Takes something off the allowance of the process that has its turn. -/
def spend (s : System) : System :=
  { s with allowance := s.allowance - 1 }

/-- Passes a point at which the process that has its turn could have had to wait, unless its allowance is
used up. -/
def spend? (s : System) : Option System :=
  if s.allowance = 0 then none else some s.spend

/-- The same for a point at which the process waits until the timers reach a time. -/
def spendAt? (s : System) (due : Nat) : Option System :=
  if s.now < due then none else s.spend?

/-- Starts a process, which runs when it is its turn. -/
def spawn (s : System) (program : Program) : System × ProcessId :=
  let (s, p) := s.addProcess program
  (s.wake p, p)

/-- Stops a process when it is its turn. -/
def abort (s : System) (p : ProcessId) : System :=
  match s.program? p with
  | none | some (.finished _) => s
  | some _ => (s.onProcess p fun x => { x with cancelled := true }).wake p

/-- Stops processes when it is their turn. -/
def abortAll (s : System) (ps : List ProcessId) : System :=
  ps.foldl abort s

/-- The processes that wait for another one to end. -/
def joining (s : System) (p : ProcessId) : List ProcessId :=
  (List.range s.processes.length).filter fun q => (s.program? q).any (·.isJoining p)

/-- Nothing is to wake a process any more. -/
def forget (s : System) (p : ProcessId) : System :=
  { s with
    ready := s.ready.filter (· ≠ p), aside := s.aside.filter (· ≠ p)
    alarms := s.alarms.filter (·.2 ≠ p) }

/-- Ends a process and wakes those that wait for it. -/
def finish (s : System) (p : ProcessId) (result : Option (Except Error Unit)) : System :=
  let s := (s.onProcess p fun x => { x with program := .finished result }).forget p
  s.wakeAll (s.joining p)

/-! ### Writers -/

/-- Wakes the writer of a channel if it waits for messages. -/
def wakeReceiver (s : System) (c : ChannelId) : System :=
  match s.channels[c]? with
  | some x => if x.outbound.isReceiving then s.wakeAll x.writer.toList else s
  | none => s

/-- Adds a channel to a transport. -/
def addChannel (s : System) (transport : Transport) : System × ChannelId :=
  let queue : OutboundQueue := { settings := s.service.settings.writer }
  ({ s with channels := s.channels ++ [{ outbound := { queue, transport } }] }, s.channels.length)

/-- Starts the writer of a channel. -/
def spawnWriter (s : System) (c : ChannelId) : System :=
  let (s, p) := s.spawn (.writer c)
  s.onChannel c fun x => { x with writer := some p }

/-- Opens a channel to a transport. -/
def openChannel (s : System) (transport : Transport) : System × ChannelId :=
  let (s, c) := s.addChannel transport
  (s.spawnWriter c, c)

end System

end GraphServer
