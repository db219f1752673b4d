import GraphServer.System.Schedule

/-!
What reaches a server from outside, and how the server reacts.

An event is dealt with at once, as far as that needs no waiting; what it set going runs when the
processes have their turns.
-/

namespace GraphServer

/-- Something that happens to a server. -/
inductive Event where
  /-- A session for one task is opened. -/
  | openSingle (name : String) (c : ChannelId)
  /-- A session for many tasks is opened. -/
  | openMulti (name : String) (c : ChannelId) (limit : Nat)
  /-- The session with a name is asked for over a channel. -/
  | getOrCreate (name : String) (c : ChannelId)
  /-- A session for one task is asked for over a channel. -/
  | single (c : ChannelId)
  /-- A request is submitted to a session, to be answered over a channel. -/
  | submit (i : SessionId) (r : Request) (c : ChannelId)
  /-- The same, and the request is refused if the session does not accept it. -/
  | submitOrRefuse (i : SessionId) (r : Request) (c : ChannelId)
  /-- The time of a session or of the task in it is up. -/
  | timeout (i : SessionId) (elapsed : Nat) (ofSession : Bool)
  /-- A session is to accept nothing more. -/
  | close (i : SessionId)
  /-- The session with a name is to accept nothing more. -/
  | closeNamed (name : String)
  /-- The sessions of a channel are to end. -/
  | closeBoundTo (c : ChannelId)
  /-- A hook of a session is filled with a process that has ended. -/
  | fillHook (i : SessionId) (hook : SessionHook)
  /-- The named sessions that accept tasks are counted. -/
  | countNamed
  /-- The sessions for single tasks that are not terminated are counted. -/
  | countSingles
  /-- Something is to be put into the queue of a channel. -/
  | deliver (c : ChannelId) (d : Delivery)
  /-- A frame is to be put into the queue of a channel if that needs no waiting. -/
  | trySend (c : ChannelId) (f : OutboundFrame)
  /-- A context is called upon. -/
  | call (context : ContextId) (c : Call)
  /-- A transport stalls or goes on. -/
  | stall (c : ChannelId) (stalled : Bool)
  /-- Nobody is left who could send over a channel. -/
  | abandon (c : ChannelId)
  /-- Time passes. -/
  | pass (milliseconds : Nat)

/-- How a server reacts to an event. -/
inductive Reaction where
  | outcome (r : Except Error Unit)
  | accepted (r : Except Error Bool)
  | session (r : Except Error SessionId)
  | number (n : Nat)
  /-- Something has to wait. -/
  | pending

namespace System

/-- Runs a program at once, and others as long as it has to wait for them. -/
def act (s : System) (program : Program) : System × Reaction :=
  let (s, p) := s.perform program
  match s.result? p with
  | some (some r) => (s, .outcome r)
  | _ => (s, .pending)

/-- Fills a hook of a session with a process that has ended. -/
def fillHook (s : System) (i : SessionId) (hook : SessionHook) : System × Except Error Unit :=
  let (s, p) := s.addProcess (.finished none)
  match s.sessions[i]? with
  | none => (s, .ok ())
  | some x =>
    match x.setHook hook p with
    | .ok x => (s.onSession i fun _ => x, .ok ())
    | .error e => (s, .error e)

/-- An action without an outcome. -/
def quietly (s : System) : System × Reaction :=
  (s, .outcome (.ok ()))

/-- Deals with an event. -/
def react (s : System) : Event → System × Reaction
  | .openSingle name c => (s.openSingle name c).map id fun i => .session (.ok i)
  | .openMulti name c limit => (s.openMulti name c limit).map id fun i => .session (.ok i)
  | .getOrCreate name c => (s.getOrCreate name c).map id .session
  | .single c => (s.single c).map id fun i => .session (.ok i)
  | .submit i r c =>
    let (s, t) := s.makeTask r c
    (s.submitTask i t).map id .accepted
  | .submitOrRefuse i r c =>
    match s.submit c i r with
    | (s, none) => s.quietly
    | (s, some r) => s.act (.delivery c (.reply r) .start)
  | .timeout i elapsed ofSession => s.act (.timeout i elapsed ofSession .start)
  | .close i => (s.closeMulti i).quietly
  | .closeNamed name => (s.closeSession name).map id fun b => .accepted (.ok b)
  | .closeBoundTo c => (s.closeBoundTo c).quietly
  | .fillHook i hook => (s.fillHook i hook).map id .outcome
  | .countNamed => s.sessionCount.map id .number
  | .countSingles => s.runningSingles.map id .number
  | .deliver c d => s.act (.delivery c d .start)
  | .trySend c f => (s.trySend c f).map id .outcome
  | .call context c => s.act (.handler context (.ready (.once c)))
  | .stall c stalled => (s.onTransport c fun t => { t with stalled }).quietly
  | .abandon c => (s.abandon c).quietly
  | .pass milliseconds => (s.advance milliseconds).quietly

end System

end GraphServer
