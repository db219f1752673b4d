import GraphServer.System.Timeout

/-!
Opening sessions, submitting tasks to them, and ending them.
-/

namespace GraphServer.System

/-! ### Opening -/

/-- Opens a session for one task. -/
def openSingle (s : System) (name : String) (c : ChannelId) : System × SessionId :=
  s.addSession { name, channel := c }

/-- Opens a session for many tasks, of which some number, at least one, may wait. -/
def openMulti (s : System) (name : String) (c : ChannelId) (limit : Nat) : System × SessionId :=
  let (s, i) := s.addSession { name, channel := c, backlog := some { limit := max limit 1 } }
  let (s, worker) := s.spawn (.worker i .choosing)
  (s.onSession i fun x => { x with future := some worker }, i)

/-! ### Submitting -/

/-- Makes a task of a request that is answered over a channel. -/
def makeTask (s : System) (request : Request) (c : ChannelId) : System × Task :=
  let (s, context) := s.addContext { request := request.id, channel := some c }
  (s, { request, context })

/-- Submits a task to a session: whether the session accepted it, or why it is full. -/
def submitTask (s : System) (i : SessionId) (t : Task) : System × Except Error Bool :=
  match s.sessions[i]? with
  | none => (s, .ok false)
  | some x =>
    if x.accepting then
      match x.backlog with
      | none =>
        let (s, p) := (s.onSession i Session.stopAccepting).spawn (.single i (.start t))
        (s.onSession i fun x => (x.setHook .future p).toOption.getD x, .ok true)
      | some b =>
        match x.enqueue b t with
        | .error e => (s, .error e)
        | .ok x => ((s.onSession i fun _ => x).notify i, .ok true)
    else (s, .ok false)

/-- The response to a request that is refused. -/
def refusal (request : Uuid) (e : Error) : Response :=
  .ofMessage request e.status e.message

/-- Submits a request: the response to be sent if the session does not accept it. -/
def submit (s : System) (c : ChannelId) (i : SessionId) (request : Request) :
    System × Option Response :=
  let (s, t) := s.makeTask request c
  match s.submitTask i t with
  | (s, .ok true) => (s, none)
  | (s, .ok false) =>
    let name := (s.sessions[i]?.map (·.name)).getD ""
    (s, some (refusal request.id (.rejected (.notAccepting name))))
  | (s, .error e) => (s, some (refusal request.id e))

/-! ### Ending -/

/-- Lets a session finish what it has accepted and accept nothing more. -/
def closeMulti (s : System) (i : SessionId) : System :=
  (s.onSession i Session.stopAccepting).notify i

/-- Ends a session at once: its tasks are forgotten and its processes stopped. -/
def kill (s : System) (i : SessionId) : System :=
  match s.sessions[i]? with
  | none => s
  | some x =>
    (s.onSession i Session.kill).abortAll
      ((x.inFlight.map (·.handler)).toList ++ x.future.toList ++ x.cancelFuture.toList)

/-! ### The table of sessions -/

/-- Whether a session accepts tasks. -/
def isAccepting (s : System) (i : SessionId) : Bool :=
  s.sessions[i]?.any (·.accepting)

/-- Whether a session is terminated. -/
def isTerminated (s : System) (i : SessionId) : Bool :=
  s.sessions[i]?.any (·.terminated)

/-- Whether a session is bound to a channel. -/
def isBound (s : System) (i : SessionId) (c : ChannelId) : Bool :=
  s.sessions[i]?.any (·.channel == c)

/-- Drops the named sessions that accept no tasks from the table. -/
def prune (s : System) : System :=
  { s with table := s.table.keepNamed s.isAccepting }

/-- Drops the sessions for single tasks that are terminated from the table. -/
def pruneSingles (s : System) : System :=
  { s with table := s.table.keepSingles fun i => !s.isTerminated i }

/-- The number of named sessions that accept tasks. -/
def sessionCount (s : System) : System × Nat :=
  (s.prune, s.prune.table.named.length)

/-- The number of sessions for single tasks that are not terminated. -/
def runningSingles (s : System) : System × Nat :=
  (s.pruneSingles, s.pruneSingles.table.singles.length)

/-- The session with a name that accepts tasks. -/
def findSession? (s : System) (name : String) : Option SessionId :=
  (s.table.find? name).filter s.isAccepting

/-- Starts the watch over the lifetime of a session, if that is limited. -/
def armLifetime (s : System) (i : SessionId) : System :=
  let lifetime := s.service.settings.sessionLifetime
  if lifetime = 0 then s
  else
    let (s, p) := s.spawn (.lifetime i lifetime none)
    s.onSession i fun x => (x.setHook .cancelFuture p).toOption.getD x

/-- The session with a name, which has to be bound to the channel; it is opened unless there is one, as
long as there are not too many. -/
def getOrCreate (s : System) (name : String) (c : ChannelId) : System × Except Error SessionId :=
  let s := s.prune
  let settings := s.service.settings
  match s.table.find? name with
  | some i =>
    if s.isBound i c then (s, .ok i) else (s, .error (.rejected (.boundElsewhere name)))
  | none =>
    if settings.maxConcurrentSessions ≤ s.table.named.length then
      (s, .error (.rejected (.tooManySessions settings.maxConcurrentSessions)))
    else
      let (s, i) := s.openMulti name c settings.maxQueuedTasks
      let s := s.armLifetime i
      ({ s with table := s.table.insert name i }, .ok i)

/-- Opens a session for one task and adds it to the table. -/
def single (s : System) (c : ChannelId) : System × SessionId :=
  let (s, i) := s.openSingle "" c
  let s := s.pruneSingles
  ({ s with table := s.table.insertSingle i }, i)

/-- Closes the session with a name, which leaves the table: whether there was one. -/
def closeSession (s : System) (name : String) : System × Bool :=
  match s.table.find? name with
  | none => (s, false)
  | some i => (closeMulti { s with table := s.table.erase name } i, true)

/-- Kills the sessions that are bound to a channel; they and those that are terminated leave the
table. -/
def closeBoundTo (s : System) (c : ChannelId) : System :=
  let keep i := !s.isBound i c && !s.isTerminated i
  let killed := (s.table.all.filter (s.isBound · c)).foldl kill s
  { killed with table := (s.table.keepNamed keep).keepSingles keep }

end GraphServer.System
