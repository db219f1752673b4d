import GraphServer.Proofs.Session.Chronicle
import GraphServer.Proofs.System.Steps

/-!
The course of the affairs of a session.

* `Affairs.Opened`: how they stand when the session is opened;
* `Affairs.Outside`: what those outside do to them, and which tasks are accepted with it;
* `Affairs.Performs`: what a process does to them in one step;
* `Course`: how they can come to stand, step by step and turn by turn.
-/

namespace GraphServer

namespace Affairs

variable {i : SessionId} {c : ChannelId} {a : Affairs}

/-! ### Parts -/

/-- The tasks that wait in the session. -/
def queue (a : Affairs) : List Task :=
  (a.session.backlog.map (·.tasks)).getD []

/-- Whether no last response was sent off for a context. -/
def isOpen (a : Affairs) (k : ContextId) : Bool :=
  a.contexts[k]?.any (!·.finished)

/-- Where the execution of a task stands. -/
def point? (a : Affairs) : Option RunPoint :=
  (a.session.future.bind a.program?).bind Program.runPoint?

/-- Adds the context of a request over the channel. -/
def addContext (a : Affairs) (c : ChannelId) (r : Request) : Affairs :=
  { a with contexts := a.contexts ++ [{ request := r.id, channel := some c }] }

/-- The task made of the next request. -/
def nextTask (a : Affairs) (r : Request) : Task :=
  ⟨r, a.contexts.length⟩

/-- Adds a task to those that wait, and notifies the process that executes them. -/
def enqueue (a : Affairs) (b : Backlog) (t : Task) : Affairs :=
  (a.onSession fun x => { x with backlog := some { b with tasks := b.tasks ++ [t] } }).notify

/-- Starts the process that executes the only task. -/
def engage (a : Affairs) (i : SessionId) (t : Task) : Affairs :=
  { a.addProcess (.single i (.start t)) with
    session := { a.session with accepting := false, future := some a.processes.length }, awake := true }

/-! ### What happens -/

/-- How the affairs of a session stand when it is opened. -/
inductive Opened (i : SessionId) (c : ChannelId) : Affairs → Prop
  | single (name : String) : Opened i c
    { session := { name, channel := c }
      contexts := [], processes := [{ program := .writer c }], closed := false, sent := [], awake := false }
  | multi (name : String) (limit : Nat) : Opened i c
    { session := { name, channel := c, backlog := some { limit }, future := some 1 }
      contexts := [], processes := [{ program := .writer c }, { program := .worker i .choosing }]
      closed := false, sent := [], awake := true }
  | watched (name : String) (limit milliseconds : Nat) : Opened i c
    { session := { name, channel := c, backlog := some { limit }, future := some 1, cancelFuture := some 2 }
      contexts := []
      processes := [{ program := .writer c }, { program := .worker i .choosing },
        { program := .lifetime i milliseconds none }]
      closed := false, sent := [], awake := true }

/-- What is done from outside, and the tasks that were accepted before and after it. -/
inductive Outside (i : SessionId) (c : ChannelId) (a : Affairs) (accepted : List Task) :
    Affairs → List Task → Prop
  /-- A time is declared to be up. -/
  | timeout (elapsed : Nat) (ofSession : Bool) :
    Outside i c a accepted (a.addProcess (.timeout i elapsed ofSession .start)) accepted
  /-- Somebody else has a frame for the channel. -/
  | traffic (f : OutboundFrame) :
    Outside i c a accepted (a.addProcess (.delivery c (.parcel (.raw f)) .start)) accepted
  /-- A request is not accepted. -/
  | declines (r : Request) : Outside i c a accepted (a.addContext c r) accepted
  /-- A task is accepted and waits. -/
  | enqueues (r : Request) {b : Backlog} (backlog : a.session.backlog = some b)
    (accepting : a.session.accepting = true) (room : b.tasks.length < b.limit) :
    Outside i c a accepted ((a.addContext c r).enqueue b (a.nextTask r)) (accepted ++ [a.nextTask r])
  /-- The only task is accepted. -/
  | engages (r : Request) (backlog : a.session.backlog = none) (accepting : a.session.accepting = true)
    (vacant : a.session.future = none) :
    Outside i c a accepted ((a.addContext c r).engage i (a.nextTask r)) (accepted ++ [a.nextTask r])
  /-- The session is to accept nothing more. -/
  | closes : Outside i c a accepted (a.onSession Session.stopAccepting).notify accepted

/-- What a process does in a step. A handler that was stopped takes none; others that were stopped in the same
turn may take some more. -/
structure Performs (i : SessionId) (c : ChannelId) (p : ProcessId) (x : Step) (a a' : Affairs)
    (turn : Turn Program) : Prop where
  process : ∃ y, a.processes[p]? = some y ∧ y.program = x.program ∧
    ∀ k point, y.program = .handler k point → y.cancelled = false
  before : x.before.Shows i c a
  after : x.after.Shows i c a'
  leads : x.turn = some turn
  effect : a.Effect c i x.program a' turn

end Affairs

/-- How the affairs of a session can come to stand: how they stood at first, whether no turn was cut
short, which process has its turn, and the tasks accepted and the steps taken. -/
inductive Course (i : SessionId) (c : ChannelId) (o : Affairs) :
    Bool → Option ProcessId → Affairs → List Task → List Step → Prop
  | opens (opened : o.Opened i c) : Course i c o true none o [] []
  | outside {whole : Bool} {a b : Affairs} {accepted accepted' : List Task} {steps : List Step}
    (course : Course i c o whole none a accepted steps) (outside : a.Outside i c accepted b accepted') :
    Course i c o whole none b accepted' steps
  /-- A process that has ended or is not there misses its turn. -/
  | misses {whole : Bool} {a : Affairs} {accepted : List Task} {steps : List Step} (p : ProcessId)
    (course : Course i c o whole none a accepted steps)
    (ended : ∀ x, a.processes[p]? = some x → x.program.isFinished = true) :
    Course i c o whole none (a.drowse p) accepted steps
  | begins {whole : Bool} {a : Affairs} {accepted : List Task} {steps : List Step} (p : ProcessId)
    (course : Course i c o whole none a accepted steps) :
    Course i c o whole (some p) (a.drowse p) accepted steps
  | goes {whole : Bool} {p : ProcessId} {a a' : Affairs} {accepted : List Task} {steps : List Step} {x : Step}
    {next : Program} (course : Course i c o whole (some p) a accepted steps)
    (performs : a.Performs i c p x a' (.go next)) :
    Course i c o whole (some p) (a'.setProgram p next) accepted (steps ++ [x])
  /-- A turn is cut short. -/
  | cut {whole : Bool} {p : ProcessId} {a : Affairs} {accepted : List Task} {steps : List Step}
    (course : Course i c o whole (some p) a accepted steps) :
    Course i c o false none (a.rouse (decide (a.session.future = some p))) accepted steps
  /-- A process waits, or is set aside when its allowance is spent. -/
  | waits {whole : Bool} {p : ProcessId} {a a' : Affairs} {accepted : List Task} {steps : List Step} {x : Step}
    {next : Program} (spent : Bool) (course : Course i c o whole (some p) a accepted steps)
    (performs : a.Performs i c p x a' (.wait next))
    (idle : spent = true ∨ ∀ h result, next.isJoining h = true → a.program? h ≠ some (.finished result)) :
    Course i c o whole none ((a'.setProgram p next).rouse (spent && decide (a'.session.future = some p)))
      accepted (steps ++ [x])
  | ends {whole : Bool} {p : ProcessId} {a a' : Affairs} {accepted : List Task} {steps : List Step} {x : Step}
    {result : Except Error Unit} (course : Course i c o whole (some p) a accepted steps)
    (performs : a.Performs i c p x a' (.done result)) :
    Course i c o whole none (a'.finish p (some result)) accepted (steps ++ [x])
  /-- A process that was stopped ends when it is its turn. -/
  | stops {whole : Bool} {a : Affairs} {accepted : List Task} {steps : List Step} {x : Step} (p : ProcessId)
    (course : Course i c o whole none a accepted steps)
    (process : ∃ y, a.processes[p]? = some y ∧ y.program = x.program ∧ y.cancelled = true)
    (before : x.before.Shows i c (a.drowse p)) (after : x.after.Shows i c ((a.drowse p).finish p none))
    (turn : x.turn = none) : Course i c o whole none ((a.drowse p).finish p none) accepted (steps ++ [x])

end GraphServer
