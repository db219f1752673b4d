import GraphServer.System.Schedule
import Mathlib.Tactic

/-!
The history of one session on a server of its own.

* `Move`: what can happen next. Any process may have a turn, of any length and with any allowance, so that
  every order of turns and every way of cutting them short is a list of moves;
* `Step`: one step of a process, with what it found and what it left;
* `Chronicle`: where the server stands, the tasks that the session accepted, and the steps taken.
-/

namespace GraphServer

/-! ### Last responses -/

/-- Whether a response is the last one to its request: only a part of a result, which has no message, is
not. -/
def Response.concludes (r : Response) : Bool :=
  r.isFinal || r.message.isSome

lemma Call.concludes_response {call : Call} (terminal : call.isTerminal = true) (u : Uuid) :
    (call.response u).concludes = true := by
  cases call with
  | stream data => cases terminal
  | complete data => cases data <;> rfl
  | fail status message => exact Bool.or_true _
  | failWith e => exact Bool.or_true _

lemma Call.request_response (call : Call) (u : Uuid) : (call.response u).request = some u := by
  cases call with
  | complete data => cases data <;> rfl
  | _ => rfl

lemma System.concludes_timeoutResponse (elapsed : Nat) (ofSession : Bool) (u : Uuid) :
    (timeoutResponse elapsed ofSession u).concludes = true :=
  Bool.or_true _

lemma System.concludes_concluding (result : Except Error Unit) (u : Uuid) : (concluding result u).concludes = true := by
  cases result with
  | ok _ => rfl
  | error e => exact Bool.or_true _

lemma System.request_concluding (result : Except Error Unit) (u : Uuid) : (concluding result u).request = some u := by
  cases result <;> rfl

namespace Sent

/-- The last response that was put into a queue. -/
def answer? : Sent → Option Response
  | response r => if r.concludes then some r else none
  | close => none

/-- Whether it is the order to close. -/
def isClose : Sent → Bool
  | response _ => false
  | close => true

/-- The last responses among what was put into a queue. -/
def answers (sent : List Sent) : List Response :=
  sent.filterMap answer?

/-- The part of it ahead of the order to close. -/
def ahead (sent : List Sent) : List Sent :=
  sent.takeWhile (!·.isClose)

instance decidableClosed (sent : List Sent) : Decidable (Sent.close ∈ sent) :=
  decidable_of_iff (sent.any Sent.isClose = true) <| by
    rw [List.any_eq_true]
    refine ⟨fun ⟨x, hx, hclose⟩ => ?_, fun hclose => ⟨_, hclose, rfl⟩⟩
    cases x with
    | response r => cases hclose
    | close => exact hx

end Sent

/-- The last response with which a program waits for a queue. -/
def Program.answer? (p : Program) : Option Response :=
  (p.handover?.bind (·.parcel.meaning)).bind Sent.answer?

namespace TimeoutPoint

/-- Whether the order to close is still to come. -/
def owesClose : TimeoutPoint → Bool
  | draining | answering _ | closing => true
  | sending h next => h.parcel.meaning.any (·.isClose) || next.owesClose
  | _ => false

end TimeoutPoint

/-- Whether a program is to close the channel. -/
def Program.owesClose : Program → Bool
  | timeout _ _ _ point => point.owesClose
  | _ => false

/-- Whether a program waits for something other than to be notified, or has not ended by itself. -/
def Program.isPending (p : Program) : Bool :=
  match p with
  | handler .. | lifetime .. | timeout .. | connection .. | delivery .. => true
  | p => p.handover?.isSome

namespace System

/-- What was put into the queue of a channel. -/
def sentOver (s : System) (c : ChannelId) : List Sent :=
  (s.channels[c]?.map (·.sent)).getD []

/-- Whether no last response was sent off for a context. -/
def isOpen (s : System) (k : ContextId) : Bool :=
  s.contexts[k]?.any (!·.finished)

/-- The number of last responses that were sent off. -/
def sentOff (s : System) : Nat :=
  s.contexts.countP (·.finished)

/-- The time after which the time of a session was up. -/
def timedOut? (s : System) (i : SessionId) : Option Nat :=
  s.sessions[i]?.bind (·.timedOut)

/-- Whether nothing can go on: no process is awake, and none waits for anything but more tasks. -/
def IsSettled (s : System) : Prop :=
  s.ready = [] ∧ s.aside = [] ∧ ∀ x ∈ s.processes, x.program.isPending = false

instance (s : System) : Decidable s.IsSettled :=
  inferInstanceAs (Decidable (_ ∧ _ ∧ _))

end System

/-! ### Steps -/

/-- The program of a process after its turn. -/
def Turn.program : Turn Program → Program
  | .go program | .wait program => program
  | .done result => .finished (some result)

/-- A step of a process. -/
structure Step where
  before : System
  program : Program
  after : System
  /-- What it led to; nothing if the process was stopped. -/
  turn : Option (Turn Program)

namespace Step

/-- The program after the step. -/
def next (x : Step) : Program :=
  (x.turn.map Turn.program).getD (.finished none)

/-- Whether the process neither waits nor has ended after the step. -/
def goesOn (x : Step) : Bool :=
  match x.turn with
  | some (.go _) => true
  | _ => false

/-- The number of last responses with which the process waits. -/
def held (p : Program) : Nat :=
  p.answer?.toList.length

/-- Whether no last response gets lost: those that were sent off in the step or with which the process
waited are in the queue ahead of the order to close, or the process waits with them. -/
def keepsAnswers (c : ChannelId) (x : Step) : Prop :=
  (Sent.answers (Sent.ahead (x.before.sentOver c))).length + held x.program + (x.after.sentOff - x.before.sentOff) ≤
    (Sent.answers (Sent.ahead (x.after.sentOver c))).length + held x.next

/-- Whether a process that is to close the channel goes on with it or has done it. -/
def keepsClosing (c : ChannelId) (x : Step) : Prop :=
  x.program.owesClose = true → x.next.owesClose = true ∨ Sent.close ∈ x.after.sentOver c

instance (c : ChannelId) (x : Step) : Decidable (x.keepsAnswers c) :=
  inferInstanceAs (Decidable (_ ≤ _))

instance (c : ChannelId) (x : Step) : Decidable (x.keepsClosing c) :=
  inferInstanceAs (Decidable (_ → _ ∨ _))

/-- Whether the last response that is sent off in the step is in the queue at once. -/
def IsPrompt (c : ChannelId) (x : Step) : Prop :=
  x.next.answer? = none ∧
    x.after.sentOff - x.before.sentOff ≤
      (Sent.answers (x.after.sentOver c)).length - (Sent.answers (x.before.sentOver c)).length

instance (c : ChannelId) (x : Step) : Decidable (x.IsPrompt c) :=
  decidable_of_iff (x.next.answer?.isNone = true ∧ _) (and_congr_left' Option.isNone_iff_eq_none)

/-- Whether the time of a session is up with the step. -/
def expires (i : SessionId) (x : Step) : Bool :=
  (x.before.timedOut? i).isNone && (x.after.timedOut? i).isSome

/-- The tasks for which no last response was sent off when the time of a session was up. -/
def due (i : SessionId) (accepted : List Task) (steps : List Step) : List Task :=
  match steps.find? (expires i) with
  | some x => accepted.filter fun t => x.before.isOpen t.context
  | none => []

/-- The tasks for which one was. -/
def done (i : SessionId) (accepted : List Task) (steps : List Step) : List Task :=
  match steps.find? (expires i) with
  | some x => accepted.filter fun t => !x.before.isOpen t.context
  | none => accepted

/-- The handlers that were started. -/
def started (x : Step) : List (ProcessId × ContextId) :=
  (x.after.processes.zipIdx.drop x.before.processes.length).filterMap fun (y, p) =>
    match y.program with
    | .handler k _ => some (p, k)
    | _ => none

end Step

namespace System

/-- The steps of a process until it waits or ends, at most so many. -/
def stepsOf (p : ProcessId) : (steps : Nat) → System → List Step
  | 0, _ => []
  | steps + 1, s =>
    match s.program? p with
    | none => []
    | some program =>
      match s.step p program with
      | (s', .go next) => ⟨s, program, s', some (.go next)⟩ :: stepsOf p steps (s'.setProgram p next)
      | (s', turn) => [⟨s, program, s', some turn⟩]

/-- A turn of a process, of at most so many steps and with some allowance, and the steps that it takes. -/
def turn (s : System) (p : ProcessId) (allowance steps : Nat) : System × List Step :=
  match s.processes[p]? with
  | none => (s, [])
  | some x =>
    if x.program.isFinished then (s, [])
    else if x.cancelled then (s.cancel p x.program, [⟨s, x.program, s.cancel p x.program, none⟩])
    else (run p steps { s with allowance }, stepsOf p steps { s with allowance })

/-- The turns that processes are given are turns of this kind. -/
lemma poll_eq (s : System) (p : ProcessId) : s.poll p = (s.turn p turnAllowance quantum).1 := by
  rw [poll, turn]
  cases s.processes[p]? with
  | none => rfl
  | some x =>
    dsimp only
    split
    · rfl
    · split <;> rfl

end System

/-! ### Moves -/

/-- What can happen to a server with one session. -/
inductive Move where
  /-- A request is submitted to the session. -/
  | submit (r : Request)
  /-- Somebody declares that the time of the session or of the task in it is up. -/
  | timeout (elapsed : Nat) (ofSession : Bool)
  /-- The session is to accept nothing more. -/
  | close
  /-- A process has its turn, of at most so many steps after the first one. -/
  | turn (p : ProcessId) (allowance more : Nat)
  /-- The processes that were set aside come back. -/
  | bringBack
  /-- The timers reach a time. -/
  | ring (now : Nat)
  /-- The clock on which the patience of senders is measured reaches a time. -/
  | wait (wall : Nat)
  /-- Somebody else has a frame for the channel. -/
  | traffic (f : OutboundFrame)
  /-- The transport stalls, goes on or changes in any other way. -/
  | transport (f : Transport → Transport)

/-- How a session is opened. -/
inductive Opening where
  /-- For one task. -/
  | single (name : String)
  /-- For many tasks, of which so many may wait. -/
  | multi (name : String) (limit : Nat)
  /-- The same, with the watch over its lifetime. -/
  | watched (name : String) (limit : Nat)

/-- The session of the server. -/
def Opening.session : SessionId := 0

/-- The channel of the server. -/
def Opening.channel : ChannelId := 0

/-- How many tasks may wait in the session, if it is for many. -/
def Opening.limit? : Opening → Option Nat
  | single _ => none
  | multi _ limit | watched _ limit => some (max limit 1)

open Opening (session channel)

/-- A server with one channel and one session. -/
def Opening.start (service : Service) (transport : Transport) (o : Opening) : System :=
  let s := (System.openChannel { service } transport).1
  match o with
  | single name => (s.openSingle name channel).1
  | multi name limit => (s.openMulti name channel limit).1
  | watched name limit => (s.openMulti name channel limit).1.armLifetime session

/-- The history of the session. -/
structure Chronicle where
  system : System
  /-- The tasks that the session accepted, in order. -/
  accepted : List Task := []
  /-- The steps taken, in order. -/
  steps : List Step := []
  /-- Whether no turn was cut short: each went on until its process waited or ended. -/
  isWhole : Bool := true

namespace Chronicle

/-- The chronicle after a move. -/
def next (h : Chronicle) : Move → Chronicle
  | .submit r =>
    let (s, t) := h.system.makeTask r channel
    match s.submitTask session t with
    | (s, .ok true) => { h with system := s, accepted := h.accepted ++ [t] }
    | (s, _) => { h with system := s }
  | .timeout elapsed ofSession => { h with system := (h.system.spawn (.timeout session elapsed ofSession .start)).1 }
  | .close => { h with system := h.system.closeMulti session }
  | .turn p allowance more =>
    let (s, taken) := { h.system with ready := h.system.ready.erase p }.turn p allowance (more + 1)
    { h with
      system := s, steps := h.steps ++ taken
      isWhole := h.isWhole && !taken.getLast?.any Step.goesOn }
  | .bringBack => { h with system := h.system.bringBack }
  | .ring now => { h with system := h.system.ring now }
  | .wait wall => { h with system := { h.system with wall } }
  | .traffic f => { h with system := (h.system.spawn (.delivery channel (.parcel (.raw f)) .start)).1 }
  | .transport f => { h with system := h.system.onTransport channel f }

/-- The chronicle after moves. -/
def play (h : Chronicle) (moves : List Move) : Chronicle :=
  moves.foldl next h

/-- The handlers that were started, in order. -/
def started (h : Chronicle) : List (ProcessId × ContextId) :=
  h.steps.flatMap Step.started

/-- The accepted tasks for which no last response was sent off when the time of the session was up. -/
def due (h : Chronicle) : List Task :=
  Step.due session h.accepted h.steps

/-- The accepted tasks for which one was. -/
def done (h : Chronicle) : List Task :=
  Step.done session h.accepted h.steps

/-- No step has lost a last response, and no process that was to close the channel gave up. -/
def IsIntact (h : Chronicle) : Prop :=
  ∀ x ∈ h.steps, x.keepsAnswers channel ∧ x.keepsClosing channel

instance (h : Chronicle) : Decidable h.IsIntact :=
  inferInstanceAs (Decidable (∀ x ∈ h.steps, _ ∧ _))

/-- Everybody is answered by the end of the session: the order to close is in the queue, and ahead of it are
the last responses to all accepted tasks, one to each, which tell of the timeout where none had been sent
off before it. -/
def EverybodyAnswered (h : Chronicle) (elapsed : Nat) : Prop :=
  Sent.close ∈ h.system.sentOver channel ∧
    ∃ earlier : List Response,
      (Sent.answers (Sent.ahead (h.system.sentOver channel))).Perm
        (earlier ++ h.due.map fun t => System.timeoutResponse elapsed true t.request.id) ∧
      (earlier.map (·.request)).Perm (h.done.map fun t => some t.request.id)

/-- The accepted tasks are executed and answered one after the other, and at most so many wait. -/
structure InTurn (h : Chronicle) (limit : Nat) : Prop where
  nodup : (h.accepted.map (·.context)).Nodup
  /-- Handlers are started in the order in which their tasks were accepted. -/
  started : h.started.map (·.2) <+: h.accepted.map (·.context)
  /-- Only the handler that was started last takes steps. -/
  polled : ∀ before x after k point, h.steps = before ++ x :: after → x.program = .handler k point →
    x.turn.isSome = true → (before.flatMap Step.started).getLast?.map (·.2) = some k
  /-- Last responses are put into the queue in that order, one for each task. -/
  answered : (Sent.answers (h.system.sentOver channel)).map (·.request) <+: h.accepted.map (some ·.request.id)
  /-- When nothing goes on any more, all tasks have theirs. -/
  settled : h.system.IsSettled →
    (Sent.answers (h.system.sentOver channel)).map (·.request) = h.accepted.map (some ·.request.id)
  waiting : ∃ n, h.system.sessions[session]?.bind (·.queued?) = some n ∧ n ≤ limit

end Chronicle

end GraphServer
