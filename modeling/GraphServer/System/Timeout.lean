import GraphServer.System.Execution

/-!
What happens when a time is up.

When the time of a task is up by decision of somebody else, its handler is stopped and its request is
answered; the session goes on. When the time of a session is up, it accepts nothing more, the task in
flight and then all that wait are answered, and its channel is closed. That happens once; the process
that watched the time is stopped after it.
-/

namespace GraphServer.System

/-- Notifies the worker of a session. -/
def notify (s : System) (i : SessionId) : System :=
  let s := s.onSession i (·.setNotified true)
  match s.sessions[i]?.bind (·.future) with
  | some worker => s.wakeIf worker (·.isResting)
  | none => s

/-- The turn of a process that answers a request and goes on whatever becomes of its parcel. -/
def answerThen (x : System × Transit) (next : TimeoutPoint) : System × Turn TimeoutPoint :=
  Transit.turn x (fun _ => next) (.sending · next)

/-- A step of the end of the time of a session or of the task in it. -/
def stepTimeout (s : System) (p : ProcessId) (i : SessionId) (elapsed : Nat) (ofSession : Bool) :
    TimeoutPoint → System × Turn TimeoutPoint
  | .start =>
    if ofSession then
      match s.sessions[i]?.bind (·.expire? elapsed) with
      | none => (s, .go .over)
      | some x => answerThen ((s.onSession i fun _ => x).interrupt p i elapsed true) .draining
    else answerThen (s.interrupt p i elapsed false) .over
  | .draining =>
    match s.sessions[i]? with
    | none => (s, .go .over)
    | some x => (s.onSession i fun _ => x.drain.2, .go (.answering x.drain.1))
  | .answering (t :: rest) =>
    answerThen (s.replyTimeout p t.context elapsed true) (.answering rest)
  | .answering [] => (s.notify i, .go .closing)
  | .closing =>
    match s.sessions[i]? with
    | none => (s, .go .over)
    | some x => answerThen (s.closeChannel p x.channel) .disarming
  | .disarming => (s.disarm i, .go .over)
  | .sending h next => answerThen (s.resume p h) next
  | .over => (s, .done (.ok ()))

/-- A step of the watch over the lifetime of a session, which leads to the end of its time. -/
def stepLifetime (s : System) (i : SessionId) (milliseconds : Nat) (due : Option Nat) :
    System × Turn Program :=
  match due with
  | none => (s, .go (.lifetime i milliseconds (some (s.now + milliseconds))))
  | some due =>
    match s.spendAt? due with
    | some s => (s, .go (.timeout i milliseconds true .start))
    | none => (s, .wait (.lifetime i milliseconds (some due)))

end GraphServer.System
