import GraphServer.System.Turn

/-!
The execution of tasks: one task under its time limit, the only task of a session, and the tasks of a
session one after the other.

A task begins by starting its handler and taking its session. While the handler runs, the execution
waits for it; when the time of the task is over first, the handler is stopped and the request is answered
for it. When the handler has returned, the request is answered unless the handler did so.
-/

namespace GraphServer.System

/-! ### One task -/

/-- Answers for the handler of the task in flight, which is stopped. -/
def interrupt (s : System) (p : ProcessId) (i : SessionId) (elapsed : Nat) (ofSession : Bool) :
    System × Transit :=
  match s.sessions[i]? with
  | none => (s, .done (.ok ()))
  | some x =>
    match x.inFlight with
    | none => (s, .done (.ok ()))
    | some f =>
      let s := s.onSession i fun x => { x with inFlight := none }
      (s.abort f.handler).replyTimeout p f.context elapsed ofSession

/-- The last turn of an execution, which ends whatever becomes of its parcel. -/
def lastWords (x : System × Transit) : System × Turn RunPoint :=
  Transit.turn x (fun _ => .over) .sending

/-- The last response for a handler that returned without one. -/
def concluding (result : Except Error Unit) (request : Uuid) : Response :=
  match result with
  | .ok () => { request, status := .noContent }
  | .error e => .ofError request e

/-- What passes a deadline passes one that is there, and whose time has come. -/
theorem spendAt?_of_deadline {s s' : System} {deadline : Option Deadline} {budget : Nat}
    (h : (deadline.bind fun d => (s.spendAt? d.due).map (·, d.budget)) = some (s', budget)) :
    ∃ d, deadline = some d ∧ s.spendAt? d.due = some s' ∧ d.budget = budget := by
  obtain ⟨d, hd, h⟩ := Option.bind_eq_some_iff.mp h
  obtain ⟨_, hs, h⟩ := Option.map_eq_some_iff.mp h
  cases h
  exact ⟨d, hd, hs, rfl⟩

/-- A step of the execution of a task. -/
def stepRun (s : System) (p : ProcessId) (i : SessionId) : RunPoint → System × Turn RunPoint
  | .start t =>
    match s.sessions[i]? with
    | none => (s, .go .over)
    | some x =>
      let (s, handler) := s.spawn (.handler t.context (.ready (s.service.ops.handlerOf t.request)))
      match x.begin ⟨t.context, handler⟩ with
      | .ok x =>
        let deadline := (t.request.budget s.service.settings.evaluationTimeout).map fun budget =>
          (⟨budget, s.now + budget⟩ : Deadline)
        (s.onSession i fun _ => x, .go (.joining t handler deadline))
      | .error .killed => (s.abort handler, .go .over)
      | .error (.timedOut elapsed) =>
        lastWords ((s.abort handler).replyTimeout p t.context elapsed true)
  | .joining t handler deadline =>
    match s.result? handler, s.spend? with
    | some result, some s =>
      let s := s.onSession i fun x => { x with inFlight := none }
      match result with
      | none => (s, .go .over)
      | some result => lastWords (s.tryFinish p t.context (concluding result))
    | some _, none => (s, .wait (.joining t handler deadline))
    | none, _ =>
      match deadline.bind fun d => (s.spendAt? d.due).map (·, d.budget) with
      | some (s, budget) => lastWords (s.interrupt p i budget false)
      | none => (s, .wait (.joining t handler deadline))
  | .sending h => lastWords (s.resume p h)
  | .over => (s, .done (.ok ()))

/-! ### The tasks of a session -/

/-- Stops the process that watches the time of a session. -/
def disarm (s : System) (i : SessionId) : System :=
  s.abortAll (s.sessions[i]?.bind (·.cancelFuture)).toList

/-- Ends a session in which nothing more will run. -/
def finishSession (s : System) (i : SessionId) : System :=
  (s.onSession i Session.finish).disarm i

/-- A step of the only task of a session. -/
def stepSingle (s : System) (p : ProcessId) (i : SessionId) : RunPoint → System × Turn RunPoint
  | .over => (s.finishSession i, .done (.ok ()))
  | point => s.stepRun p i point

/-- A step of the worker of a session. -/
def stepWorker (s : System) (p : ProcessId) (i : SessionId) : WorkerPoint → System × Turn WorkerPoint
  | .choosing =>
    match s.sessions[i]? with
    | none => (s, .done (.ok ()))
    | some x =>
      match x.dequeue? with
      | some (t, x) => (s.onSession i fun _ => x, .go (.running (.start t)))
      | none => if x.accepting then (s, .go .resting) else (s.finishSession i, .done (.ok ()))
  | .resting =>
    if s.sessions[i]?.any (·.isNotified) then
      (s.onSession i (·.setNotified false), .go .choosing)
    else (s, .wait .resting)
  | .running .over => (s, .go .choosing)
  | .running point =>
    let (s, turn) := s.stepRun p i point
    (s, turn.map .running)

end GraphServer.System
