import GraphServer.Outbound.Channel

/-!
Sessions: where tasks are executed one after the other.

A session runs one task and is done, or it has a backlog of tasks that a worker runs in order. It is
bound to a channel. It stops accepting tasks when it has what it wants, when it is closed and when its
time is up, and it is terminated once nothing more will run in it.
-/

namespace GraphServer

/-- Names the context in which a request is answered. -/
abbrev ContextId := Nat

/-- Names a session. -/
abbrev SessionId := Nat

/-- A request to be executed and the context in which it is answered. -/
structure Task where
  request : Request
  context : ContextId

/-- The task that is being executed: its context and the process of its handler. -/
structure InFlight where
  context : ContextId
  handler : ProcessId
  deriving DecidableEq, Repr

/-- The tasks that wait in a session. -/
structure Backlog where
  tasks : List Task := []
  /-- How many tasks may wait; at least one. -/
  limit : Nat
  /-- Whether the worker was notified since it last waited. -/
  notified : Bool := false

/-- Why a task does not begin. -/
inductive Refusal where
  /-- The time of the session was up after so many milliseconds. -/
  | timedOut (elapsed : Nat)
  /-- The session was killed. -/
  | killed
  deriving DecidableEq, Repr

/-- A session. -/
structure Session where
  name : String
  channel : ChannelId
  accepting : Bool := true
  terminated : Bool := false
  inFlight : Option InFlight := none
  /-- When its time was up, after how many milliseconds. -/
  timedOut : Option Nat := none
  killed : Bool := false
  /-- The process that ends the session when its time is up. -/
  cancelFuture : Option ProcessId := none
  /-- The process that executes its tasks. -/
  future : Option ProcessId := none
  /-- The tasks that wait, unless the session is for one task only. -/
  backlog : Option Backlog := none

namespace Session

/-- The number of tasks that wait, in a session that is for many. -/
def queued? (s : Session) : Option Nat :=
  s.backlog.map (·.tasks.length)

/-- The session in full detail. -/
def detail (s : Session) : String :=
  let kind := if s.backlog.isSome then "multi" else "single"
  s!"Session \x7b id: {Quoted.encode s.name}, kind: {Quoted.encode kind}, accepting: {s.accepting} \x7d"

/-! ### Hooks -/

/-- The process in a hook. -/
def hook? (s : Session) : SessionHook → Option ProcessId
  | .future => s.future
  | .cancelFuture => s.cancelFuture

/-- Fills a hook, unless it is filled. -/
def setHook (s : Session) (hook : SessionHook) (p : ProcessId) : Except Error Session :=
  match s.hook? hook with
  | some _ => .error (.hookAlreadySet hook)
  | none =>
    match hook with
    | .future => .ok { s with future := some p }
    | .cancelFuture => .ok { s with cancelFuture := some p }

theorem setHook_eq_ok {s s' : Session} {hook : SessionHook} {p : ProcessId} (h : s.setHook hook p = .ok s') :
    ∃ future cancelFuture, s' = { s with future, cancelFuture } := by
  rw [setHook.eq_def] at h
  split at h
  next => cases h
  next => cases hook <;> cases h <;> exact ⟨_, _, rfl⟩

/-- Filling a hook changes nothing but the hooks. -/
theorem setHook_getD (s : Session) (hook : SessionHook) (p : ProcessId) :
    ∃ future cancelFuture, (s.setHook hook p).toOption.getD s = { s with future, cancelFuture } := by
  cases h : s.setHook hook p with
  | error e => exact ⟨s.future, s.cancelFuture, rfl⟩
  | ok s' => exact setHook_eq_ok h

/-! ### One task -/

/-- Begins a task, unless the session is over. -/
def begin (s : Session) (f : InFlight) : Except Refusal Session :=
  if s.killed then .error .killed
  else
    match s.timedOut with
    | some elapsed => .error (.timedOut elapsed)
    | none => .ok { s with inFlight := some f }

theorem begin_of_killed {s : Session} (killed : s.killed = true) (f : InFlight) : s.begin f = .error .killed := by
  rw [begin, killed]
  rfl

theorem begin_of_timedOut {s : Session} {elapsed : Nat} (alive : s.killed = false) (late : s.timedOut = some elapsed)
    (f : InFlight) : s.begin f = .error (.timedOut elapsed) := by
  rw [begin, alive, late]
  rfl

theorem begin_of_inTime {s : Session} (alive : s.killed = false) (inTime : s.timedOut = none) (f : InFlight) :
    s.begin f = .ok { s with inFlight := some f } := by
  rw [begin, alive, inTime]
  rfl

theorem begin_eq_ok {s s' : Session} {f : InFlight} (h : s.begin f = .ok s') :
    s.killed = false ∧ s.timedOut = none ∧ s' = { s with inFlight := some f } := by
  rw [begin] at h
  split at h
  next => cases h
  next alive =>
    split at h
    next => cases h
    next inTime =>
      cases h
      exact ⟨Bool.eq_false_iff.mpr alive, inTime, rfl⟩

/-- Takes the task out of flight. -/
def takeInFlight (s : Session) : Option InFlight × Session :=
  (s.inFlight, { s with inFlight := none })

/-! ### The end of a session -/

/-- Accepts no more tasks. -/
def stopAccepting (s : Session) : Session :=
  { s with accepting := false }

/-- Marks that the time is up, unless it was before. -/
def expire? (s : Session) (elapsed : Nat) : Option Session :=
  match s.timedOut with
  | some _ => none
  | none => some { s with timedOut := some elapsed, accepting := false }

theorem expire?_of_timedOut {s : Session} {before : Nat} (late : s.timedOut = some before) (elapsed : Nat) :
    s.expire? elapsed = none := by
  rw [expire?, late]

theorem expire?_of_inTime {s : Session} (inTime : s.timedOut = none) (elapsed : Nat) :
    s.expire? elapsed = some { s with timedOut := some elapsed, accepting := false } := by
  rw [expire?, inTime]

theorem expire?_eq_some {s s' : Session} {elapsed : Nat} (h : s.expire? elapsed = some s') :
    s.timedOut = none ∧ s' = { s with timedOut := some elapsed, accepting := false } := by
  rw [expire?] at h
  split at h
  next => cases h
  next inTime =>
    cases h
    exact ⟨inTime, rfl⟩

/-- Marks that nothing more will run. -/
def finish (s : Session) : Session :=
  { s with accepting := false, terminated := true }

/-- Forgets all tasks and begins none any more. -/
def kill (s : Session) : Session :=
  { s with
    accepting := false, terminated := true, killed := true, inFlight := none
    backlog := s.backlog.map fun b => { b with tasks := [] } }

/-! ### The backlog -/

/-- What submitting a task to a backlog leads to. -/
def enqueue (s : Session) (b : Backlog) (t : Task) : Except Error Session :=
  if b.limit ≤ b.tasks.length then .error (.rejected (.queueFull s.name b.tasks.length))
  else .ok { s with backlog := some { b with tasks := b.tasks ++ [t] } }

theorem enqueue_of_full {s : Session} {b : Backlog} (full : b.limit ≤ b.tasks.length) (t : Task) :
    s.enqueue b t = .error (.rejected (.queueFull s.name b.tasks.length)) :=
  if_pos full

theorem enqueue_of_room {s : Session} {b : Backlog} (room : b.tasks.length < b.limit) (t : Task) :
    s.enqueue b t = .ok { s with backlog := some { b with tasks := b.tasks ++ [t] } } :=
  if_neg (Nat.not_le.mpr room)

theorem enqueue_eq_ok {s s' : Session} {b : Backlog} {t : Task} (h : s.enqueue b t = .ok s') :
    b.tasks.length < b.limit ∧ s' = { s with backlog := some { b with tasks := b.tasks ++ [t] } } := by
  rw [enqueue] at h
  split at h
  next => cases h
  next room =>
    cases h
    exact ⟨Nat.not_le.mp room, rfl⟩

/-- Takes the first task that waits. -/
def dequeue? (s : Session) : Option (Task × Session) :=
  match s.backlog with
  | some b =>
    match b.tasks with
    | t :: rest => some (t, { s with backlog := some { b with tasks := rest } })
    | [] => none
  | none => none

theorem dequeue?_eq_some {s s' : Session} {t : Task} (h : s.dequeue? = some (t, s')) :
    ∃ (b : Backlog) (rest : List Task), s.backlog = some b ∧ b.tasks = t :: rest ∧
      s' = { s with backlog := some { b with tasks := rest } } := by
  rw [dequeue?] at h
  cases hb : s.backlog with
  | none =>
    rw [hb] at h
    cases h
  | some b =>
    rw [hb] at h
    dsimp only at h
    cases ht : b.tasks with
    | nil =>
      rw [ht] at h
      cases h
    | cons u rest =>
      rw [ht] at h
      cases h
      exact ⟨b, rest, rfl, ht, rfl⟩

/-- Takes all tasks that wait. -/
def drain (s : Session) : List Task × Session :=
  match s.backlog with
  | some b => (b.tasks, { s with backlog := some { b with tasks := [] } })
  | none => ([], s)

theorem drain_fst (s : Session) : s.drain.1 = (s.backlog.map (·.tasks)).getD [] := by
  rw [drain]
  cases s.backlog <;> rfl

theorem drain_snd (s : Session) : s.drain.2 = { s with backlog := s.backlog.map fun b => { b with tasks := [] } } := by
  rw [drain]
  split
  next b hb => rw [hb, Option.map_some]
  next hb =>
    cases s
    cases hb
    rfl

/-- Sets whether the worker was notified. -/
def setNotified (s : Session) (notified : Bool) : Session :=
  { s with backlog := s.backlog.map fun b => { b with notified } }

/-- Whether the worker was notified since it last waited. -/
def isNotified (s : Session) : Bool :=
  match s.backlog with
  | some b => b.notified
  | none => false

end Session

end GraphServer
