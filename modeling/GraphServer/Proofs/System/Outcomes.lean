import GraphServer.Proofs.System.Stirring

/-!
What a step of a handler, of the execution of tasks, or of the end of a time, can come to.

* `System.AbortOutcome`, `System.InterruptOutcome`: stopping a process, and interrupting the task in flight;
* `System.CallOutcome`, `System.FinishOutcome`, `System.HandlerOutcome`: a call of a handler, the last response to a
  request, and a step of a handler;
* `System.RunOutcome`, `System.SingleOutcome`, `System.WorkerOutcome`: the execution of one task, of the only task of a
  session and of its tasks one after the other;
* `System.TimeoutOutcome`, `System.LifetimeOutcome`: the end of a time, and the watch over the lifetime of a session;
* `System.stepRun_outcome` and its kin: **each step has one of these outcomes**, with what was found on the way to it.
-/

namespace GraphServer

lemma Transit.turn_wait {α : Type} {x : System × Transit} {next : Except Error Unit → α} {waiting : Handover → α} {a : α}
    (h : (Transit.turn x next waiting).2 = .wait a) : ∃ y, a = waiting y := by
  obtain ⟨s, r | y⟩ := x
  · cases h
  · cases h
    exact ⟨y, rfl⟩

lemma Turn.map_map {α β γ : Type} (turn : Turn α) (f : α → β) (g : β → γ) :
    (turn.map f).map g = turn.map fun a => g (f a) := by
  cases turn <;> rfl

lemma Turn.map_eq_wait {α β : Type} {turn : Turn α} {f : α → β} {b : β} (h : turn.map f = .wait b) :
    ∃ a, turn = .wait a ∧ f a = b := by
  cases turn with
  | wait a =>
    cases h
    exact ⟨a, rfl, rfl⟩
  | _ => cases h

namespace System

variable {s s' : System} {p : ProcessId} {i : SessionId}

/-! ### Results and allowances -/

lemma result?_eq_some {result : Option (Except Error Unit)} :
    s.result? p = some result ↔ s.program? p = some (.finished result) := by
  rw [result?]
  constructor
  · intro h
    split at h
    next known =>
      cases h
      exact known
    next => cases h
  · intro h
    rw [h]

lemma result?_eq_none : s.result? p = none ↔ ∀ result, s.program? p ≠ some (.finished result) := by
  rw [Option.eq_none_iff_forall_ne_some]
  exact forall_congr' fun result => not_congr result?_eq_some

lemma allowance_of_spend? (h : s.spend? = none) : s.allowance = 0 := by
  rw [spend?] at h
  split at h
  · assumption
  · cases h

/-- Who does not pass a time is ahead of it, or has used up its allowance. -/
lemma early_of_spendAt? {due : Nat} (h : s.spendAt? due = none) : s.allowance = 0 ∨ s.now < due := by
  rw [spendAt?] at h
  split at h
  · exact .inr ‹_›
  · exact .inl (allowance_of_spend? h)

/-- Time that is spent waiting until some time is spent when that time has come. -/
lemma le_now_of_spendAt? {due : Nat} (h : s.spendAt? due = some s') : due ≤ s.now := by
  rw [spendAt?] at h
  split at h
  · cases h
  next late => exact Nat.le_of_not_lt late

/-! ### Stopping -/

/-- What stopping a process comes to. -/
inductive AbortOutcome (s : System) (p : ProcessId) : System → Prop
  | spares (idle : ∀ P, s.program? p = some P → P.isFinished = true) : AbortOutcome s p s
  | stops {P : Program} (known : s.program? p = some P) (unfinished : P.isFinished = false) :
    AbortOutcome s p ((s.onProcess p fun x => { x with cancelled := true }).wake p)

lemma abort_outcome (s : System) (p : ProcessId) : s.AbortOutcome p (s.abort p) := by
  rw [abort]
  split
  next unknown => exact .spares fun P known => by cases unknown.symm.trans known
  next result ended =>
    refine .spares fun P known => ?_
    cases ended.symm.trans known
    rfl
  next P unfinished known =>
    refine .stops known ?_
    cases P with
    | finished result => exact absurd rfl (unfinished result)
    | _ => rfl

/-- What interrupting the task in flight comes to. -/
inductive InterruptOutcome (s : System) (p : ProcessId) (i : SessionId) (elapsed : Nat) (ofSession : Bool) :
    System × Transit → Prop
  | rests (idle : s.sessions[i]?.bind (·.inFlight) = none) :
    InterruptOutcome s p i elapsed ofSession (s, .done (.ok ()))
  | stops {x : Session} {f : InFlight} (known : s.sessions[i]? = some x) (flies : x.inFlight = some f) :
    InterruptOutcome s p i elapsed ofSession
      (((s.onSession i fun x => { x with inFlight := none }).abort f.handler).replyTimeout p f.context elapsed ofSession)

lemma interrupt_outcome (s : System) (p : ProcessId) (i : SessionId) (elapsed : Nat) (ofSession : Bool) :
    s.InterruptOutcome p i elapsed ofSession (s.interrupt p i elapsed ofSession) := by
  rw [interrupt]
  split
  next unknown => exact .rests (by rw [unknown, Option.bind_none])
  next x known =>
    split
    next idle => exact .rests (by rw [known, Option.bind_some, idle])
    next f flies => exact .stops known flies

/-! ### Handlers -/

/-- Marks a context as answered. -/
def conclude (s : System) (k : ContextId) : System :=
  s.onContext k fun x => { x with finished := true }

/-- What a call of a handler comes to. -/
inductive CallOutcome (s : System) (p : ProcessId) (k : ContextId) (call : Call) : System × Transit → Prop
  | strays (unknown : s.contexts[k]? = none) : CallOutcome s p k call (s, .done (.error .connectionClosed))
  | late {y : TaskContext} (known : s.contexts[k]? = some y) (finished : y.finished = true) :
    CallOutcome s p k call (s, .done (.error (.protocol (.alreadyAnswered y.request))))
  | streams {y : TaskContext} (known : s.contexts[k]? = some y) (unfinished : y.finished = false)
    (streaming : call.isTerminal = false) : CallOutcome s p k call (s.sendFor p y (call.response y.request))
  | concludes {y : TaskContext} (known : s.contexts[k]? = some y) (unfinished : y.finished = false)
    (terminal : call.isTerminal = true) : CallOutcome s p k call ((s.conclude k).sendFor p y (call.response y.request))

lemma call_outcome (s : System) (p : ProcessId) (k : ContextId) (call : Call) :
    s.CallOutcome p k call (s.call p k call) := by
  rw [System.call]
  split
  next unknown => exact .strays unknown
  next y known =>
    split
    next finished => exact .late known finished
    next unfinished =>
      rw [Bool.not_eq_true] at unfinished
      cases terminal : call.isTerminal with
      | true => exact .concludes known unfinished terminal
      | false => exact .streams known unfinished terminal

/-- What sending the last response to a request comes to. -/
inductive FinishOutcome (s : System) (p : ProcessId) (k : ContextId) (r : Uuid → Response) : System × Transit → Prop
  | strays (unknown : s.contexts[k]? = none) : FinishOutcome s p k r (s, .done (.ok ()))
  | late {y : TaskContext} (known : s.contexts[k]? = some y) (finished : y.finished = true) :
    FinishOutcome s p k r (s, .done (.ok ()))
  | concludes {y : TaskContext} (known : s.contexts[k]? = some y) (unfinished : y.finished = false) :
    FinishOutcome s p k r ((s.conclude k).sendFor p y (r y.request))

lemma tryFinish_outcome (s : System) (p : ProcessId) (k : ContextId) (r : Uuid → Response) :
    s.FinishOutcome p k r (s.tryFinish p k r) := by
  rw [tryFinish]
  split
  next unknown => exact .strays unknown
  next y known =>
    split
    next finished => exact .late known finished
    next unfinished => exact .concludes known (Bool.not_eq_true _ ▸ unfinished)

/-- What a step of a handler comes to. -/
inductive HandlerOutcome (s : System) (p : ProcessId) (k : ContextId) :
    HandlerPoint → System × Turn HandlerPoint → Prop
  | returns {result : Except Error Unit} : HandlerOutcome s p k (.ready (.return result)) (s, .done result)
  | calls {call : Call} {next : Except Error Unit → Handler} :
    HandlerOutcome s p k (.ready (.call call next))
      (Transit.turn (s.call p k call) (fun r => .ready (next r)) (.calling · next))
  | sleeps {milliseconds : Nat} {next : Handler} :
    HandlerOutcome s p k (.ready (.sleep milliseconds next)) (s, .go (.sleeping (s.now + milliseconds) next))
  | resumes {h : Handover} {next : Except Error Unit → Handler} :
    HandlerOutcome s p k (.calling h next) (Transit.turn (s.resume p h) (fun r => .ready (next r)) (.calling · next))
  | wakes {due : Nat} {next : Handler} {s' : System} (spent : s.spendAt? due = some s') :
    HandlerOutcome s p k (.sleeping due next) (s', .go (.ready next))
  | waits {due : Nat} {next : Handler} (rests : s.allowance = 0 ∨ s.now < due) :
    HandlerOutcome s p k (.sleeping due next) (s, .wait (.sleeping due next))

lemma stepHandler_outcome (s : System) (p : ProcessId) (k : ContextId) (point : HandlerPoint) :
    s.HandlerOutcome p k point (s.stepHandler p k point) := by
  cases point with
  | ready h =>
    cases h with
    | «return» result => exact .returns
    | call call next => exact .calls
    | sleep milliseconds next => exact .sleeps
  | calling h next => exact .resumes
  | sleeping due next =>
    rw [stepHandler]
    split
    next spent => exact .wakes spent
    next early => exact .waits (early_of_spendAt? early)

/-! ### The execution of tasks -/

lemma lastWords_fst (x : System × Transit) : (lastWords x).1 = x.1 :=
  Transit.turn_fst ..

/-- The server with the handler of a task started. -/
def launch (s : System) (t : Task) : System :=
  (s.spawn (.handler t.context (.ready (s.service.ops.handlerOf t.request)))).1

/-- The time limit of a task that begins now. -/
def limitOf (s : System) (t : Task) : Option Deadline :=
  (t.request.budget s.service.settings.evaluationTimeout).map fun budget => ⟨budget, s.now + budget⟩

lemma launch_sessions (s : System) (t : Task) : (s.launch t).sessions = s.sessions := by
  rw [launch, spawn]
  dsimp only
  rw [wake]
  split <;> rfl

lemma limitOf_launch (s : System) (t : Task) : (s.launch t).limitOf t = s.limitOf t := by
  rw [launch, spawn]
  dsimp only
  rw [wake]
  split <;> rfl

/-- What a step of the execution of a task comes to. -/
inductive RunOutcome (s : System) (p : ProcessId) (i : SessionId) : RunPoint → System × Turn RunPoint → Prop
  | strays {t : Task} (unknown : s.sessions[i]? = none) : RunOutcome s p i (.start t) (s, .go .over)
  | begins {t : Task} {x : Session} (known : s.sessions[i]? = some x) (alive : x.killed = false)
    (inTime : x.timedOut = none) :
    RunOutcome s p i (.start t)
      ((s.launch t).onSession i fun _ => { x with inFlight := some ⟨t.context, s.processes.length⟩ },
        .go (.joining t s.processes.length (s.limitOf t)))
  | dies {t : Task} {x : Session} (known : s.sessions[i]? = some x) (killed : x.killed = true) :
    RunOutcome s p i (.start t) ((s.launch t).abort s.processes.length, .go .over)
  | refuses {t : Task} {x : Session} {elapsed : Nat} (known : s.sessions[i]? = some x) (alive : x.killed = false)
    (late : x.timedOut = some elapsed) :
    RunOutcome s p i (.start t)
      (lastWords (((s.launch t).abort s.processes.length).replyTimeout p t.context elapsed true))
  | stopped {t : Task} {h : ProcessId} {deadline : Option Deadline} {s' : System}
    (ended : s.program? h = some (.finished none)) (spent : s.spend? = some s') :
    RunOutcome s p i (.joining t h deadline) (s'.onSession i fun x => { x with inFlight := none }, .go .over)
  | returned {t : Task} {h : ProcessId} {deadline : Option Deadline} {result : Except Error Unit} {s' : System}
    (ended : s.program? h = some (.finished (some result))) (spent : s.spend? = some s') :
    RunOutcome s p i (.joining t h deadline)
      (lastWords ((s'.onSession i fun x => { x with inFlight := none }).tryFinish p t.context (concluding result)))
  | expires {t : Task} {h : ProcessId} {d : Deadline} {s' : System} (runs : s.result? h = none)
    (spent : s.spendAt? d.due = some s') :
    RunOutcome s p i (.joining t h (some d)) (lastWords (s'.interrupt p i d.budget false))
  | waits {t : Task} {h : ProcessId} {deadline : Option Deadline}
    (rests : s.allowance = 0 ∨ s.result? h = none ∧ ∀ d ∈ deadline, s.now < d.due) :
    RunOutcome s p i (.joining t h deadline) (s, .wait (.joining t h deadline))
  | resumes {h : Handover} : RunOutcome s p i (.sending h) (lastWords (s.resume p h))
  | leaves : RunOutcome s p i .over (s, .done (.ok ()))

lemma stepRun_outcome (s : System) (p : ProcessId) (i : SessionId) (point : RunPoint) :
    s.RunOutcome p i point (s.stepRun p i point) := by
  cases point with
  | start t =>
    rw [stepRun]
    split
    next unknown => exact .strays unknown
    next x known =>
      dsimp only
      cases killed : x.killed with
      | true =>
        rw [Session.begin_of_killed killed]
        exact .dies known killed
      | false =>
        cases late : x.timedOut with
        | some elapsed =>
          rw [Session.begin_of_timedOut killed late]
          exact .refuses known killed late
        | none =>
          rw [Session.begin_of_inTime killed late]
          have begins := RunOutcome.begins (p := p) (t := t) known killed late
          rw [← limitOf_launch] at begins
          exact begins
  | joining t h deadline =>
    rw [stepRun]
    split
    next result s' ended spent =>
      cases result with
      | none => exact .stopped (result?_eq_some.mp ended) spent
      | some result => exact .returned (result?_eq_some.mp ended) spent
    next spent => exact .waits (.inl (allowance_of_spend? spent))
    next runs =>
      split
      next s' budget hdue =>
        obtain ⟨d, rfl, spent, rfl⟩ := spendAt?_of_deadline hdue
        exact .expires runs spent
      next hdue =>
        refine .waits ?_
        cases deadline with
        | none => exact .inr ⟨runs, fun d hd => by cases hd⟩
        | some d =>
          rw [Option.bind_some, Option.map_eq_none_iff] at hdue
          refine (early_of_spendAt? hdue).imp_right fun early => ⟨runs, fun d' hd => ?_⟩
          cases hd
          exact early
  | sending h => exact .resumes
  | «over» => exact .leaves

lemma stepSingle_eq {point : RunPoint} (goes : point ≠ .over) : s.stepSingle p i point = s.stepRun p i point := by
  rw [stepSingle]
  exact goes

lemma stepWorker_eq {point : RunPoint} (goes : point ≠ .over) :
    s.stepWorker p i (.running point) = ((s.stepRun p i point).1, (s.stepRun p i point).2.map .running) := by
  rw [stepWorker]
  exact goes

/-- What a step of the only task of a session comes to. -/
inductive SingleOutcome (s : System) (p : ProcessId) (i : SessionId) : RunPoint → System × Turn RunPoint → Prop
  | ends : SingleOutcome s p i .over (s.finishSession i, .done (.ok ()))
  | runs {point : RunPoint} (goes : point ≠ .over) : SingleOutcome s p i point (s.stepRun p i point)

lemma stepSingle_outcome (s : System) (p : ProcessId) (i : SessionId) (point : RunPoint) :
    s.SingleOutcome p i point (s.stepSingle p i point) := by
  by_cases goes : point = .over
  · exact goes ▸ .ends
  · exact stepSingle_eq goes ▸ .runs goes

/-- What a step of the worker of a session comes to. -/
inductive WorkerOutcome (s : System) (p : ProcessId) (i : SessionId) : WorkerPoint → System × Turn WorkerPoint → Prop
  | strays (unknown : s.sessions[i]? = none) : WorkerOutcome s p i .choosing (s, .done (.ok ()))
  | takes {x x' : Session} {t : Task} (known : s.sessions[i]? = some x) (taken : x.dequeue? = some (t, x')) :
    WorkerOutcome s p i .choosing (s.onSession i fun _ => x', .go (.running (.start t)))
  | rests {x : Session} (known : s.sessions[i]? = some x) (empty : x.dequeue? = none) (accepting : x.accepting = true) :
    WorkerOutcome s p i .choosing (s, .go .resting)
  | ends {x : Session} (known : s.sessions[i]? = some x) (empty : x.dequeue? = none) (closed : x.accepting = false) :
    WorkerOutcome s p i .choosing (s.finishSession i, .done (.ok ()))
  | hears (notified : s.sessions[i]?.any (·.isNotified) = true) :
    WorkerOutcome s p i .resting (s.onSession i (·.setNotified false), .go .choosing)
  | waits (unnotified : s.sessions[i]?.any (·.isNotified) = false) : WorkerOutcome s p i .resting (s, .wait .resting)
  | leaves : WorkerOutcome s p i (.running .over) (s, .go .choosing)
  | runs {point : RunPoint} (goes : point ≠ .over) :
    WorkerOutcome s p i (.running point) ((s.stepRun p i point).1, (s.stepRun p i point).2.map .running)

lemma stepWorker_outcome (s : System) (p : ProcessId) (i : SessionId) (point : WorkerPoint) :
    s.WorkerOutcome p i point (s.stepWorker p i point) := by
  cases point with
  | choosing =>
    rw [stepWorker]
    split
    next unknown => exact .strays unknown
    next x known =>
      split
      next taken => exact .takes known taken
      next empty =>
        split
        next accepting => exact .rests known empty accepting
        next closed => exact .ends known empty (Bool.eq_false_iff.mpr closed)
  | resting =>
    rw [stepWorker]
    split
    next notified => exact .hears notified
    next unnotified => exact .waits (Bool.eq_false_iff.mpr unnotified)
  | running point =>
    by_cases goes : point = .over
    · exact goes ▸ .leaves
    · exact stepWorker_eq goes ▸ .runs goes

/-! ### The end of a time -/

/-- What a step of the end of a time comes to. -/
inductive TimeoutOutcome (s : System) (p : ProcessId) (i : SessionId) (elapsed : Nat) :
    Bool → TimeoutPoint → System × Turn TimeoutPoint → Prop
  | late {x : Session} {before : Nat} (known : s.sessions[i]? = some x) (late : x.timedOut = some before) :
    TimeoutOutcome s p i elapsed true .start (s, .go .over)
  | expires {x : Session} (known : s.sessions[i]? = some x) (inTime : x.timedOut = none) :
    TimeoutOutcome s p i elapsed true .start
      (answerThen ((s.onSession i fun _ => { x with timedOut := some elapsed, accepting := false }).interrupt p i elapsed
        true) .draining)
  | interrupts : TimeoutOutcome s p i elapsed false .start (answerThen (s.interrupt p i elapsed false) .over)
  | strays {ofSession : Bool} {point : TimeoutPoint}
    (visits : point = .start ∧ ofSession = true ∨ point = .draining ∨ point = .closing)
    (unknown : s.sessions[i]? = none) : TimeoutOutcome s p i elapsed ofSession point (s, .go .over)
  | drains {ofSession : Bool} {x : Session} (known : s.sessions[i]? = some x) :
    TimeoutOutcome s p i elapsed ofSession .draining (s.onSession i fun _ => x.drain.2, .go (.answering x.drain.1))
  | answers {ofSession : Bool} {t : Task} {rest : List Task} :
    TimeoutOutcome s p i elapsed ofSession (.answering (t :: rest))
      (answerThen (s.replyTimeout p t.context elapsed true) (.answering rest))
  | notifies {ofSession : Bool} : TimeoutOutcome s p i elapsed ofSession (.answering []) (s.notify i, .go .closing)
  | closes {ofSession : Bool} {x : Session} (known : s.sessions[i]? = some x) :
    TimeoutOutcome s p i elapsed ofSession .closing (answerThen (s.closeChannel p x.channel) .disarming)
  | disarms {ofSession : Bool} : TimeoutOutcome s p i elapsed ofSession .disarming (s.disarm i, .go .over)
  | resumes {ofSession : Bool} {h : Handover} {next : TimeoutPoint} :
    TimeoutOutcome s p i elapsed ofSession (.sending h next) (answerThen (s.resume p h) next)
  | leaves {ofSession : Bool} : TimeoutOutcome s p i elapsed ofSession .over (s, .done (.ok ()))

lemma stepTimeout_outcome (s : System) (p : ProcessId) (i : SessionId) (elapsed : Nat) (ofSession : Bool)
    (point : TimeoutPoint) :
    s.TimeoutOutcome p i elapsed ofSession point (s.stepTimeout p i elapsed ofSession point) := by
  cases point with
  | start =>
    rw [stepTimeout]
    cases ofSession with
    | false => exact .interrupts
    | true =>
      rw [if_pos rfl]
      cases known : s.sessions[i]? with
      | none => exact .strays (.inl ⟨rfl, rfl⟩) known
      | some x =>
        rw [Option.bind_some]
        cases late : x.timedOut with
        | some before =>
          rw [Session.expire?_of_timedOut late]
          exact .late known late
        | none =>
          rw [Session.expire?_of_inTime late]
          exact .expires known late
  | draining =>
    rw [stepTimeout]
    split
    next unknown => exact .strays (.inr (.inl rfl)) unknown
    next x known => exact .drains known
  | answering tasks =>
    cases tasks with
    | nil => exact .notifies
    | cons t rest => exact .answers
  | closing =>
    rw [stepTimeout]
    split
    next unknown => exact .strays (.inr (.inr rfl)) unknown
    next x known => exact .closes known
  | disarming => exact .disarms
  | sending h next => exact .resumes
  | «over» => exact .leaves

/-- What a step of the watch over the lifetime of a session comes to. -/
inductive LifetimeOutcome (s : System) (i : SessionId) (milliseconds : Nat) : Option Nat → System × Turn Program → Prop
  | sets : LifetimeOutcome s i milliseconds none (s, .go (.lifetime i milliseconds (some (s.now + milliseconds))))
  | rings {due : Nat} {s' : System} (spent : s.spendAt? due = some s') :
    LifetimeOutcome s i milliseconds (some due) (s', .go (.timeout i milliseconds true .start))
  | waits {due : Nat} (rests : s.allowance = 0 ∨ s.now < due) :
    LifetimeOutcome s i milliseconds (some due) (s, .wait (.lifetime i milliseconds (some due)))

lemma stepLifetime_outcome (s : System) (i : SessionId) (milliseconds : Nat) (due : Option Nat) :
    s.LifetimeOutcome i milliseconds due (s.stepLifetime i milliseconds due) := by
  cases due with
  | none => exact .sets
  | some due =>
    rw [stepLifetime]
    split
    next spent => exact .rings spent
    next early => exact .waits (early_of_spendAt? early)

end System

end GraphServer
