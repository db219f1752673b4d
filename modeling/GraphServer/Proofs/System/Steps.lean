import GraphServer.Proofs.System.Mail
import GraphServer.Proofs.System.Outcomes

/-!
What one step of a process does to the affairs of a session.

* `RunStep`, `WorkerStep`, `SingleStep`: the execution of its tasks;
* `TimeoutStep`: the end of its time or of the time of a task;
* `HandlerStep`: the handler of a task;
* `Affairs.Effect`: any process that has to do with the session;
* `System.Shows.step`: **every step of a process is one of these**.
-/

namespace GraphServer

/-- Where a process goes on after it sent something, and where it waits. -/
def Transit.lead {α : Type} (t : Transit) (next : Except Error Unit → α) (waiting : Handover → α) : Turn α :=
  match t with
  | .done r => .go (next r)
  | .waiting h => .wait (waiting h)

lemma Transit.turn_eq {α : Type} (x : System × Transit) (next : Except Error Unit → α) (waiting : Handover → α) :
    Transit.turn x next waiting = (x.1, x.2.lead next waiting) := by
  obtain ⟨s, t⟩ := x
  cases t <;> rfl

/-- Where a delivery ends or waits. -/
def Transit.delivered (t : Transit) (d : Delivery) : Turn DeliveryPoint :=
  match t with
  | .done r => .done (d.outcome r)
  | .waiting h => .wait (.sending h)

/-- Where the execution of a task goes on after its last response was sent. -/
def Transit.lastWords (t : Transit) : Turn RunPoint :=
  t.lead (fun _ => .over) .sending

namespace Affairs

variable (c : ChannelId) (a : Affairs)

/-- Stops the process that watches the time of the session. -/
def disarm : Affairs :=
  a.session.cancelFuture.toList.foldl stop a

/-- The handler of a task is started. -/
def launch (k : ContextId) (handler : Handler) : Affairs :=
  a.addProcess (.handler k (.ready handler))

/-! ### The execution of tasks -/

/-- A step of the execution of a task. -/
inductive RunStep : RunPoint → Affairs → Turn RunPoint → Prop
  | begins (t : Task) (handler : Handler) (deadline : Option Deadline) (inTime : a.session.timedOut = none) :
    RunStep (.start t)
      ((a.launch t.context handler).onSession
        fun x => { x with inFlight := some ⟨t.context, a.processes.length⟩ })
      (.go (.joining t a.processes.length deadline))
  | refuses (t : Task) (handler : Handler) {elapsed : Nat} (late : a.session.timedOut = some elapsed)
    {a' : Affairs} {x : Transit}
    (answers : Answers c ((a.launch t.context handler).stop a.processes.length) t.context
      (System.timeoutResponse elapsed true) a' x) : RunStep (.start t) a' x.lastWords
  | stopped (t : Task) {h : ProcessId} (deadline : Option Deadline)
    (ended : a.program? h = some (.finished none)) : RunStep (.joining t h deadline) a.land (.go .over)
  | returned (t : Task) {h : ProcessId} (deadline : Option Deadline) {result : Except Error Unit}
    (ended : a.program? h = some (.finished (some result))) {a' : Affairs} {x : Transit}
    (answers : Answers c a.land t.context (System.concluding result) a' x) :
    RunStep (.joining t h deadline) a' x.lastWords
  | expires (t : Task) (h : ProcessId) (deadline : Option Deadline) (budget : Nat) {a' : Affairs} {x : Transit}
    (interrupts : Interrupts c a budget false a' x) : RunStep (.joining t h deadline) a' x.lastWords
  | waits (t : Task) (h : ProcessId) (deadline : Option Deadline) :
    RunStep (.joining t h deadline) a (.wait (.joining t h deadline))
  | mails (h : Handover) {a' : Affairs} {x : Transit} (mails : Mails c a h.parcel.meaning a' x) :
    RunStep (.sending h) a' x.lastWords

/-- A step of the worker of the session. -/
inductive WorkerStep : WorkerPoint → Affairs → Turn WorkerPoint → Prop
  | takes {t : Task} {x : Session} (some : a.session.dequeue? = some (t, x)) :
    WorkerStep .choosing { a with session := x } (.go (.running (.start t)))
  | rests (none : a.session.dequeue? = none) (accepting : a.session.accepting = true) :
    WorkerStep .choosing a (.go .resting)
  | ends (none : a.session.dequeue? = none) (closed : a.session.accepting = false) :
    WorkerStep .choosing (a.onSession Session.finish).disarm (.done (.ok ()))
  | hears (notified : a.session.isNotified = true) :
    WorkerStep .resting (a.onSession (·.setNotified false)) (.go .choosing)
  | waits (unnotified : a.session.isNotified = false) : WorkerStep .resting a (.wait .resting)
  | leaves : WorkerStep (.running .over) a (.go .choosing)
  | runs {point : RunPoint} {a' : Affairs} {turn : Turn RunPoint} (step : RunStep c a point a' turn) :
    WorkerStep (.running point) a' (turn.map .running)

/-- A step of the only task of the session. -/
inductive SingleStep : RunPoint → Affairs → Turn RunPoint → Prop
  | ends : SingleStep .over (a.onSession Session.finish).disarm (.done (.ok ()))
  | runs {point : RunPoint} {a' : Affairs} {turn : Turn RunPoint} (step : RunStep c a point a' turn) :
    SingleStep point a' turn

/-! ### Time -/

/-- The time of the session is up. -/
def expire (elapsed : Nat) : Affairs :=
  a.onSession fun x => { x with timedOut := some elapsed, accepting := false }

/-- A step of the end of the time of the session or of the task in it. -/
inductive TimeoutStep (elapsed : Nat) (ofSession : Bool) : TimeoutPoint → Affairs → Turn TimeoutPoint → Prop
  | late (kind : ofSession = true) {before : Nat} (late : a.session.timedOut = some before) :
    TimeoutStep elapsed ofSession .start a (.go .over)
  | expires (kind : ofSession = true) (inTime : a.session.timedOut = none) {a' : Affairs} {x : Transit}
    (interrupts : Interrupts c (a.expire elapsed) elapsed true a' x) :
    TimeoutStep elapsed ofSession .start a' (x.lead (fun _ => .draining) (.sending · .draining))
  | interrupts (kind : ofSession = false) {a' : Affairs} {x : Transit}
    (interrupts : Interrupts c a elapsed false a' x) :
    TimeoutStep elapsed ofSession .start a' (x.lead (fun _ => .over) (.sending · .over))
  | drains : TimeoutStep elapsed ofSession .draining { a with session := a.session.drain.2 }
    (.go (.answering a.session.drain.1))
  | answers (t : Task) (rest : List Task) {a' : Affairs} {x : Transit}
    (answers : Answers c a t.context (System.timeoutResponse elapsed true) a' x) :
    TimeoutStep elapsed ofSession (.answering (t :: rest)) a'
      (x.lead (fun _ => .answering rest) (.sending · (.answering rest)))
  | notifies : TimeoutStep elapsed ofSession (.answering []) a.notify (.go .closing)
  | closes {a' : Affairs} {x : Transit} (closes : Closes c a a' x) :
    TimeoutStep elapsed ofSession .closing a' (x.lead (fun _ => .disarming) (.sending · .disarming))
  | disarms : TimeoutStep elapsed ofSession .disarming a.disarm (.go .over)
  | mails (h : Handover) (next : TimeoutPoint) {a' : Affairs} {x : Transit}
    (mails : Mails c a h.parcel.meaning a' x) :
    TimeoutStep elapsed ofSession (.sending h next) a' (x.lead (fun _ => next) (.sending · next))
  | leaves : TimeoutStep elapsed ofSession .over a (.done (.ok ()))

/-! ### Handlers -/

/-- Where a handler goes on after a call, and where it waits. -/
def handlerTurn (x : Transit) (next : Except Error Unit → Handler) : Turn HandlerPoint :=
  x.lead (fun r => .ready (next r)) (.calling · next)

/-- A step of the handler of a task. -/
inductive HandlerStep (k : ContextId) : HandlerPoint → Affairs → Turn HandlerPoint → Prop
  | returns (result : Except Error Unit) : HandlerStep k (.ready (.return result)) a (.done result)
  | late (call : Call) (next : Except Error Unit → Handler) (e : Error) :
    HandlerStep k (.ready (.call call next)) a (.go (.ready (next (.error e))))
  | streams (data : Value) (next : Except Error Unit → Handler) (request : Uuid) {a' : Affairs} {x : Transit}
    (mails : Mails c a (some (.response ((Call.stream data).response request))) a' x) :
    HandlerStep k (.ready (.call (.stream data) next)) a' (handlerTurn x next)
  | answers {call : Call} (terminal : call.isTerminal = true) (next : Except Error Unit → Handler)
    {x : TaskContext} (known : a.contexts[k]? = some x) (open_ : x.finished = false) {a' : Affairs} {t : Transit}
    (mails : Mails c (a.conclude k) (some (.response (call.response x.request))) a' t) :
    HandlerStep k (.ready (.call call next)) a' (handlerTurn t next)
  | mails (h : Handover) (next : Except Error Unit → Handler) {a' : Affairs} {x : Transit}
    (mails : Mails c a h.parcel.meaning a' x) : HandlerStep k (.calling h next) a' (handlerTurn x next)
  | sleeps (milliseconds due : Nat) (next : Handler) :
    HandlerStep k (.ready (.sleep milliseconds next)) a (.go (.sleeping due next))
  | wakes (due : Nat) (next : Handler) : HandlerStep k (.sleeping due next) a (.go (.ready next))
  | waits (due : Nat) (next : Handler) : HandlerStep k (.sleeping due next) a (.wait (.sleeping due next))

/-! ### All processes -/

/-- A step of a process that has to do with the session. -/
inductive Effect (i : SessionId) : Program → Affairs → Turn Program → Prop
  | handler (k : ContextId) {point : HandlerPoint} {a' : Affairs} {turn : Turn HandlerPoint}
    (step : HandlerStep c a k point a' turn) : Effect i (.handler k point) a' (turn.map (.handler k))
  | single {point : RunPoint} {a' : Affairs} {turn : Turn RunPoint} (step : SingleStep c a point a' turn) :
    Effect i (.single i point) a' (turn.map (.single i))
  | worker {point : WorkerPoint} {a' : Affairs} {turn : Turn WorkerPoint} (step : WorkerStep c a point a' turn) :
    Effect i (.worker i point) a' (turn.map (.worker i))
  | timeout (elapsed : Nat) (ofSession : Bool) {point : TimeoutPoint} {a' : Affairs} {turn : Turn TimeoutPoint}
    (step : TimeoutStep c a elapsed ofSession point a' turn) :
    Effect i (.timeout i elapsed ofSession point) a' (turn.map (.timeout i elapsed ofSession))
  | watches (milliseconds due : Nat) :
    Effect i (.lifetime i milliseconds none) a (.go (.lifetime i milliseconds (some due)))
  | rings (milliseconds due : Nat) :
    Effect i (.lifetime i milliseconds (some due)) a (.go (.timeout i milliseconds true .start))
  | sleeps (milliseconds due : Nat) :
    Effect i (.lifetime i milliseconds (some due)) a (.wait (.lifetime i milliseconds (some due)))
  | writes (channel : ChannelId) (turn : Turn ChannelId) : Effect i (.writer channel) a (turn.map .writer)
  | delivers (d : Delivery) (point : DeliveryPoint) {a' : Affairs} {x : Transit} (mails : Mails c a none a' x) :
    Effect i (.delivery c d point) a' ((x.delivered d).map (.delivery c d))
  | idles (result : Option (Except Error Unit)) : Effect i (.finished result) a (.wait (.finished result))

end Affairs

/-! ### Every step -/

namespace RunPoint

/-- The task that is executed. -/
def task? : RunPoint → Option Task
  | start t | joining t _ _ => some t
  | _ => none

end RunPoint

namespace TimeoutPoint

/-- The tasks that are to be answered. -/
def tasks : TimeoutPoint → List Task
  | answering rest => rest
  | sending _ next => next.tasks
  | _ => []

end TimeoutPoint

namespace Program

/-- Where the execution of a task stands, for a program that executes tasks. -/
def runPoint? : Program → Option RunPoint
  | single _ point | worker _ (.running point) => some point
  | _ => none

/-- The contexts that a program holds. -/
def contexts : Program → List ContextId
  | handler k _ => [k]
  | timeout _ _ _ point => point.tasks.map (·.context)
  | p => (p.runPoint?.bind (·.task?)).toList.map (·.context)

/-- Whether a program has to do with a session and its channel. -/
def Concerns (i : SessionId) (c : ChannelId) : Program → Prop
  | single j _ | worker j _ | lifetime j _ _ | timeout j _ _ _ => j = i
  | connection _ _ => False
  | delivery d x point =>
    d = c ∧ (∃ f, x = .parcel (.raw f)) ∧ ∀ h, point = .sending h → h.parcel.meaning = none
  | _ => True

end Program

/-- All contexts are those of requests over the channel. -/
def Affairs.Bound (c : ChannelId) (a : Affairs) : Prop :=
  ∀ (k : ContextId) (x : TaskContext), a.contexts[k]? = some x → x.channel = some c

namespace System.Shows

open Affairs

variable {s : System} {i : SessionId} {c : ChannelId} {a : Affairs} {p : ProcessId}

lemma disarm (h : s.Shows i c a) : (s.disarm i).Shows i c a.disarm := by
  rw [System.disarm, h.session]
  exact h.abortAll _

lemma finishSession (h : s.Shows i c a) :
    (s.finishSession i).Shows i c (a.onSession Session.finish).disarm :=
  (h.onSession Session.finish rfl).disarm

lemma land (h : s.Shows i c a) : (s.onSession i fun x => { x with inFlight := none }).Shows i c a.land :=
  h.onSession _ rfl

lemma lastWords_eq (x : System × Transit) : System.lastWords x = (x.1, x.2.lastWords) :=
  Transit.turn_eq x _ _

lemma answerThen_eq (x : System × Transit) (next : TimeoutPoint) :
    answerThen x next = (x.1, x.2.lead (fun _ => next) (.sending · next)) :=
  Transit.turn_eq x _ _

lemma stop_contexts (a : Affairs) (q : ProcessId) : (a.stop q).contexts = a.contexts := by
  rw [stop]
  split <;> rfl

/-- A context that is there is the context of a request over the channel. -/
lemma exists_context (bound : a.Bound c) {k : ContextId} (hk : k < a.contexts.length) :
    ∃ x, a.contexts[k]? = some x ∧ x.channel = some c :=
  ⟨_, List.getElem?_eq_getElem hk, bound _ _ (List.getElem?_eq_getElem hk)⟩

lemma stepRun (h : s.Shows i c a) (bound : a.Bound c) (alive : a.session.killed = false)
    (busy : ∀ f, a.session.inFlight = some f → f.context < a.contexts.length) (point : RunPoint)
    (known : ∀ t, point.task? = some t → t.context < a.contexts.length)
    (handover : ∀ x, point = .sending x → x.channel = c) (hpoint : point ≠ .over) :
    ∃ a', (s.stepRun p i point).1.Shows i c a' ∧ a.RunStep c point a' (s.stepRun p i point).2 := by
  have launched (t : Task) : (s.launch t).Shows i c (a.launch t.context (s.service.ops.handlerOf t.request)) :=
    (h.spawn _).1
  have outcome := s.stepRun_outcome p i point
  generalize s.stepRun p i point = x at outcome ⊢
  cases outcome with
  | strays unknown => cases h.session.symm.trans unknown
  | dies found killed =>
    cases h.session.symm.trans found
    cases alive.symm.trans killed
  | begins found alive inTime =>
    cases h.session.symm.trans found
    rw [h.processes]
    exact ⟨_, (launched _).onSession (fun _ => _) rfl, .begins _ _ _ inTime⟩
  | refuses found alive late =>
    cases h.session.symm.trans found
    rw [lastWords_eq, h.processes]
    obtain ⟨x, hx, hc⟩ := exists_context bound (known _ rfl)
    obtain ⟨a', hs, ha⟩ := ((launched _).abort a.processes.length).replyTimeout p (by rw [stop_contexts]; exact hx) hc _ true
    exact ⟨a', hs, .refuses _ _ late ha⟩
  | stopped ended spent => exact ⟨_, (h.of_spend? spent).land, .stopped _ _ (h.program? _ ▸ ended)⟩
  | returned ended spent =>
    rw [lastWords_eq]
    obtain ⟨x, hx, hc⟩ := exists_context bound (known _ rfl)
    obtain ⟨a', hs, ha⟩ := (h.of_spend? spent).land.tryFinish p hx hc (concluding _)
    exact ⟨a', hs, .returned _ _ (h.program? _ ▸ ended) ha⟩
  | expires runs spent =>
    rw [lastWords_eq]
    obtain ⟨a', hs, hi⟩ := (h.of_spendAt? spent).interrupt p _ false fun f hf => exists_context bound (busy f hf)
    exact ⟨a', hs, .expires _ _ _ _ hi⟩
  | waits => exact ⟨a, h, .waits ..⟩
  | resumes =>
    rw [lastWords_eq]
    obtain ⟨a', hs, hm⟩ := h.resume p (handover _ rfl)
    exact ⟨a', hs, .mails _ hm⟩
  | leaves => exact absurd rfl hpoint

lemma stepWorker (h : s.Shows i c a) (bound : a.Bound c) (alive : a.session.killed = false)
    (busy : ∀ f, a.session.inFlight = some f → f.context < a.contexts.length) (point : WorkerPoint)
    (known : ∀ x t, point = .running x → x.task? = some t → t.context < a.contexts.length)
    (handover : ∀ x, point = .running (.sending x) → x.channel = c) :
    ∃ a', (s.stepWorker p i point).1.Shows i c a' ∧ a.WorkerStep c point a' (s.stepWorker p i point).2 := by
  have outcome := s.stepWorker_outcome p i point
  generalize s.stepWorker p i point = x at outcome ⊢
  cases outcome with
  | strays unknown => cases h.session.symm.trans unknown
  | @takes _ x _ found taken =>
    cases h.session.symm.trans found
    have future : x.future = a.session.future := by
      obtain ⟨b, rest, -, -, rfl⟩ := Session.dequeue?_eq_some taken
      rfl
    exact ⟨_, h.onSession (fun _ => x) future, .takes taken⟩
  | rests found empty accepting =>
    cases h.session.symm.trans found
    exact ⟨a, h, .rests empty accepting⟩
  | ends found empty closed =>
    cases h.session.symm.trans found
    exact ⟨_, h.finishSession, .ends empty closed⟩
  | hears notified =>
    rw [h.session] at notified
    exact ⟨_, h.onSession _ rfl, .hears notified⟩
  | waits unnotified =>
    rw [h.session] at unnotified
    exact ⟨a, h, .waits unnotified⟩
  | leaves => exact ⟨a, h, .leaves⟩
  | runs goes =>
    obtain ⟨a', hs, hr⟩ :=
      h.stepRun (p := p) bound alive busy _ (known _ · rfl) (fun y hy => handover y (congrArg _ hy)) goes
    exact ⟨a', hs, .runs hr⟩

lemma stepSingle (h : s.Shows i c a) (bound : a.Bound c) (alive : a.session.killed = false)
    (busy : ∀ f, a.session.inFlight = some f → f.context < a.contexts.length) (point : RunPoint)
    (known : ∀ t, point.task? = some t → t.context < a.contexts.length)
    (handover : ∀ x, point = .sending x → x.channel = c) :
    ∃ a', (s.stepSingle p i point).1.Shows i c a' ∧ a.SingleStep c point a' (s.stepSingle p i point).2 := by
  have outcome := s.stepSingle_outcome p i point
  generalize s.stepSingle p i point = x at outcome ⊢
  cases outcome with
  | ends => exact ⟨_, h.finishSession, .ends⟩
  | runs goes =>
    obtain ⟨a', hs, hr⟩ := h.stepRun (p := p) bound alive busy point known handover goes
    exact ⟨a', hs, .runs hr⟩

lemma stepTimeout (h : s.Shows i c a) (bound : a.Bound c) (home : a.session.channel = c)
    (busy : ∀ f, a.session.inFlight = some f → f.context < a.contexts.length)
    (elapsed : Nat) (ofSession : Bool) (point : TimeoutPoint)
    (known : ∀ t ∈ point.tasks, t.context < a.contexts.length)
    (handover : ∀ x next, point = .sending x next → x.channel = c) :
    ∃ a', (s.stepTimeout p i elapsed ofSession point).1.Shows i c a' ∧
      a.TimeoutStep c elapsed ofSession point a' (s.stepTimeout p i elapsed ofSession point).2 := by
  have outcome := s.stepTimeout_outcome p i elapsed ofSession point
  generalize s.stepTimeout p i elapsed ofSession point = x at outcome ⊢
  cases outcome with
  | late found late =>
    cases h.session.symm.trans found
    exact ⟨a, h, .late rfl late⟩
  | expires found inTime =>
    cases h.session.symm.trans found
    rw [answerThen_eq]
    have expire : (s.onSession i fun _ => { a.session with timedOut := some elapsed, accepting := false }).Shows
        i c (a.expire elapsed) := h.onSession _ rfl
    obtain ⟨a', hs, hi⟩ := expire.interrupt p elapsed true fun f hf => exists_context bound (busy f hf)
    exact ⟨a', hs, .expires rfl inTime hi⟩
  | interrupts =>
    rw [answerThen_eq]
    obtain ⟨a', hs, hi⟩ := h.interrupt p elapsed false fun f hf => exists_context bound (busy f hf)
    exact ⟨a', hs, .interrupts rfl hi⟩
  | strays _ unknown => cases h.session.symm.trans unknown
  | drains found =>
    cases h.session.symm.trans found
    refine ⟨_, h.onSession (fun _ => a.session.drain.2) ?_, .drains⟩
    rw [Session.drain_snd]
  | answers =>
    obtain ⟨x, hx, hc⟩ := exists_context bound (known _ (List.mem_cons_self ..))
    rw [answerThen_eq]
    obtain ⟨a', hs, ha⟩ := h.replyTimeout p hx hc elapsed true
    exact ⟨a', hs, .answers _ _ ha⟩
  | notifies => exact ⟨_, h.notify, .notifies⟩
  | closes found =>
    cases h.session.symm.trans found
    rw [answerThen_eq, home]
    obtain ⟨a', hs, hc⟩ := h.closeChannel p
    exact ⟨a', hs, .closes hc⟩
  | disarms => exact ⟨_, h.disarm, .disarms⟩
  | resumes =>
    obtain ⟨a', hs, hm⟩ := h.resume p (handover _ _ rfl)
    rw [answerThen_eq]
    exact ⟨a', hs, .mails _ _ hm⟩
  | leaves => exact ⟨a, h, .leaves⟩

lemma call (h : s.Shows i c a) {k : ContextId} {x : TaskContext} (hk : a.contexts[k]? = some x)
    (hc : x.channel = some c) (call : Call) (next : Except Error Unit → Handler) :
    ∃ a', (s.call p k call).1.Shows i c a' ∧
      a.HandlerStep c k (.ready (.call call next)) a' (handlerTurn (s.call p k call).2 next) := by
  have stands : s.contexts[k]? = some x := h.contexts ▸ hk
  have outcome := s.call_outcome p k call
  generalize s.call p k call = z at outcome ⊢
  cases outcome with
  | strays unknown => cases stands.symm.trans unknown
  | late => exact ⟨a, h, .late call next _⟩
  | concludes known unfinished terminal =>
    cases stands.symm.trans known
    obtain ⟨a', hs, hm⟩ := (h.onContext k).sendFor p hc (call.response x.request)
    exact ⟨a', hs, .answers terminal next hk unfinished hm⟩
  | streams known unfinished streaming =>
    cases stands.symm.trans known
    cases call with
    | stream data =>
      obtain ⟨a', hs, hm⟩ := h.sendFor p hc ((Call.stream data).response x.request)
      exact ⟨a', hs, .streams data next x.request hm⟩
    | _ => cases streaming

lemma stepHandler (h : s.Shows i c a) (bound : a.Bound c) {k : ContextId} (hk : k < a.contexts.length)
    (point : HandlerPoint) (handover : ∀ x next, point = .calling x next → x.channel = c) :
    ∃ a', (s.stepHandler p k point).1.Shows i c a' ∧ a.HandlerStep c k point a' (s.stepHandler p k point).2 := by
  have outcome := s.stepHandler_outcome p k point
  generalize s.stepHandler p k point = z at outcome ⊢
  cases outcome with
  | returns => exact ⟨a, h, .returns _⟩
  | @calls call next =>
    obtain ⟨x, hx, hc⟩ := exists_context bound hk
    obtain ⟨a', hs, hstep⟩ := h.call (p := p) hx hc call next
    rw [Transit.turn_eq]
    exact ⟨a', hs, hstep⟩
  | sleeps => exact ⟨a, h, .sleeps _ _ _⟩
  | @resumes x next =>
    obtain ⟨a', hs, hm⟩ := h.resume p (handover x next rfl)
    rw [Transit.turn_eq]
    exact ⟨a', hs, .mails x next hm⟩
  | wakes spent => exact ⟨a, h.of_spendAt? spent, .wakes _ _⟩
  | waits => exact ⟨a, h, .waits _ _⟩

lemma stepDelivery_start (s : System) (p : ProcessId) (c : ChannelId) (d : Delivery) :
    s.stepDelivery p c d .start = ((s.deliver p c d).1, (s.deliver p c d).2.delivered d) := by
  rw [System.stepDelivery]
  cases s.deliver p c d with
  | mk s' t => cases t <;> rfl

lemma stepDelivery_sending (s : System) (p : ProcessId) (c : ChannelId) (d : Delivery) (x : Handover) :
    s.stepDelivery p c d (.sending x) = ((s.resume p x).1, (s.resume p x).2.delivered d) := by
  rw [System.stepDelivery]
  cases s.resume p x with
  | mk s' t => cases t <;> rfl

lemma stepDelivery (h : s.Shows i c a) (f : OutboundFrame) (point : DeliveryPoint)
    (handover : ∀ x, point = .sending x → x.channel = c ∧ x.parcel.meaning = none) :
    ∃ a' x, (s.stepDelivery p c (.parcel (.raw f)) point).1.Shows i c a' ∧ a.Mails c none a' x ∧
      (s.stepDelivery p c (.parcel (.raw f)) point).2 = x.delivered (.parcel (.raw f)) := by
  cases point with
  | start =>
    obtain ⟨a', hs, hm⟩ := h.send p (.raw f)
    rw [stepDelivery_start]
    exact ⟨a', _, hs, hm, rfl⟩
  | sending x =>
    obtain ⟨hc, hnone⟩ := handover x rfl
    obtain ⟨a', hs, hm⟩ := h.resume p hc
    rw [stepDelivery_sending]
    exact ⟨a', _, hs, hnone ▸ hm, rfl⟩

/-- A change of the way out of any channel. -/
lemma outbound (h : s.Shows i c a) (channel : ChannelId) (outbound : Outbound) :
    (s.onChannel channel fun x => { x with outbound }).Shows i c a := by
  by_cases hc : channel = c
  · subst hc
    exact h.onOutbound _ fun x => ⟨rfl, rfl⟩
  · obtain ⟨x, hx, hrest⟩ := h.channel
    refine ⟨h.session, h.contexts, h.processes, ⟨x, ?_, hrest⟩, h.awake⟩
    rw [System.onChannel, List.getElem?_modify_ne _ _ hc]
    exact hx

lemma stepWriter (h : s.Shows i c a) (channel : ChannelId) : (s.stepWriter channel).1.Shows i c a := by
  rw [System.stepWriter]
  cases s.channels[channel]? with
  | none => exact h
  | some x =>
    dsimp only
    cases x.outbound.step with
    | none =>
      dsimp only
      cases x.outbound.result? <;> exact h
    | some r =>
      obtain ⟨outbound, woken⟩ := r
      dsimp only
      have hspent (s' : System) (hs' : (if x.outbound.isReceiving then s.spend? else some s) = some s') :
          s'.Shows i c a := by
        split at hs'
        · exact h.of_spend? hs'
        · cases hs'
          exact h
      cases hs : if x.outbound.isReceiving then s.spend? else some s with
      | none => exact h
      | some s' => exact ((hspent s' hs).outbound channel outbound).wakeAll woken

/-- A step of a process that has to do with the session. -/
lemma step (h : s.Shows i c a) (bound : a.Bound c) (alive : a.session.killed = false)
    (home : a.session.channel = c) (busy : ∀ f, a.session.inFlight = some f → f.context < a.contexts.length)
    {program : Program} (concerns : program.Concerns i c) (known : ∀ k ∈ program.contexts, k < a.contexts.length)
    (handover : ∀ x, program.handover? = some x → x.channel = c) :
    ∃ a', (s.step p program).1.Shows i c a' ∧ a.Effect c i program a' (s.step p program).2 := by
  cases program with
  | handler k point =>
    obtain ⟨a', hs, hstep⟩ := h.stepHandler (p := p) bound (known k (List.mem_singleton_self k)) point
      fun x next hx => handover x (by rw [hx]; rfl)
    exact ⟨a', hs, .handler k hstep⟩
  | single j point =>
    cases concerns
    obtain ⟨a', hs, hstep⟩ := h.stepSingle (p := p) bound alive busy point
      (fun t ht => known t.context (by simp [Program.contexts, Program.runPoint?, ht])) fun x hx =>
        handover x (by rw [hx]; rfl)
    exact ⟨a', hs, .single hstep⟩
  | worker j point =>
    cases concerns
    obtain ⟨a', hs, hstep⟩ := h.stepWorker (p := p) bound alive busy point
      (fun x t hx ht => known t.context (by rw [hx]; simp [Program.contexts, Program.runPoint?, ht])) fun x hx =>
        handover x (by rw [hx]; rfl)
    exact ⟨a', hs, .worker hstep⟩
  | lifetime j milliseconds due =>
    cases concerns
    have outcome := s.stepLifetime_outcome i milliseconds due
    rw [System.step]
    generalize s.stepLifetime i milliseconds due = x at outcome ⊢
    cases outcome with
    | sets => exact ⟨a, h, .watches milliseconds _⟩
    | rings spent => exact ⟨a, h.of_spendAt? spent, .rings milliseconds _⟩
    | waits => exact ⟨a, h, .sleeps milliseconds _⟩
  | timeout j elapsed ofSession point =>
    cases concerns
    obtain ⟨a', hs, hstep⟩ := h.stepTimeout (p := p) bound home busy elapsed ofSession point
      (fun t ht => known t.context (List.mem_map_of_mem ht)) fun x next hx => handover x (by rw [hx]; rfl)
    exact ⟨a', hs, .timeout elapsed ofSession hstep⟩
  | writer channel => exact ⟨a, h.stepWriter channel, .writes channel _⟩
  | connection j point => exact absurd concerns id
  | delivery d x point =>
    obtain ⟨rfl, ⟨f, rfl⟩, hm⟩ := concerns
    obtain ⟨a', x, hs, hmail, hturn⟩ := h.stepDelivery (p := p) f point fun y hy =>
      ⟨handover y (by rw [hy]; rfl), hm y hy⟩
    refine ⟨a', hs, ?_⟩
    rw [System.step, liftTurn, hturn]
    exact .delivers _ point hmail
  | finished result => exact ⟨a, h, .idles result⟩

end System.Shows

end GraphServer
