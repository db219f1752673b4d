import GraphServer.Proofs.Session.Frames
import GraphServer.Proofs.Session.Timely
import GraphServer.Proofs.Session.Untouched

/-!
A task under a time limit whose handler is waited for.

* `Affairs.Engaged`: how the affairs stand from the beginning of a task until its execution goes on;
* `Affairs.Performs.engaged`: so they stand when the task is begun;
* `Affairs.Engaged.apart`, `Affairs.Engaged.handles`, `Affairs.Engaged.stops`, `Affairs.Engaged.outside`: **whatever is done
but by the process that executes the task leaves it engaged**.
-/

namespace GraphServer

open Affairs

variable {i : SessionId} {c : ChannelId} {o a a' b : Affairs} {p q h : ProcessId} {k : ContextId} {t : Task} {d : Deadline}
  {s : System} {x y z : Step} {steps earlier : List Step} {turn : Turn Program} {accepted : List Task}

/-! ### What is done for a task -/

namespace Step

/-- The handler of a task returns. -/
def Returns (k : ContextId) (result : Except Error Unit) (x : Step) : Prop :=
  x.turn = some (.done result) ∧ ∃ point, x.program = .handler k point

/-- If anything is put into the queue, it is the response to a request that the handler of a context asks for. -/
def Asks (c : ChannelId) (k : ContextId) (request : Uuid) (x : Step) : Prop :=
  x.put c = [] ∨
    ∃ call next, x.program = .handler k (.ready (.call call next)) ∧ x.put c = [.response (call.response request)]

/-- Somebody declares that the time of the session or of the task in it is up. -/
def declares (x : Step) : Bool :=
  match x.program with
  | .timeout _ _ _ .start => true
  | _ => false

/-- The task that is begun in the step. -/
def begun? (x : Step) : Option Task :=
  match x.program.runPoint?, x.next.runPoint? with
  | some (.start t), some (.joining ..) => some t
  | _, _ => none

/-- What is asked of each step: nothing waits for a queue, a process takes it, and nobody is behind a time limit. -/
structure IsRegular (c : ChannelId) (z : Step) : Prop where
  smooth : z.IsSmooth c
  taken : z.turn = none ∨ ∃ p, z.IsTaken p
  punctual : ∃ p, System.Punctual (some p) z.before

lemma eq_some_of_begun? (begins : x.begun? = some t) :
    x.program.runPoint? = some (.start t) ∧ ∃ u h deadline, x.next.runPoint? = some (.joining u h deadline) := by
  rw [begun?] at begins
  split at begins
  next program next =>
    cases begins
    exact ⟨program, _, _, _, next⟩
  · cases begins

end Step

/-! ### Engagement -/

namespace Affairs

/-- How the affairs stand while the handler `h` of a task is waited for, after the steps since the task was begun. -/
structure Engaged (c : ChannelId) (t : Task) (h : ProcessId) (d : Deadline) (steps : List Step) (a : Affairs) : Prop where
  point : a.point? = some (.joining t h (some d))
  inFlight : a.session.inFlight = some ⟨t.context, h⟩
  context : ∃ x, a.contexts[t.context]? = some x ∧ x.request = t.request.id ∧
    (x.finished = false ↔ Sent.answers (Step.frames c t.context steps) = [])
  returned : ∀ result, a.program? h = some (.finished (some result)) ↔ ∃ x ∈ steps, x.Returns t.context result
  asked : ∀ x ∈ steps, x.context? = some t.context → x.Asks c t.context t.request.id
  inTime : ∀ x ∈ steps, x.before.now ≤ d.due

namespace Engaged

variable (engaged : Engaged c t h d steps a)

include engaged

lemma congr (session : b.session = a.session) (contexts : b.contexts = a.contexts) (processes : b.processes = a.processes) :
    Engaged c t h d steps b := by
  cases a
  cases b
  cases session
  cases contexts
  cases processes
  exact ⟨engaged.point, engaged.inFlight, engaged.context, engaged.returned, engaged.asked, engaged.inTime⟩

/-- The process that executes the task. -/
lemma executor : ∃ e P, a.session.future = some e ∧ a.program? e = some P ∧ P.runPoint? = some (.joining t h (some d)) := by
  obtain ⟨P, hP, hpoint⟩ := Option.bind_eq_some_iff.mp engaged.point
  obtain ⟨e, he, hP⟩ := Option.bind_eq_some_iff.mp hP
  exact ⟨e, P, he, hP, hpoint⟩

/-- Nothing that concerns the task changes. -/
lemma keep (future : b.session.future = a.session.future) (inFlight : b.session.inFlight = a.session.inFlight)
    (context : b.contexts[t.context]? = a.contexts[t.context]?)
    (programs : ∀ q, a.session.future = some q ∨ q = h → b.program? q = a.program? q) : Engaged c t h d steps b := by
  obtain ⟨e, P, he, hP, hpoint⟩ := engaged.executor
  refine ⟨?_, inFlight.trans engaged.inFlight, ?_, fun result => ?_, engaged.asked, engaged.inTime⟩
  · rw [point?, future, he, Option.bind_some, programs e (.inl he), hP, Option.bind_some, hpoint]
  · rw [context]
    exact engaged.context
  · rw [programs h (.inr rfl)]
    exact engaged.returned result

/-- The time of the session is not up. -/
lemma timedOut (staffed : a.Staffed i c) : a.session.timedOut = none := by
  by_contra late
  cases (staffed.landed (Option.isSome_iff_ne_none.mpr late)).symm.trans engaged.inFlight

/-- The time limit is not over when a process takes a step. -/
lemma now_le (shows : s.Shows i c a) {turning : Option ProcessId} (punctual : s.Punctual turning) :
    s.now ≤ d.due := by
  obtain ⟨e, P, -, hP, hpoint⟩ := engaged.executor
  obtain ⟨y, hy, rfl⟩ := Option.map_eq_some_iff.mp hP
  rw [← shows.processes] at hy
  refine (punctual e y d hy ?_).1
  rw [Program.deadline?, hpoint]
  rfl

/-- Another step is taken, for which nothing changes in the affairs. -/
lemma concat (inTime : z.before.now ≤ d.due) (asks : z.context? = some t.context → z.Asks c t.context t.request.id)
    (unanswered : Sent.answers (Step.frames c t.context [z]) = []) (goes : ∀ result, ¬z.Returns t.context result) :
    Engaged c t h d (steps ++ [z]) a := by
  obtain ⟨y, known, request, answered⟩ := engaged.context
  refine ⟨engaged.point, engaged.inFlight, ⟨y, known, request, ?_⟩, fun result => ?_, ?_, ?_⟩
  · rw [Step.frames_append, Sent.answers_append, unanswered, List.append_nil]
    exact answered
  · rw [engaged.returned result]
    constructor
    · rintro ⟨x, hx, returns⟩
      exact ⟨x, List.mem_append_left _ hx, returns⟩
    · rintro ⟨x, hx, returns⟩
      obtain hx | hx := List.mem_append.mp hx
      · exact ⟨x, hx, returns⟩
      · cases List.mem_singleton.mp hx
        exact absurd returns (goes result)
  · exact Books.forall_concat.mpr ⟨engaged.asked, asks⟩
  · exact Books.forall_concat.mpr ⟨engaged.inTime, inTime⟩

end Engaged

end Affairs

/-! ### Steps of others -/

/-- Whether a program has no part in the execution of tasks. -/
def Program.isAside : Program → Bool
  | lifetime .. | writer _ | delivery .. | finished _ | timeout _ _ _ .over => true
  | _ => false

lemma Step.context?_of_isAside (aside : z.program.isAside = true) : z.context? = none := by
  rw [Step.context?]
  generalize z.program = P at aside ⊢
  cases P with
  | timeout j elapsed ofSession point =>
    cases point with
    | «over» => rfl
    | _ => cases aside
  | lifetime | writer | delivery | finished => rfl
  | _ => cases aside

/-- Who neither executes tasks nor handles one has no part in it, while nobody brings the session to its end and nothing
waits for a queue. -/
lemma Process.Serves.isAside {n : Nat} {x : Process} {session : Session} (serves : x.Serves i c n session p)
    (executes : x.program.executes = false) (handles : ∀ k point, x.program ≠ .handler k point)
    (handover : x.program.handover? = none) (inTime : session.timedOut = none)
    (calm : ∀ j elapsed ofSession, x.program ≠ .timeout j elapsed ofSession .start) : x.program.isAside = true := by
  have concerns := serves.concerns
  have charge := serves.charge
  generalize x.program = P at executes handles handover calm concerns charge ⊢
  cases P with
  | handler k point => exact absurd rfl (handles k point)
  | single j point => cases executes
  | worker j point => cases executes
  | connection n point => cases concerns
  | timeout j elapsed ofSession point =>
    have idle (inCharge : point.inCharge = true) : False := by
      cases inTime.symm.trans (charge j elapsed ofSession point rfl inCharge).2
    cases point with
    | start => exact absurd rfl (calm j elapsed ofSession)
    | sending y next => cases handover
    | «over» => rfl
    | _ => exact (idle rfl).elim
  | _ => rfl

namespace Affairs

lemma Effect.apart {program : Program} (effect : a.Effect c i program a' turn) (aside : program.isAside = true) :
    a'.session = a.session ∧ a'.contexts = a.contexts ∧ a'.processes = a.processes ∧
      (program.isFinished = true → turn.program = program) := by
  cases effect with
  | handler k step => cases aside
  | single step => cases aside
  | worker step => cases aside
  | timeout elapsed ofSession step =>
    cases step with
    | leaves => exact ⟨rfl, rfl, rfl, fun ended => (by cases ended)⟩
    | _ => cases aside
  | delivers d point mails =>
    obtain ⟨session, processes, contexts⟩ := mails.frame
    exact ⟨session, contexts, processes, fun ended => (by cases ended)⟩
  | idles result => exact ⟨rfl, rfl, rfl, fun _ => rfl⟩
  | _ => exact ⟨rfl, rfl, rfl, fun ended => (by cases ended)⟩

/-! ### Steps of the handler -/

/-- What a handler puts into the queue it asks for, and its task is answered with the last response among it. -/
lemma HandlerStep.prompt {point : HandlerPoint} {turn : Turn HandlerPoint} (step : a.HandlerStep c k point a' turn)
    (program : z.program = .handler k point) (next : z.next = (turn.map (.handler k)).program)
    (before : z.before.Shows i c a) (after : z.after.Shows i c a') (smooth : z.IsSmooth c) (attributed : z.IsAttributed c)
    {m : TaskContext} (known : a.contexts[k]? = some m) :
    a'.session = a.session ∧ z.Asks c k m.request ∧ ∃ m', a'.contexts[k]? = some m' ∧ m'.request = m.request ∧
      (m'.finished = false ↔ m.finished = false ∧ Sent.answers (z.put c) = []) := by
  obtain ⟨free, free', prompt⟩ := smooth
  have moves {u : Transit} {rest : Except Error Unit → Handler} (hu : turn = handlerTurn u rest) (w : Handover) :
      u ≠ .waiting w := by
    rintro rfl
    subst hu
    rw [next] at free'
    cases free'
  -- the affairs are those from before, and nothing is put into the queue
  have still (sent : a'.sent = a.sent) (session : a'.session = a.session) (contexts : a'.contexts = a.contexts) :
      a'.session = a.session ∧ z.Asks c k m.request ∧ ∃ m', a'.contexts[k]? = some m' ∧ m'.request = m.request ∧
        (m'.finished = false ↔ m.finished = false ∧ Sent.answers (z.put c) = []) := by
    have silent : z.put c = [] := Docket.put_eq (by rw [after.sentOver, before.sentOver, sent, List.append_nil])
    refine ⟨session, .inl silent, m, contexts ▸ known, rfl, ?_⟩
    rw [silent]
    exact ⟨fun hm => ⟨hm, rfl⟩, And.left⟩
  cases step with
  | streams data rest request mails =>
    cases mails with
    | put =>
      have put : z.put c = [.response ((Call.stream data).response request)] :=
        Docket.put_eq (by rw [after.sentOver, before.sentOver]; rfl)
      obtain rfl : request = m.request := by
        obtain ⟨j, m', acts, known', carries⟩ := attributed _ (put ▸ List.mem_singleton_self _)
        rw [Step.context?, program] at acts
        cases acts
        rw [before.contexts, known] at known'
        cases known'
        exact Option.some.inj ((Call.request_response _ request).symm.trans carries)
      refine ⟨rfl, .inr ⟨_, rest, program, put⟩, m, known, rfl, ?_⟩
      rw [put]
      exact ⟨fun hm => ⟨hm, rfl⟩, And.left⟩
    | held w => exact absurd rfl (moves rfl w)
    | refused e => exact still rfl rfl rfl
  | @answers call terminal rest m' known' open_ _ u mails =>
    cases known.symm.trans known'
    obtain ⟨-, rfl, put⟩ := mails.prompt known open_ before rfl rfl after prompt (moves rfl)
    refine ⟨rfl, .inr ⟨call, rest, program, put⟩, { m with finished := true }, ?_, rfl, ?_⟩
    · change (a.contexts.modify k _)[k]? = _
      rw [List.getElem?_modify_eq, known]
      rfl
    · rw [put, Sent.answers, List.filterMap_cons_some (b := call.response m.request) (by
        rw [Sent.answer?, if_pos (call.concludes_response terminal _)])]
      exact ⟨fun h => (by cases h), fun h => (by cases h.2)⟩
  | mails w rest mails =>
    rw [program] at free
    cases free
  | _ => exact still rfl rfl rfl

end Affairs

/-- The same of a process that has to do with a session. -/
lemma Executes.of_runPoint {P : Program} {point : RunPoint} (stands : P.runPoint? = some point) (concerns : P.Concerns i c) :
    ∃ w, Executes i w ∧ P = w point := by
  obtain ⟨j, w, hw, rfl⟩ := exists_of_runPoint stands
  obtain rfl : j = i := by obtain rfl | rfl := hw <;> exact concerns
  exact ⟨w, hw, rfl⟩

namespace Affairs

lemma Performs.next (performs : a.Performs i c p z a' turn) : z.next = turn.program := by
  rw [Step.next, performs.leads]
  rfl

namespace Engaged

variable (engaged : Engaged c t h d steps a) (staffed : a.Staffed i c)

include engaged

lemma known : t.context < a.contexts.length := by
  obtain ⟨m, hm, -⟩ := engaged.context
  exact (List.getElem?_eq_some_iff.mp hm).1

include staffed

/-- Whoever executes the task or handles it has a part in it, or has ended. -/
lemma finished_of_isAside {P : Program} (place : a.program? q = some P) (aside : P.isAside = true)
    (own : a.session.future = some q ∨ q = h) : P.isFinished = true := by
  obtain future | rfl := own
  · obtain ⟨e, P', he, hP, hpoint⟩ := engaged.executor
    cases he.symm.trans future
    cases place.symm.trans hP
    cases P with
    | single j point => cases aside
    | worker j point => cases aside
    | _ => cases hpoint
  · obtain ⟨y, hy, -, ⟨point, handles⟩ | ⟨result, ended⟩⟩ := staffed.handled _ engaged.inFlight
    · rw [Option.some.inj (place.symm.trans (program?_of_some hy)), handles] at aside
      cases aside
    · rw [Option.some.inj (place.symm.trans (program?_of_some hy)), ended]
      rfl

/-- Another process takes a step. -/
lemma apart (performs : a.Performs i c p z a' turn) (aside : z.program.isAside = true) (inTime : z.before.now ≤ d.due) :
    Engaged c t h d (steps ++ [z]) (a'.setProgram p turn.program) := by
  obtain ⟨session, contexts, processes, ended⟩ := performs.effect.apart aside
  have place := performs.place
  have same := a.program?_congr (b := a') processes
  have idle (acts : z.context? = some t.context) : False := by cases (Step.context?_of_isAside aside).symm.trans acts
  have kept : Engaged c t h d steps (a'.setProgram p turn.program) := by
    refine engaged.keep (congrArg Session.future session) (congrArg Session.inFlight session) (congrArg (·[_]?) contexts)
      fun q hq => ?_
    by_cases hqp : q = p
    · subst hqp
      obtain ⟨y, hy, -⟩ := Option.map_eq_some_iff.mp ((same q).trans place)
      rw [program?_setProgram_self hy, ended (engaged.finished_of_isAside staffed place aside hq), place]
    · exact (program?_setProgram_ne hqp).trans (same q)
  refine kept.concat inTime (fun acts => (idle acts).elim) ?_ fun result returns => ?_
  · rw [Step.frames_eq_nil fun x hx acts => ?_]
    · rfl
    · cases List.mem_singleton.mp hx
      exact (idle acts).elim
  · obtain ⟨-, point, handles⟩ := returns
    rw [handles] at aside
    cases aside

/-- The handler takes a step. -/
lemma handles (performs : a.Performs i c p z a' turn) {point : HandlerPoint} (handler : z.program = .handler k point)
    (regular : z.IsRegular c) (inTime : z.before.now ≤ d.due) :
    Engaged c t h d (steps ++ [z]) (a'.setProgram p turn.program) := by
  obtain ⟨y, hy, hprogram, goes⟩ := performs.process
  have flight := (staffed.serves p y hy).handler k point (hprogram.trans handler) (goes k point (hprogram.trans handler))
  cases engaged.inFlight.symm.trans flight
  obtain ⟨m, known, request, answered⟩ := engaged.context
  have attributed := performs.attributed staffed regular.taken (Option.isNone_iff_eq_none.mp regular.smooth.1)
  have next := performs.next
  have leads := performs.leads
  have effect := performs.effect
  rw [handler] at effect
  cases effect with
  | handler _ step =>
    rename_i turn
    obtain ⟨session, asks, m', known', request', answered'⟩ :=
      step.prompt handler next performs.before performs.after regular.smooth attributed known
    have place := performs.place
    rw [handler] at place
    obtain ⟨e, P, he, hP, hpoint⟩ := engaged.executor
    have hep : e ≠ p := by
      rintro rfl
      cases place.symm.trans hP
      cases hpoint
    have acts : z.context? = some t.context := by rw [Step.context?, handler]
    have unreturned (result : Except Error Unit) (x : Step) (hx : x ∈ steps) : ¬x.Returns t.context result := by
      intro returns
      cases place.symm.trans ((engaged.returned result).mpr ⟨x, hx, returns⟩)
    obtain ⟨y', hy', -⟩ := Option.map_eq_some_iff.mp ((a.program?_congr (b := a') step.processes p).trans place)
    refine ⟨?point, ?inFlight, ⟨m', known', request'.trans request, ?context⟩, fun result => ?returned, ?asked, ?inTime⟩
    case point =>
      rw [point?, show (a'.setProgram p _).session.future = some e from (congrArg Session.future session).trans he,
        Option.bind_some, program?_setProgram_ne hep, a.program?_congr step.processes, hP, Option.bind_some, hpoint]
    case inFlight => exact (congrArg Session.inFlight session).trans engaged.inFlight
    case context =>
      rw [answered', answered, Step.frames_append, Sent.answers_append, Step.frames_singleton acts, List.append_eq_nil_iff]
    case returned =>
      rw [program?_setProgram_self hy']
      constructor
      · intro ended
        refine ⟨z, List.mem_append_right _ (List.mem_singleton_self z), ?_, point, handler⟩
        rw [leads]
        cases turn <;> cases ended
        rfl
      · rintro ⟨x, hx, returns⟩
        obtain hx | hx := List.mem_append.mp hx
        · exact absurd returns (unreturned result x hx)
        · cases List.mem_singleton.mp hx
          rw [Option.some.inj (leads.symm.trans returns.1)]
          rfl
    case asked => exact Books.forall_concat.mpr ⟨engaged.asked, fun _ => request ▸ asks⟩
    case inTime => exact Books.forall_concat.mpr ⟨engaged.inTime, inTime⟩

/-- The process that executes the task and its handler are there, and none of them was stopped. -/
lemma process (own : a.session.future = some q ∨ q = h) : ∃ y, a.processes[q]? = some y ∧ y.cancelled = false := by
  obtain future | rfl := own
  · obtain ⟨e, P, he, hP, hpoint⟩ := engaged.executor
    cases he.symm.trans future
    obtain ⟨y, hy, rfl⟩ := Option.map_eq_some_iff.mp hP
    obtain ⟨w, hw, program⟩ := Executes.of_runPoint hpoint (staffed.serves q y hy).concerns
    exact ⟨y, hy, ((staffed.serves q y hy).executor (program ▸ hw.executes _)).2⟩
  · obtain ⟨y, hy, goes, -⟩ := staffed.handled _ engaged.inFlight
    exact ⟨y, hy, goes⟩

/-- A process that was stopped ends. -/
lemma stops (process : ∃ y, a.processes[p]? = some y ∧ y.program = z.program ∧ y.cancelled = true)
    (before : z.before.Shows i c (a.drowse p)) (after : z.after.Shows i c ((a.drowse p).finish p none))
    (turn : z.turn = none) (regular : z.IsRegular c) :
    Engaged c t h d (steps ++ [z]) ((a.drowse p).finish p none) := by
  obtain ⟨y, hy, -, cancelled⟩ := process
  obtain ⟨r, punctual⟩ := regular.punctual
  have drowsy : Engaged c t h d steps (a.drowse p) := engaged.congr rfl rfl rfl
  have silent : z.put c = [] := Docket.put_eq (by rw [after.sentOver, before.sentOver, List.append_nil]; rfl)
  have kept : Engaged c t h d steps ((a.drowse p).finish p none) := by
    refine engaged.keep rfl rfl rfl fun q own => program?_setProgram_ne ?_
    rintro rfl
    obtain ⟨y', hy', goes⟩ := engaged.process staffed own
    cases hy.symm.trans hy'
    cases cancelled.symm.trans goes
  refine kept.concat (drowsy.now_le before punctual) (fun _ => .inl silent) ?_ fun result returns => ?_
  · rw [Step.frames_eq_nil fun x hx _ => ?_]
    · rfl
    · cases List.mem_singleton.mp hx
      exact silent
  · cases turn.symm.trans returns.1

/-- What is done from outside does not concern the task. -/
lemma outside {accepted' : List Task} (outside : a.Outside i c accepted b accepted') : Engaged c t h d steps b := by
  have added (P : Program) (q : ProcessId) (own : a.session.future = some q ∨ q = h) :
      (a.addProcess P).program? q = a.program? q := by
    obtain ⟨y, hy, -⟩ := engaged.process staffed own
    rw [program?_of_some (addProcess_of_some hy), program?_of_some hy]
  have context (r : Request) : (a.addContext c r).contexts[t.context]? = a.contexts[t.context]? :=
    List.getElem?_append_left engaged.known
  cases outside with
  | timeout elapsed ofSession => exact engaged.keep rfl rfl rfl (added _)
  | traffic f => exact engaged.keep rfl rfl rfl (added _)
  | declines r => exact engaged.keep rfl rfl (context r) fun _ _ => rfl
  | enqueues r backlog accepting room => exact engaged.keep rfl rfl (context r) fun _ _ => rfl
  | engages r backlog accepting vacant =>
    obtain ⟨e, P, he, -⟩ := engaged.executor
    cases vacant.symm.trans he
  | closes => exact engaged.keep rfl rfl rfl fun _ _ => rfl

end Engaged

end Affairs

/-! ### The beginning -/

/-- Where the execution of a task goes on is told by the program. -/
lemma Executes.map_eq_go {w : RunPoint → Program} (hw : Executes i w) {turn : Turn RunPoint} {point : RunPoint}
    (h : turn.map w = .go (w point)) : turn = .go point := by
  cases turn with
  | go next =>
    have same := congrArg Program.runPoint? (Turn.go.inj h)
    rw [hw.runPoint, hw.runPoint] at same
    rw [Option.some.inj same]
  | wait next => cases h
  | done result => cases h

namespace Affairs

/-- A step of the execution of a task, whoever executes it. -/
lemma Effect.runStep {w : RunPoint → Program} (hw : Executes i w) {point : RunPoint}
    (effect : a.Effect c i (w point) a' turn) (goes : point ≠ .over) :
    ∃ turn', turn = turn'.map w ∧ a.RunStep c point a' turn' := by
  obtain rfl | rfl := hw
  · cases effect with
    | single step =>
      cases step with
      | ends => exact absurd rfl goes
      | runs step => exact ⟨_, rfl, step⟩
  · cases effect with
    | worker step =>
      cases step with
      | leaves => exact absurd rfl goes
      | @runs _ _ turn step =>
        refine ⟨turn, ?_, step⟩
        cases turn <;> rfl

end Affairs

/-- The time limit of a task is counted from when it is begun. -/
lemma System.deadline_of_begins {deadline : Option Deadline} {u : Task}
    (h : (s.stepRun p i (.start t)).2 = .go (.joining u q deadline)) :
    deadline = (t.request.budget s.service.settings.evaluationTimeout).map fun budget => ⟨budget, s.now + budget⟩ := by
  have outcome := s.stepRun_outcome p i (.start t)
  generalize s.stepRun p i (.start t) = x at outcome h
  cases outcome with
  | strays | dies => cases h
  | begins =>
    cases h
    rfl
  | refuses => obtain last | ⟨y, last⟩ := lastWords_point? (congrArg Turn.point? h) <;> cases last

namespace Affairs

/-- A task that is begun is engaged. -/
lemma Performs.engaged (staffed : a.Staffed i c) (untouched : a.session.timedOut = none → Untouched accepted a)
    (known : ∀ u ∈ accepted, ∃ m, a.contexts[u.context]? = some m ∧ m.request = u.request.id)
    (performs : a.Performs i c p z a' turn) (begins : z.begun? = some t)
    (taken : z.turn = none ∨ ∃ q, z.IsTaken q) {budget : Nat}
    (limit : t.request.budget z.before.service.settings.evaluationTimeout = some budget) :
    ∃ h, Engaged c t h ⟨budget, z.before.now + budget⟩ [] (a'.setProgram p turn.program) := by
  obtain ⟨starts, u, h, deadline, joins⟩ := Step.eq_some_of_begun? begins
  obtain ⟨y, hy, hprogram, -⟩ := performs.process
  obtain ⟨w, hw, program⟩ := Executes.of_runPoint (hprogram ▸ starts) (staffed.serves p y hy).concerns
  rw [hprogram] at program
  have future : a.session.future = some p :=
    ((staffed.serves p y hy).executor (by rw [hprogram, program]; exact hw.executes _)).1
  obtain ⟨turn', rfl, step⟩ := Effect.runStep hw (program ▸ performs.effect) fun h => by cases h
  have point : turn'.point? = some (.joining u h deadline) := by
    rw [performs.next] at joins
    cases turn' with
    | done result => cases joins
    | _ => exact (hw.runPoint _).symm.trans joins
  have last {v : Transit} (hv : v.lastWords.point? = some (.joining u h deadline)) : False := by
    cases v <;> cases hv
  cases step with
  | refuses t handler late answers => exact (last point).elim
  | begins _ handler _ inTime =>
    cases point
    obtain ⟨q, -, turn', hturn, hstep⟩ := taken.resolve_left fun stopped => by cases stopped.symm.trans performs.leads
    cases hturn.symm.trans performs.leads
    rw [program, System.step_eq_stepRun hw fun h => by cases h] at hstep
    have limited : deadline = some ⟨budget, z.before.now + budget⟩ := by
      rw [System.deadline_of_begins (hw.map_eq_go (congrArg Prod.snd hstep)), limit]
      rfl
    subst limited
    have place : a.program? p = some (w (.start t)) := program ▸ performs.place
    have other : a.processes.length ≠ p := (List.getElem?_eq_some_iff.mp hy).1.ne'
    have launched : (a.addProcess (.handler t.context (.ready handler))).processes[p]? = some y := addProcess_of_some hy
    have held : t ∈ a.undone := by
      refine List.mem_append_left _ (List.mem_flatMap.mpr ⟨w (.start t), ?_, ?_⟩)
      · exact List.mem_of_getElem? ((program?_eq a p).symm.trans place)
      · rcases hw with rfl | rfl <;> exact List.mem_singleton_self t
    obtain ⟨m, hm, request⟩ := known t ((untouched inTime).accepted t held)
    have isOpen := (untouched inTime).isOpen t held
    refine ⟨_, ⟨?_, rfl, ⟨m, hm, request, ?_⟩, fun result => ?_, fun x hx => absurd hx List.not_mem_nil,
      fun x hx => absurd hx List.not_mem_nil⟩⟩
    · rw [point?]
      change (Option.bind (Option.bind a.session.future _) _) = _
      rw [future, Option.bind_some]
      exact Option.bind_eq_some_iff.mpr ⟨_, program?_setProgram_self launched, hw.runPoint _⟩
    · rw [Affairs.isOpen, hm, Option.any_some, Bool.not_eq_true'] at isOpen
      exact ⟨fun _ => rfl, fun _ => isOpen⟩
    · rw [program?_setProgram_ne other]
      change Option.map _ (a.processes ++ [_])[a.processes.length]? = _ ↔ _
      rw [List.getElem?_concat_length]
      constructor
      · intro ended
        cases ended
      · rintro ⟨x, hx, -⟩
        cases hx

end Affairs

end GraphServer
