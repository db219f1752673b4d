import GraphServer.Proofs.Session.Discharge
import GraphServer.Proofs.Session.Engaged

/-!
A task under a time limit whose execution goes on from its handler.

* `Affairs.Joins`: what the execution can come to while it waits for the handler;
* `Verdict`: with which response the task is done;
* `Step.Parts`: a step with which the execution goes on, and what that step puts into the queue;
* `Course.fares`: **a task stays engaged until such a step is taken**.
-/

namespace GraphServer

open Affairs

variable {i : SessionId} {c : ChannelId} {o a a' b : Affairs} {p q h : ProcessId} {k : ContextId} {t : Task} {d : Deadline}
  {s : System} {x y z : Step} {steps earlier : List Step} {turn : Turn Program} {accepted : List Task}

/-! ### The execution of the task -/

namespace Affairs

/-- What the execution of a task under a time limit can come to while it waits for the handler. -/
inductive Joins (c : ChannelId) (a : Affairs) (t : Task) (h : ProcessId) (d : Deadline) (now : Nat) :
    Affairs → Turn RunPoint → Prop
  | waits : Joins c a t h d now a (.wait (.joining t h (some d)))
  | stopped (ended : a.program? h = some (.finished none)) : Joins c a t h d now a.land (.go .over)
  | returned {result : Except Error Unit} (ended : a.program? h = some (.finished (some result)))
    {a' : Affairs} {u : Transit} (answers : a.land.Answers c t.context (System.concluding result) a' u) :
    Joins c a t h d now a' u.lastWords
  | expires (runs : ∀ result, a.program? h ≠ some (.finished result)) (due : d.due ≤ now)
    {a' : Affairs} {u : Transit} (interrupts : a.Interrupts c d.budget false a' u) : Joins c a t h d now a' u.lastWords

end Affairs

lemma System.Shows.joins (shows : s.Shows i c a) (bound : a.Bound c)
    (busy : ∀ f, a.session.inFlight = some f → f.context < a.contexts.length) (known : t.context < a.contexts.length) :
    ∃ a', (s.stepRun p i (.joining t h (some d))).1.Shows i c a' ∧
      a.Joins c t h d s.now a' (s.stepRun p i (.joining t h (some d))).2 := by
  obtain ⟨m, hm, hc⟩ := exists_context bound known
  have outcome := s.stepRun_outcome p i (.joining t h (some d))
  generalize s.stepRun p i (.joining t h (some d)) = x at outcome ⊢
  cases outcome with
  | stopped ended spent => exact ⟨_, (shows.of_spend? spent).land, .stopped (shows.program? h ▸ ended)⟩
  | returned ended spent =>
    rw [lastWords_eq]
    obtain ⟨a', hs', answers⟩ := (shows.of_spend? spent).land.tryFinish p (k := t.context) hm hc (concluding _)
    exact ⟨a', hs', .returned (shows.program? h ▸ ended) answers⟩
  | expires runs spent =>
    rw [lastWords_eq]
    obtain ⟨a', hs', interrupts⟩ := (shows.of_spendAt? spent).interrupt p d.budget false fun f hf =>
      exists_context bound (busy f hf)
    rw [System.result?_eq_none, shows.program?] at runs
    exact ⟨a', hs', .expires runs (System.le_now_of_spendAt? spent) interrupts⟩
  | waits => exact ⟨a, shows, .waits⟩

/-! ### Going on -/

/-- With which response a task is done, if no last one was sent off for it before. -/
inductive Verdict (t : Task) (d : Deadline) (earlier : List Step) (now : Nat) : Response → Prop
  /-- The time limit is reached, and the handler has not returned: the response has the status 498. -/
  | cut (runs : ∀ x ∈ earlier, ∀ result, ¬x.Returns t.context result) (due : now = d.due) :
    Verdict t d earlier now (System.timeoutResponse d.budget false t.request.id)
  /-- The handler has returned: the response is the one for its result. -/
  | returned {x : Step} {result : Except Error Unit} (mem : x ∈ earlier) (returns : x.Returns t.context result)
    (inTime : now ≤ d.due) : Verdict t d earlier now (System.concluding result t.request.id)

/-- The task was taken out of flight and is in nobody's hands any more. -/
structure Affairs.Parted (i : SessionId) (c : ChannelId) (t : Task) (a : Affairs) : Prop where
  staffed : a.Staffed i c
  inTime : a.session.timedOut = none
  idle : a.session.inFlight = none
  point : a.point? = some .over
  unqueued : t.context ∉ a.queue.map (·.context)
  known : t.context < a.contexts.length

/-- With this step the execution of a task goes on from its handler, after the steps since the task was begun. -/
structure Step.Parts (i : SessionId) (c : ChannelId) (t : Task) (d : Deadline) (earlier : List Step) (y : Step) : Prop where
  asked : ∀ x ∈ earlier, x.context? = some t.context → x.Asks c t.context t.request.id
  inTime : ∀ x ∈ earlier, x.before.now ≤ d.due
  leaves : ∃ w h, Executes i w ∧ y.program = w (.joining t h (some d)) ∧ y.turn = some (.go (w .over))
  answers : ∃ last, Verdict t d earlier y.before.now last ∧
    y.put c = if Sent.answers (Step.frames c t.context earlier) = [] then [.response last] else []
  stands : ∃ x b, y.before.sessions[i]? = some x ∧ b.session = { x with inFlight := none } ∧ b.Parted i c t ∧
    ∀ p, y.IsTaken p → (y.after.setProgram p y.next).Shows i c b ∧ b.program? p = some y.next

namespace Affairs

/-- Executing a task goes on, and nothing waits for a queue. -/
lemma lastWords_of_free {w : RunPoint → Program} (hw : Executes i w) {u : Transit}
    (free : (u.lastWords.map w).program.handover?.isNone = true) : ∀ y, u ≠ .waiting y := by
  rintro y rfl
  have held : (w (.sending y)).handover? = some y := hw.handover y
  change (w (.sending y)).handover?.isNone = true at free
  rw [held] at free
  cases free

/-- Only the process that executes the task takes its steps. -/
lemma Performs.taken_unique (staffed : a.Staffed i c) {w : RunPoint → Program} (hw : Executes i w) {point : RunPoint}
    (performs : a.Performs i c p z a' turn) (program : z.program = w point) (taken : z.IsTaken q) : q = p := by
  have executing {r : ProcessId} (hr : a.program? r = some z.program) : a.session.future = some r := by
    obtain ⟨y, hy, hprogram⟩ := Option.map_eq_some_iff.mp hr
    refine ((staffed.serves r y hy).executor ?_).1
    rw [hprogram, program]
    exact hw.executes point
  have hq : a.program? q = some z.program := (performs.before.program? q).symm.trans taken.1
  exact Option.some.inj ((executing hq).symm.trans (executing performs.place))

namespace Engaged

variable (engaged : Engaged c t h d steps a) (staffed : a.Staffed i c)

include engaged staffed

/-- The execution goes on from its handler, and the task is in nobody's hands any more. -/
lemma parts {w : RunPoint → Program} (hw : Executes i w) (untouched : Untouched accepted a)
    (performs : a.Performs i c p z a' (.go (w .over))) (program : z.program = w (.joining t h (some d)))
    (taken : z.IsTaken q) (session : a'.session = a.land.session)
    (answers : ∃ last, Verdict t d steps z.before.now last ∧
      z.put c = if Sent.answers (Step.frames c t.context steps) = [] then [.response last] else []) :
    z.Parts i c t d steps := by
  obtain ⟨y, hy, hprogram, -⟩ := performs.process
  have future : a.session.future = some p :=
    ((staffed.serves p y hy).executor (by rw [hprogram, program]; exact hw.executes _)).1
  obtain ⟨y', hy', -⟩ := Option.map_eq_some_iff.mp (performs.effect.crew.place performs.place)
  refine ⟨engaged.asked, engaged.inTime, ⟨w, h, hw, program, performs.leads⟩, answers, a.session,
    a'.setProgram p (w .over), performs.before.session, session, ⟨?_, ?_, ?_, ?_, ?_, ?_⟩, fun r hr => ?_⟩
  · exact staffed.effect hy (hprogram ▸ performs.effect)
  · exact (congrArg Session.timedOut session).trans (engaged.timedOut staffed)
  · exact congrArg Session.inFlight session
  · rw [point?, show (a'.setProgram p _).session.future = some p from (congrArg Session.future session).trans future,
      Option.bind_some, program?_setProgram_self hy', Option.bind_some, hw.runPoint]
  · have queue : (a'.setProgram p (w .over)).queue = a.queue := by
      rw [Affairs.queue, show (a'.setProgram p (w .over)).session = a.land.session from session]
      rfl
    rw [queue]
    intro hk
    obtain ⟨u, hu, context⟩ := List.mem_map.mp hk
    refine untouched.notMem_flight (List.mem_append_right _ hu) ?_
    rw [context, flight_eq_singleton engaged.inFlight]
    exact List.mem_singleton_self _
  · have grows : z.before.contexts.length ≤ z.after.contexts.length := by
      obtain ⟨-, turn, -, hstep⟩ := taken
      have changes := System.Changes.step z.before q z.program
      rw [hstep] at changes
      exact changes.contexts_le
    rw [performs.before.contexts, performs.after.contexts] at grows
    exact engaged.known.trans_le grows
  · rw [performs.taken_unique staffed hw program hr, performs.next]
    exact ⟨performs.after.setProgram p (w .over), program?_setProgram_self hy'⟩

/-- The execution takes a step: it waits on, or goes on from its handler. -/
lemma executes (untouched : Untouched accepted a) (performs : a.Performs i c p z a' turn)
    (executes : z.program.executes = true) (regular : z.IsRegular c) (inTime : z.before.now ≤ d.due) :
    Engaged c t h d (steps ++ [z]) (a'.setProgram p turn.program) ∨ z.Parts i c t d steps := by
  obtain ⟨y, hy, hprogram, -⟩ := performs.process
  have serves := staffed.serves p y hy
  rw [← hprogram] at executes
  have future := (serves.executor executes).1
  obtain ⟨w, hw, program⟩ := Executes.of_runPoint ((staffed.point?_eq hy executes).symm.trans engaged.point) serves.concerns
  rw [hprogram] at program
  obtain ⟨q, taken⟩ := regular.taken.resolve_left fun stopped => by cases stopped.symm.trans performs.leads
  obtain ⟨-, turn', hturn, hstep⟩ := taken.imp id id
  cases hturn.symm.trans performs.leads
  rw [program, System.step_eq_stepRun hw (fun h => by cases h)] at hstep
  obtain ⟨a'', shows, joins⟩ :=
    performs.before.joins (p := q) (h := h) (d := d) staffed.bound staffed.flight_lt engaged.known
  generalize z.before.stepRun q i (.joining t h (some d)) = r at hstep shows joins
  obtain ⟨s', turn'⟩ := r
  obtain ⟨rfl, rfl⟩ := Prod.mk.inj hstep
  have session : a'.session = a''.session := Option.some.inj (performs.after.session.symm.trans shows.session)
  have contexts : a'.contexts = a''.contexts := performs.after.contexts.symm.trans shows.contexts
  have processes : a'.processes = a''.processes := performs.after.processes.symm.trans shows.processes
  obtain ⟨m, known, request, answered⟩ := engaged.context
  have acts : z.context? = some t.context := by
    rw [Step.context?, program]
    rcases hw with rfl | rfl <;> rfl
  -- what is sent off is for the task, unless its last response was sent off before
  have answer {r : Uuid → Response} (put : z.put c = if m.finished then [] else [.response (r m.request)]) :
      z.put c = if Sent.answers (Step.frames c t.context steps) = [] then [.response (r t.request.id)] else [] := by
    rw [put, request]
    cases finished : m.finished with
    | false => rw [if_neg Bool.false_ne_true, if_pos (answered.mp finished)]
    | true =>
      rw [if_pos rfl, if_neg fun none_ => ?_]
      cases finished.symm.trans (answered.mpr none_)
  have free := regular.smooth.2.1
  rw [performs.next] at free
  cases joins with
  | waits =>
    left
    have silent : z.put c = [] :=
      Docket.put_eq (by rw [shows.sentOver, performs.before.sentOver, List.append_nil])
    have kept : Engaged c t h d steps (a'.setProgram p (w (.joining t h (some d)))) := by
      refine engaged.keep (congrArg Session.future session) (congrArg Session.inFlight session) (congrArg (·[_]?) contexts)
        fun r _ => ?_
      by_cases hrp : r = p
      · subst hrp
        obtain ⟨y', hy', -⟩ := Option.map_eq_some_iff.mp ((a.program?_congr processes r).trans performs.place)
        rw [program?_setProgram_self hy', performs.place, program]
      · exact (program?_setProgram_ne hrp).trans (a.program?_congr processes r)
    refine kept.concat inTime (fun _ => .inl silent) ?_ fun result returns => ?_
    · rw [Step.frames_singleton acts, silent]
      rfl
    · cases performs.leads.symm.trans returns.1
  | stopped ended =>
    obtain ⟨x, hx, -, handles⟩ := staffed.handled _ engaged.inFlight
    have place : some x.program = some (.finished none) := (program?_of_some hx).symm.trans ended
    rcases handles with ⟨point, handles⟩ | ⟨result, handles⟩ <;> (rw [handles] at place; cases place)
  | @returned result ended _ u answers =>
    right
    obtain ⟨⟨v, rfl⟩, put⟩ := answers.prompt (b := a.land) known performs.before rfl rfl shows regular.smooth.2.2
      (lastWords_of_free hw free)
    obtain ⟨x, hx, returns⟩ := (engaged.returned result).mp ended
    exact engaged.parts staffed hw untouched performs program taken (session.trans answers.frame.1)
      ⟨_, .returned hx returns inTime, answer put⟩
  | @expires runs due _ u interrupts =>
    right
    have landed := session.trans interrupts.frame.1
    cases interrupts with
    | nobody idle => cases idle.symm.trans engaged.inFlight
    | somebody busy answers =>
      cases busy.symm.trans engaged.inFlight
      have contexts := stop_contexts a.land h
      obtain ⟨⟨v, rfl⟩, put⟩ := answers.prompt ((congrArg (·[t.context]?) contexts).trans known) performs.before contexts
        (stop_sent ..) shows regular.smooth.2.2 (lastWords_of_free hw free)
      refine engaged.parts staffed hw untouched performs program taken landed
        ⟨_, .cut (fun x hx result returns => ?_) (Nat.le_antisymm inTime due), answer put⟩
      exact runs _ ((engaged.returned result).mpr ⟨x, hx, returns⟩)

/-- A process takes a step. -/
lemma performs (untouched : Untouched accepted a) (performs : a.Performs i c p z a' turn) (regular : z.IsRegular c)
    (calm : z.declares = true → d.due < z.before.now) :
    Engaged c t h d (steps ++ [z]) (a'.setProgram p turn.program) ∨ z.Parts i c t d steps := by
  obtain ⟨q, punctual⟩ := regular.punctual
  have inTime := engaged.now_le performs.before punctual
  obtain ⟨y, hy, hprogram, -⟩ := performs.process
  by_cases executes : z.program.executes = true
  · exact engaged.executes staffed untouched performs executes regular inTime
  · left
    by_cases handles : ∃ k point, z.program = .handler k point
    · obtain ⟨k, point, handler⟩ := handles
      exact engaged.handles staffed performs handler regular inTime
    · refine engaged.apart staffed performs ?_ inTime
      rw [← hprogram] at executes handles ⊢
      refine (staffed.serves p y hy).isAside (Bool.eq_false_iff.mpr executes) (fun k point hk => handles ⟨k, point, hk⟩) ?_
        (engaged.timedOut staffed) fun j elapsed ofSession declares => ?_
      · rw [hprogram]
        exact Option.isNone_iff_eq_none.mp regular.smooth.1
      · refine Nat.not_lt.mpr inTime (calm ?_)
        rw [Step.declares, ← hprogram, declares]

end Engaged

end Affairs

/-! ### The whole course -/

/-- What has become of a task since it was begun. -/
inductive Affairs.Fares (i : SessionId) (c : ChannelId) (t : Task) (d : Deadline) (after : List Step) (a : Affairs) : Prop
  | engaged (h : ProcessId) (engaged : Engaged c t h d after a)
  | parted (earlier : List Step) (y : Step) (later : List Step) (steps : after = earlier ++ y :: later)
    (parts : y.Parts i c t d earlier)

lemma Affairs.Fares.congr {after : List Step} (fares : a.Fares i c t d after) (session : b.session = a.session)
    (contexts : b.contexts = a.contexts) (processes : b.processes = a.processes) : b.Fares i c t d after := by
  cases fares with
  | engaged h engaged => exact .engaged h (engaged.congr session contexts processes)
  | parted earlier y later hsteps parts => exact .parted earlier y later hsteps parts

namespace Course

variable {whole : Bool} {turning : Option ProcessId} {before after : List Step} {budget : Nat}

/-- A step leaves a task engaged or parts it from its handler, or is taken after that. -/
lemma fares_performs (course : Course i c o whole (some p) a accepted steps)
    (ih : ∀ after, steps = before ++ x :: after → (∀ z ∈ after, z.declares = true → d.due < z.before.now) →
      a.Fares i c t d after)
    (due : d = ⟨budget, x.before.now + budget⟩) (performs : a.Performs i c p z a' turn) (regular : z.IsRegular c)
    (begins : x.begun? = some t) (limit : t.request.budget x.before.service.settings.evaluationTimeout = some budget)
    (split : steps ++ [z] = before ++ x :: after) (calm : ∀ z ∈ after, z.declares = true → d.due < z.before.now) :
    (a'.setProgram p turn.program).Fares i c t d after := by
  obtain ⟨rfl, -, rfl⟩ | ⟨rest, rfl, hsteps⟩ := Chronicle.split_concat split
  · obtain ⟨h, engaged⟩ := performs.engaged course.staffed course.untouched course.books.custody.known begins regular.taken
      limit
    exact .engaged h (due ▸ engaged)
  · rw [Books.forall_concat] at calm
    cases ih rest hsteps calm.1 with
    | engaged h engaged =>
      have untouched := course.untouched (engaged.timedOut course.staffed)
      rcases engaged.performs course.staffed untouched performs regular calm.2 with engaged | parts
      · exact .engaged h engaged
      · exact .parted rest z [] rfl parts
    | parted earlier y later hrest parts =>
      exact .parted earlier y (later ++ [z]) (by rw [hrest, List.append_assoc, List.cons_append]) parts

/-- A task stays engaged from its beginning on, until a step parts it from its handler. -/
theorem fares (course : Course i c o whole turning a accepted steps) (regular : ∀ z ∈ steps, z.IsRegular c)
    (due : d = ⟨budget, x.before.now + budget⟩) (begins : x.begun? = some t)
    (limit : t.request.budget x.before.service.settings.evaluationTimeout = some budget)
    (split : steps = before ++ x :: after) (calm : ∀ z ∈ after, z.declares = true → d.due < z.before.now) :
    a.Fares i c t d after := by
  induction course generalizing after with
  | opens opened => exact absurd split.symm (List.append_ne_nil_of_right_ne_nil _ (List.cons_ne_nil _ _))
  | outside course outside ih =>
    cases ih regular split calm with
    | engaged h engaged => exact .engaged h (engaged.outside course.staffed outside)
    | parted earlier y later hsteps parts => exact .parted earlier y later hsteps parts
  | misses q _ ended ih => exact (ih regular split calm).congr rfl rfl rfl
  | begins q _ ih => exact (ih regular split calm).congr rfl rfl rfl
  | cut _ ih => exact (ih regular split calm).congr rfl rfl rfl
  | goes course performs ih =>
    rw [Books.forall_concat] at regular
    exact course.fares_performs (fun _ => ih regular.1) due performs regular.2 begins limit split calm
  | waits spent course performs idle ih =>
    rw [Books.forall_concat] at regular
    have fares := course.fares_performs (fun _ => ih regular.1) due performs regular.2 begins limit split calm
    exact fares.congr rfl rfl rfl
  | ends course performs ih =>
    rw [Books.forall_concat] at regular
    have fares := course.fares_performs (fun _ => ih regular.1) due performs regular.2 begins limit split calm
    exact fares.congr rfl rfl rfl
  | @stops _ a _ _ z q course process shows shows' turn ih =>
    rw [Books.forall_concat] at regular
    obtain ⟨rfl, -, rfl⟩ | ⟨rest, rfl, hsteps⟩ := Chronicle.split_concat split
    · obtain ⟨-, u, h, deadline, joins⟩ := Step.eq_some_of_begun? begins
      rw [Step.next, turn] at joins
      cases joins
    · rw [Books.forall_concat] at calm
      cases ih regular.1 hsteps calm.1 with
      | engaged h engaged => exact .engaged h (engaged.stops course.staffed process shows shows' turn regular.2)
      | parted earlier y later hrest parts =>
        exact .parted earlier y (later ++ [z]) (by rw [hrest, List.append_assoc, List.cons_append]) parts

end Course

end GraphServer
