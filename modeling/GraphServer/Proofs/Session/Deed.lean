import GraphServer.Proofs.Session.Roster

/-!
What a step of a process comes to.

* `Affairs.line`: the contexts in the hands of a process and of the session, in order;
* `Affairs.Post`: a last response that is sent off is put into the queue, held or lost;
* `Affairs.Deed`: at most one context in line is answered, and the others remain in order;
* `Affairs.Effect.deed`: **every step is such a deed**.
-/

namespace GraphServer

/-- The tasks in the hands of a program, which are neither begun nor answered. -/
def Program.tasks : Program → List Task
  | single _ (.start t) | worker _ (.running (.start t)) => [t]
  | timeout _ _ _ point => point.tasks
  | _ => []

/-- The last response that waits for the queue. -/
def Transit.answer? : Transit → Option Response
  | done _ => none
  | waiting h => h.parcel.meaning.bind Sent.answer?

namespace Affairs

variable {i : SessionId} {c : ChannelId} {a a' b : Affairs} {p : ProcessId} {k : ContextId} {t : Transit}
  {program next : Program}

/-- The context of the task in flight. -/
def flight (a : Affairs) : List ContextId :=
  (a.session.inFlight.map (·.context)).toList

/-- The contexts in the hands of the session and of a process, in order. -/
def line (a : Affairs) (program : Program) : List ContextId :=
  a.flight ++ (program.tasks ++ a.queue).map (·.context)

/-- Those of them whose last responses are still to be sent off. -/
def due (a : Affairs) (program : Program) : List ContextId :=
  (a.line program).filter a.isOpen

/-- What a step of a process does towards the end of the session: once its time is up, somebody is to put
the order to close into the queue. -/
structure Ages (a : Affairs) (program : Program) (a' : Affairs) (next : Program) : Prop where
  owes : next.owesClose = true →
    program.owesClose = true ∨ a.session.timedOut = none ∧ a'.session.timedOut.isSome = true
  expires : a.session.timedOut = none → a'.session.timedOut.isSome = true → next.owesClose = true
  late : ∀ elapsed, a.session.timedOut = some elapsed → a'.session.timedOut = some elapsed

/-- Time makes no difference. -/
lemma Ages.steady (timedOut : a'.session.timedOut = a.session.timedOut)
    (owes : next.owesClose = true → program.owesClose = true) : Ages a program a' next where
  owes h := .inl (owes h)
  expires inTime late := by
    rw [timedOut, inTime] at late
    cases late
  late elapsed h := timedOut.trans h

lemma Ages.settled (timedOut : a'.session.timedOut = a.session.timedOut) (settled : next.owesClose = false) :
    Ages a program a' next :=
  .steady timedOut fun h => by cases settled.symm.trans h

/-- What a step does about last responses: the context that is answered and its last response, what is put
into the queue, and a last response that is lost. -/
structure Post (a : Affairs) (program : Program) (a' : Affairs) (next : Program)
    (new : Option (ContextId × Response)) (put : Option Sent) (refused : List Response) : Prop where
  contexts : a'.contexts = new.elim a.contexts fun x => (a.conclude x.1).contexts
  /-- It was not answered before, and after the time of the session is up the response tells of that. -/
  answered : ∀ k r, new = some (k, r) → r.concludes = true ∧ ∃ x, a.contexts[k]? = some x ∧ x.finished = false ∧
    r.request = some x.request ∧
    ∀ elapsed, a'.session.timedOut = some elapsed → r = System.timeoutResponse elapsed true x.request
  sent : a'.sent = a.sent ++ put.toList
  mail : program.answer?.toList ++ (new.map (·.2)).toList = Sent.answers put.toList ++ next.answer?.toList ++ refused
  /-- Who puts the order to close into the queue was to do so, and is not to do so again. -/
  close : put = some .close → program.owesClose = true ∧ next.owesClose = false
  ages : a.Ages program a' next

/-- What a step comes to: what is answered was the first in line. -/
structure Deed (a : Affairs) (program : Program) (a' : Affairs) (next : Program)
    (new : Option (ContextId × Response)) (put : Option Sent) (refused : List Response) : Prop
    extends Post a program a' next new put refused where
  line : a.due program = (new.map (·.1)).toList ++ a'.due next

/-! ### What is sent -/

lemma answers_toList (m : Option Sent) : Sent.answers m.toList = (m.bind Sent.answer?).toList := by
  cases m with
  | none => rfl
  | some s =>
    rw [Option.bind_some, Option.toList_some, Sent.answers]
    cases hs : s.answer? with
    | none => exact List.filterMap_cons_none hs
    | some r => exact List.filterMap_cons_some hs

/-- Something that is sent is put into the queue, held or lost. -/
lemma Mails.post {m : Option Sent} (hm : a.Mails c m b t) :
    ∃ (put : Option Sent) (refused : List Response), b.sent = a.sent ++ put.toList ∧
      (put = none ∨ put = m ∧ ∃ r, t = .done r) ∧
      Sent.answers m.toList = Sent.answers put.toList ++ t.answer?.toList ++ refused := by
  cases hm with
  | put => exact ⟨m, [], rfl, .inr ⟨rfl, _, rfl⟩, by rw [Transit.answer?]; simp⟩
  | held h channel meaning =>
    refine ⟨none, [], (List.append_nil _).symm, .inl rfl, ?_⟩
    rw [Transit.answer?, meaning]
    rw [answers_toList]
    simp [Sent.answers]
  | refused e => exact ⟨none, Sent.answers m.toList, (List.append_nil _).symm, .inl rfl, rfl⟩

lemma mem_of_filter_nodup {l : List ContextId} {f : ContextId → Bool} (h : ((k :: l).filter f).Nodup)
    (hk : f k = true) : ∀ j ∈ l, f j = true → j ≠ k := by
  rw [List.filter_cons_of_pos hk, List.nodup_cons] at h
  rintro j hj hf rfl
  exact h.1 (List.mem_filter.mpr ⟨hj, hf⟩)

/-- Once the first in line is answered, the others are due as before. -/
lemma filter_isOpen_conclude {l : List ContextId} (h : ((k :: l).filter a.isOpen).Nodup) (hk : a.isOpen k = true)
    (contexts : b.contexts = (a.conclude k).contexts) : l.filter b.isOpen = l.filter a.isOpen := by
  have hopen : b.isOpen = (a.conclude k).isOpen := funext fun j => by rw [isOpen, isOpen, contexts]
  refine List.filter_congr fun j hj => ?_
  rw [hopen]
  by_cases hjk : j = k
  · subst hjk
    rw [isOpen_conclude_self]
    by_contra hne
    exact mem_of_filter_nodup h hk j hj hk rfl
  · exact isOpen_conclude_ne hjk

/-! ### The kinds of deeds -/

namespace Deed

/-- Nothing is answered and nothing is sent. -/
lemma quiet (contexts : a'.contexts = a.contexts) (sent : a'.sent = a.sent)
    (line : a.line program = a'.line next) (answer : program.answer? = next.answer?)
    (ages : a.Ages program a' next) : Deed a program a' next none none [] where
  contexts := contexts
  answered k r h := by cases h
  line := by
    rw [due, due, line, show a'.isOpen = a.isOpen from funext fun k => by rw [isOpen, isOpen, contexts]]
    rfl
  sent := sent.trans (List.append_nil _).symm
  mail := by
    rw [answer]
    simp [Sent.answers]
  close h := by cases h
  ages := ages

/-- Nothing is answered, and what is sent is a last response only if the process waited with that. -/
lemma mails {m : Option Sent} (hm : b.Mails c m a' t) (contexts : b.contexts = a.contexts) (sent : b.sent = a.sent)
    (line : a.line program = a'.line next) (answer : program.answer? = m.bind Sent.answer?)
    (answer' : next.answer? = t.answer?)
    (close : m = some .close → program.owesClose = true ∧ ((∃ r, t = .done r) → next.owesClose = false))
    (ages : a.Ages program a' next) : ∃ put refused, Deed a program a' next none put refused := by
  obtain ⟨put, refused, hsent, hput, hanswers⟩ := hm.post
  have hcontexts : a'.contexts = a.contexts := hm.frame.2.2.trans contexts
  refine ⟨put, refused, ⟨hcontexts, ?answered, ?sent, ?mail, ?close, ages⟩, ?line⟩
  case answered =>
    intro k r h
    cases h
  case sent => rw [hsent, sent]
  case mail =>
    rw [answer, answer', ← hanswers, answers_toList]
    exact List.append_nil _
  case close =>
    intro hclose
    rcases hput with rfl | ⟨rfl, hdone⟩
    · cases hclose
    · exact (close hclose).imp id fun h => h hdone
  case line =>
    rw [due, due, line, show a'.isOpen = a.isOpen from funext fun k => by rw [isOpen, isOpen, hcontexts]]
    rfl

/-- The first in line is answered, unless it was before. -/
lemma answers {r : Uuid → Response} (rest : List ContextId) (ha : b.Answers c k r a' t)
    (contexts : b.contexts = a.contexts) (sent : b.sent = a.sent) (nodup : (a.due program).Nodup)
    (line : a.line program = k :: rest) (line' : a'.line next = rest ∨ a'.line next = k :: rest)
    (answer : program.answer? = none) (answer' : next.answer? = t.answer?)
    (request : ∀ u, (r u).request = some u) (concludes : ∀ u, (r u).concludes = true)
    (tells : ∀ elapsed, a'.session.timedOut = some elapsed → r = fun u => System.timeoutResponse elapsed true u)
    (ages : a.Ages program a' next) : ∃ new put refused, Deed a program a' next new put refused := by
  have hfirst (hclosed : a'.isOpen k = false) : a'.due next = rest.filter a'.isOpen := by
    rw [due]
    rcases line' with hline | hline
    · rw [hline]
    · rw [hline, List.filter_cons_of_neg (by rw [hclosed]; exact Bool.false_ne_true)]
  cases ha with
  | already known finished =>
    have hclosed : a'.isOpen k = false := by
      rw [isOpen, known, Option.any_some, finished]
      rfl
    have hopen : a'.isOpen = a.isOpen := funext fun j => by rw [isOpen, isOpen, contexts]
    refine ⟨none, none, [], ⟨contexts, fun k r h => (by cases h), ?_, ?_, fun h => (by cases h), ages⟩, ?_⟩
    · rw [sent]
      exact (List.append_nil _).symm
    · rw [answer, answer']
      rfl
    · rw [hfirst hclosed, due, line, ← hopen, List.filter_cons_of_neg (by rw [hclosed]; exact Bool.false_ne_true)]
      rfl
  | @first x _ _ known open_ mails =>
    obtain ⟨put, refused, hsent, hput, hanswers⟩ := mails.post
    have hcontexts : a'.contexts = (a.conclude k).contexts := by
      rw [mails.frame.2.2, conclude, conclude, contexts]
    have hknown : a.contexts[k]? = some x := contexts ▸ known
    have hopen : a.isOpen k = true := by
      rw [isOpen, hknown, Option.any_some, open_]
      rfl
    have hclosed : a'.isOpen k = false := by
      rw [isOpen, hcontexts]
      exact isOpen_conclude_self a k
    have hdue : a.due program = k :: rest.filter a.isOpen := by rw [due, line, List.filter_cons_of_pos hopen]
    refine ⟨some (k, r x.request), put, refused, ⟨hcontexts, ?answered, ?sent, ?mail, ?close, ages⟩, ?line⟩
    case answered =>
      intro k' r' h
      cases h
      exact ⟨concludes _, x, hknown, open_, request _, fun elapsed he => congrFun (tells elapsed he) _⟩
    case sent =>
      rw [hsent]
      exact congrArg (· ++ _) sent
    case mail =>
      rw [answer, answer', ← hanswers, answers_toList, Option.bind_some, Sent.answer?, if_pos (concludes _)]
      rfl
    case close =>
      intro hclose
      rcases hput with rfl | ⟨rfl, -⟩
      · cases hclose
      · cases hclose
    case line =>
      rw [hdue, hfirst hclosed, filter_isOpen_conclude (line ▸ nodup) hopen hcontexts]
      rfl

end Deed

end Affairs

/-! ### The execution of tasks -/

namespace Executes

variable {i : SessionId} {w : RunPoint → Program} (hw : Executes i w) (point : RunPoint)

include hw

lemma owesClose : (w point).owesClose = false := by
  rcases hw with rfl | rfl <;> rfl

lemma tasks_start (u : Task) : (w (.start u)).tasks = [u] := by
  rcases hw with rfl | rfl <;> rfl

lemma tasks (hpoint : ∀ u, point ≠ .start u) : (w point).tasks = [] := by
  rcases hw with rfl | rfl
  · cases point with
    | start u => exact absurd rfl (hpoint u)
    | _ => rfl
  · cases point with
    | start u => exact absurd rfl (hpoint u)
    | _ => rfl

lemma answer?_sending (y : Handover) : (w (.sending y)).answer? = y.parcel.meaning.bind Sent.answer? := by
  rw [Program.answer?, hw.handover, Option.bind_some]

lemma answer? (hpoint : ∀ y, point ≠ .sending y) : (w point).answer? = none := by
  rcases hw with rfl | rfl
  · cases point with
    | sending y => exact absurd rfl (hpoint y)
    | _ => rfl
  · cases point with
    | sending y => exact absurd rfl (hpoint y)
    | _ => rfl

/-- After its last response an execution holds no task, and at most that response. -/
lemma lastWords (t : Transit) :
    (t.lastWords.map w).program.tasks = [] ∧ (t.lastWords.map w).program.answer? = t.answer? ∧
      (t.lastWords.map w).program.owesClose = false := by
  cases t with
  | done r =>
    exact ⟨hw.tasks .over (by simp), hw.answer? .over (by simp), hw.owesClose .over⟩
  | waiting y =>
    exact ⟨hw.tasks (.sending y) (by simp), hw.answer?_sending y, hw.owesClose (.sending y)⟩

end Executes

namespace Affairs

variable {i : SessionId} {c : ChannelId} {a a' b : Affairs} {p : ProcessId} {k : ContextId} {t : Transit}
  {program next : Program} {x : Process} {w : RunPoint → Program} {point : RunPoint}

lemma line_eq (a : Affairs) (program : Program) :
    a.line program = a.flight ++ (program.tasks ++ a.queue).map (·.context) :=
  rfl

lemma flight_eq_nil (h : a.session.inFlight = none) : a.flight = [] := by
  rw [flight, h]
  rfl

lemma flight_eq_singleton {f : InFlight} (h : a.session.inFlight = some f) : a.flight = [f.context] := by
  rw [flight, h]
  rfl

lemma queue_land (a : Affairs) : a.land.queue = a.queue :=
  rfl

lemma line_congr (session : b.session = a.session) (tasks : next.tasks = program.tasks) :
    b.line next = a.line program := by
  rw [line_eq, line_eq, tasks, flight, flight, queue, queue, session]

/-- Once no task is in flight any more and the program holds none, only those in the queue are in line. -/
lemma line_landed (session : b.session = a.land.session) (tasks : next.tasks = []) :
    b.line next = a.queue.map (·.context) := by
  rw [line_eq, tasks, flight, queue, session]
  rfl

/-- While a task is in flight, the time of the session is not up. -/
lemma Staffed.inTime (h : a.Staffed i c) {f : InFlight} (busy : a.session.inFlight = some f) :
    a.session.timedOut = none := by
  cases hlate : a.session.timedOut with
  | none => rfl
  | some elapsed => cases (h.landed (hlate ▸ rfl)).symm.trans busy

lemma disarm_sent (a : Affairs) : a.disarm.sent = a.sent := by
  rw [disarm]
  cases a.session.cancelFuture with
  | none => rfl
  | some e => exact stop_sent a e

/-- What is sent is no order to close, and the process holds the tasks that it held. -/
lemma Deed.passes {m : Option Sent} (mails : a.Mails c m a' t) (tasks : next.tasks = program.tasks)
    (answer : program.answer? = m.bind Sent.answer?) (answer' : next.answer? = t.answer?) (noClose : m ≠ some .close)
    (settled : next.owesClose = false) : ∃ put refused, Deed a program a' next none put refused := by
  obtain ⟨hsession, -, -⟩ := mails.frame
  exact Deed.mails mails rfl rfl (line_congr hsession tasks).symm answer answer' (fun h => absurd h noClose)
    (.settled (by rw [hsession]) settled)

/-- The session is over. -/
lemma Deed.finishes (tasks : program.tasks = []) (tasks' : next.tasks = []) (answer : program.answer? = next.answer?)
    (settled : next.owesClose = false) :
    Deed a program (a.onSession Session.finish).disarm next none none [] := by
  refine .quiet (Staffed.disarm_contexts _) (disarm_sent _) ?_ answer (.settled ?_ settled)
  · change (a.onSession Session.finish).line program = _
    exact (line_congr (Staffed.disarm_session _) (tasks'.trans tasks.symm)).symm
  · rw [Staffed.disarm_session]
    rfl

/-- After the time of the session is up, the first of the tasks that a process holds is told so. -/
lemma Deed.refuses {u : Task} {rest : List Task} {elapsed : Nat} (late : a.session.timedOut = some elapsed)
    (idle : a.session.inFlight = none)
    (answers : b.Answers c u.context (System.timeoutResponse elapsed true) a' t) (session : b.session = a.session)
    (contexts : b.contexts = a.contexts) (sent : b.sent = a.sent) (nodup : (a.due program).Nodup)
    (tasks : program.tasks = u :: rest) (tasks' : next.tasks = rest) (answer : program.answer? = none)
    (answer' : next.answer? = t.answer?) (owes : next.owesClose = true → program.owesClose = true) :
    ∃ new put refused, Deed a program a' next new put refused := by
  have hsession : a'.session = a.session := answers.frame.1.trans session
  refine Deed.answers ((rest ++ a.queue).map (·.context)) answers contexts sent nodup ?_ (.inl ?_) answer answer'
    (fun _ => rfl) (System.concludes_timeoutResponse elapsed true) (fun e he => ?_) (.steady (by rw [hsession]) owes)
  · rw [line_eq, flight_eq_nil idle, tasks]
    rfl
  · rw [line_eq, tasks', flight, queue, hsession]
    exact congrArg (· ++ _) (flight_eq_nil idle)
  · rw [hsession] at he
    cases late.symm.trans he
    rfl

/-- The task in flight, if there is one, is the first in line. -/
lemma Deed.interrupts {elapsed : Nat} {ofSession : Bool} (interrupts : b.Interrupts c elapsed ofSession a' t)
    (inFlight : b.session.inFlight = a.session.inFlight) (contexts : b.contexts = a.contexts) (sent : b.sent = a.sent)
    (nodup : (a.due program).Nodup) (tasks : program.tasks = []) (line : a'.line next = a.queue.map (·.context))
    (answer : program.answer? = none) (answer' : next.answer? = t.answer?)
    (tells : a.session.inFlight ≠ none → ∀ e, a'.session.timedOut = some e → e = elapsed ∧ ofSession = true)
    (ages : a.Ages program a' next) : ∃ new put refused, Deed a program a' next new put refused := by
  cases interrupts with
  | nobody idle =>
    refine ⟨none, none, [], .quiet contexts sent ?_ (answer.trans answer'.symm) ages⟩
    rw [line, line_eq, flight_eq_nil (inFlight.symm.trans idle), tasks]
    rfl
  | @somebody f _ _ busy answers =>
    have hbusy : a.session.inFlight = some f := inFlight.symm.trans busy
    refine Deed.answers (a.queue.map (·.context)) answers ((stop_contexts ..).trans contexts)
      ((stop_sent ..).trans sent) nodup ?_ (.inl line) answer answer' (fun _ => rfl)
      (System.concludes_timeoutResponse elapsed ofSession) (fun e he => ?_) ages
    · rw [line_eq, flight_eq_singleton hbusy, tasks]
      rfl
    · obtain ⟨rfl, rfl⟩ := tells (by rw [hbusy]; exact Option.some_ne_none f) e he
      rfl

/-- The task in flight, if there is one, is answered for in time. -/
lemma Staffed.deed_interrupts (h : a.Staffed i c) {elapsed : Nat} {ofSession : Bool}
    (interrupts : a.Interrupts c elapsed ofSession a' t) (nodup : (a.due program).Nodup) (tasks : program.tasks = [])
    (tasks' : next.tasks = []) (answer : program.answer? = none) (answer' : next.answer? = t.answer?)
    (owes : next.owesClose = true → program.owesClose = true) :
    ∃ new put refused, Deed a program a' next new put refused := by
  obtain ⟨hsession, -⟩ := interrupts.frame
  have hlate : a'.session.timedOut = a.session.timedOut := by rw [hsession]; rfl
  refine Deed.interrupts interrupts rfl rfl rfl nodup tasks (line_landed hsession tasks') answer answer'
    (fun hbusy e he => ?_) (.steady hlate owes)
  obtain ⟨f, hf⟩ := Option.ne_none_iff_exists'.mp hbusy
  cases (h.inTime hf).symm.trans (hlate.symm.trans he)

/-- A step of the execution of a task. -/
lemma Staffed.deed_run (h : a.Staffed i c) (hw : Executes i w) (hx : a.processes[p]? = some x)
    (program : x.program = w point) (nodup : (a.due (w point)).Nodup) {turn : Turn RunPoint}
    (step : a.RunStep c point a' turn) :
    ∃ new put refused, Deed a (w point) a' (turn.map w).program new put refused := by
  have hexecutes : x.program.executes = true := program ▸ hw.executes point
  have hpoint : a.point? = some point := (h.point?_eq hx hexecutes).trans (program ▸ hw.runPoint point)
  have hidle (hnot : ∀ u y d, point ≠ .joining u y d) : a.session.inFlight = none :=
    h.idle hx hexecutes fun u y d hy => by
      rw [program, hw.runPoint] at hy
      exact hnot u y d (Option.some.inj hy)
  have howes (next : RunPoint) : (w next).owesClose = true → (w point).owesClose = true := fun hn => by
    rw [hw.owesClose] at hn
    cases hn
  cases step with
  | begins u handler deadline inTime =>
    refine ⟨none, none, [], .quiet rfl rfl ?_ ?_ (.steady rfl (howes _))⟩
    · rw [line_eq, line_eq, flight_eq_nil (hidle fun u y d h => by cases h), hw.tasks_start]
      change _ = [u.context] ++ List.map _ ((w _).tasks ++ a.queue)
      rw [hw.tasks _ (by simp)]
      rfl
    · rw [hw.answer? _ (by simp)]
      exact (hw.answer? _ (by simp)).symm
  | @refuses u handler elapsed late _ t answers =>
    rw [launch_stop] at answers
    obtain ⟨htasks, hanswer, howes'⟩ := hw.lastWords t
    refine Deed.refuses late (hidle fun u y d h => by cases h) answers rfl rfl rfl nodup (hw.tasks_start u) htasks
      (hw.answer? _ (by simp)) hanswer fun hn => ?_
    cases howes'.symm.trans hn
  | stopped u deadline ended =>
    have hnone := h.idle_of_stopped hpoint ended
    refine ⟨none, none, [], .quiet rfl rfl ?_ ?_ (.steady rfl (howes .over))⟩
    · rw [line_eq, line_eq, flight_eq_nil hnone, flight_eq_nil (a := a.land) rfl, queue_land]
      rw [hw.tasks _ (by simp)]
      exact congrArg (fun tasks => List.map _ (tasks ++ a.queue)) (hw.tasks .over (by simp)).symm
    · rw [hw.answer? _ (by simp)]
      exact (hw.answer? .over (by simp)).symm
  | @returned u y deadline result ended _ t answers =>
    obtain ⟨htasks, hanswer, howes'⟩ := hw.lastWords t
    obtain ⟨hsession, -⟩ := answers.frame
    have hline : a'.line (t.lastWords.map w).program = a.queue.map (·.context) := line_landed hsession htasks
    have hlate : a'.session.timedOut = a.session.timedOut := by rw [hsession]; rfl
    have hages : a.Ages (w (.joining u y deadline)) a' (t.lastWords.map w).program := .settled hlate howes'
    cases hf : a.session.inFlight with
    | none =>
      have hclosed := h.joined u y deadline hpoint hf
      cases answers with
      | already known finished =>
        refine ⟨none, none, [], .quiet rfl rfl ?_ ?_ hages⟩
        · rw [hline, line_eq, flight_eq_nil hf, hw.tasks _ (by simp)]
          rfl
        · rw [hanswer]
          exact hw.answer? _ (by simp)
      | first known open_ mails =>
        rw [isOpen, show a.contexts[u.context]? = _ from known, Option.any_some, open_] at hclosed
        cases hclosed
    | some f =>
      obtain ⟨u', d, hjoining, hcontext⟩ := h.joining f hf
      cases hpoint.symm.trans hjoining
      refine Deed.answers (a.queue.map (·.context)) answers rfl rfl nodup ?_ (.inl hline) ?_ hanswer
        (System.request_concluding result) (System.concludes_concluding result) (fun e he => ?_) hages
      · rw [line_eq, flight_eq_singleton hf, hw.tasks _ (by simp), hcontext]
        rfl
      · exact hw.answer? _ (by simp)
      · cases (h.inTime hf).symm.trans (hlate.symm.trans he)
  | @expires u y deadline budget _ t interrupts =>
    obtain ⟨htasks, hanswer, howes'⟩ := hw.lastWords t
    refine h.deed_interrupts interrupts nodup (hw.tasks _ (by simp)) htasks (hw.answer? _ (by simp)) hanswer fun hn => ?_
    cases howes'.symm.trans hn
  | waits u y deadline => exact ⟨none, none, [], .quiet rfl rfl rfl rfl (.steady rfl id)⟩
  | @mails y _ t mails =>
    obtain ⟨htasks, hanswer, howes'⟩ := hw.lastWords t
    refine ⟨none, Deed.passes mails (htasks.trans (hw.tasks _ (by simp)).symm) (hw.answer?_sending y) hanswer
      (fun hclose => ?_) howes'⟩
    have hfollows := (h.serves p x hx).follows y (by rw [program]; exact hw.handover y) hclose
    rw [program, hw.owesClose] at hfollows
    cases hfollows

/-- A step of the worker. -/
lemma Staffed.deed_worker (h : a.Staffed i c) {point : WorkerPoint} (hx : a.processes[p]? = some x)
    (program : x.program = .worker i point) (nodup : (a.due (.worker i point)).Nodup) {turn : Turn WorkerPoint}
    (step : a.WorkerStep c point a' turn) :
    ∃ new put refused, Deed a (.worker i point) a' (turn.map (.worker i)).program new put refused := by
  cases step with
  | takes some =>
    refine ⟨none, none, [], .quiet rfl rfl ?_ rfl (.steady ?_ id)⟩
    · rw [line_eq, line_eq, queue_of_dequeue? some]
      obtain ⟨b, rest, -, -, rfl⟩ := Session.dequeue?_eq_some some
      rfl
    · obtain ⟨b, rest, -, -, rfl⟩ := Session.dequeue?_eq_some some
      rfl
  | rests none accepting => exact ⟨.none, .none, [], .quiet rfl rfl rfl rfl (.steady rfl id)⟩
  | ends none closed =>
    exact ⟨.none, .none, [], .finishes rfl rfl rfl rfl⟩
  | hears notified =>
    refine ⟨none, none, [], .quiet rfl rfl ?_ rfl (.steady rfl id)⟩
    rw [line_eq, line_eq, queue_setNotified]
    rfl
  | waits unnotified => exact ⟨none, none, [], .quiet rfl rfl rfl rfl (.steady rfl id)⟩
  | leaves => exact ⟨none, none, [], .quiet rfl rfl rfl rfl (.steady rfl id)⟩
  | @runs point _ turn step =>
    have hrun := h.deed_run (w := fun point => .worker i (.running point)) (.inr rfl) hx program nodup step
    cases turn <;> exact hrun

/-- A step of the only task. -/
lemma Staffed.deed_single (h : a.Staffed i c) (hx : a.processes[p]? = some x) (program : x.program = .single i point)
    (nodup : (a.due (.single i point)).Nodup) {turn : Turn RunPoint} (step : a.SingleStep c point a' turn) :
    ∃ new put refused, Deed a (.single i point) a' (turn.map (.single i)).program new put refused := by
  cases step with
  | runs step => exact h.deed_run (.inl rfl) hx program nodup step
  | ends => exact ⟨none, none, [], .finishes rfl rfl rfl rfl⟩

/-! ### Time -/

section Timeout

variable {elapsed : Nat} {ofSession : Bool} {point next : TimeoutPoint}

/-- Where something that is sent leads to. -/
lemma lead_timeout (i : SessionId) (elapsed : Nat) (ofSession : Bool) {m : Sent} (follows : TimeoutPoint.Follows m next)
    (carries : t.Carries c (some m)) :
    ((t.lead (fun _ => next) (.sending · next)).map (.timeout i elapsed ofSession)).program.tasks = next.tasks ∧
      ((t.lead (fun _ => next) (.sending · next)).map (.timeout i elapsed ofSession)).program.answer? = t.answer? ∧
      (((t.lead (fun _ => next) (.sending · next)).map (.timeout i elapsed ofSession)).program.owesClose = true →
        next.owesClose = true ∨ m = .close) ∧
      ((∃ r, t = .done r) →
        ((t.lead (fun _ => next) (.sending · next)).map (.timeout i elapsed ofSession)).program.owesClose =
          next.owesClose) ∧
      (next.owesClose = true →
        ((t.lead (fun _ => next) (.sending · next)).map (.timeout i elapsed ofSession)).program.owesClose = true) := by
  cases t with
  | done r =>
    refine ⟨rfl, ?_, fun h => .inl h, fun _ => rfl, id⟩
    cases follows <;> rfl
  | waiting y =>
    obtain ⟨-, hmeaning⟩ := carries y rfl
    refine ⟨rfl, rfl, fun h => ?_, fun h => ?_, fun h => ?_⟩
    · rcases Bool.or_eq_true_iff.mp h with h | h
      · rw [hmeaning] at h
        cases m with
        | close => exact .inr rfl
        | response r => cases h
      · exact .inl h
    · obtain ⟨r, hr⟩ := h
      cases hr
    · exact Bool.or_eq_true_iff.mpr (.inr h)

/-- A step of the end of the time of the session or of a task. -/
lemma Staffed.deed_timeout (h : a.Staffed i c) (hx : a.processes[p]? = some x)
    (program : x.program = .timeout i elapsed ofSession point)
    (nodup : (a.due (.timeout i elapsed ofSession point)).Nodup) {turn : Turn TimeoutPoint}
    (step : a.TimeoutStep c elapsed ofSession point a' turn) :
    ∃ new put refused, Deed a (.timeout i elapsed ofSession point) a'
      (turn.map (.timeout i elapsed ofSession)).program new put refused := by
  have hserves := h.serves p x hx
  have hcharge (hpoint : point.inCharge = true) : a.session.timedOut = some elapsed :=
    (hserves.charge i elapsed ofSession point program hpoint).2
  cases step with
  | late kind late => exact ⟨none, none, [], .quiet rfl rfl rfl rfl (.steady rfl fun h => (by cases h))⟩
  | @expires kind inTime _ t interrupts =>
    obtain ⟨hsession, -⟩ := interrupts.frame
    obtain ⟨r, hconcludes, hcarries⟩ := interrupts.carries
    obtain ⟨htasks, hanswer, -, -, howes⟩ := lead_timeout i elapsed ofSession
      (.draining r hconcludes) hcarries
    generalize hnext :
      ((t.lead (fun _ => .draining) (.sending · .draining)).map (.timeout i elapsed ofSession)).program = next at *
    have hline : a'.line next = a.queue.map (·.context) := line_landed (a := a.expire elapsed) hsession htasks
    have hages : a.Ages (.timeout i elapsed ofSession .start) a' next := by
      refine ⟨fun _ => .inr ⟨inTime, ?_⟩, fun _ _ => howes rfl, fun e he => ?_⟩
      · rw [hsession]
        rfl
      · cases inTime.symm.trans he
    refine Deed.interrupts interrupts rfl rfl rfl nodup rfl hline rfl hanswer (fun _ e he => ?_) hages
    rw [hsession] at he
    cases he
    exact ⟨rfl, rfl⟩
  | @interrupts kind _ t interrupts =>
    obtain ⟨r, hconcludes, hcarries⟩ := interrupts.carries
    obtain ⟨htasks, hanswer, howes, -, -⟩ := lead_timeout i elapsed ofSession
      (.over r hconcludes) hcarries
    refine h.deed_interrupts interrupts nodup rfl htasks rfl hanswer fun hn => ?_
    rcases howes hn with h | h <;> cases h
  | drains =>
    obtain ⟨backlog, hdrain, -, hempty⟩ := drain_snd a.session
    refine ⟨none, none, [], .quiet rfl rfl ?_ rfl (.steady ?_ fun _ => rfl)⟩
    · rw [line_eq, line_eq, drain_fst, flight, flight, queue, hdrain]
      change _ = _ ++ List.map _ (Affairs.queue a ++ (backlog.map (·.tasks)).getD [])
      rw [hempty, List.append_nil]
      rfl
    · rw [hdrain]
  | @answers u rest _ t answers =>
    obtain ⟨r, hconcludes, hcarries⟩ := answers.carries fun _ => System.concludes_timeoutResponse ..
    obtain ⟨htasks, hanswer, -, -, -⟩ := lead_timeout i elapsed ofSession
      (.answering r hconcludes rest) hcarries
    exact Deed.refuses (hcharge rfl) (h.landed (hcharge rfl ▸ rfl)) answers rfl rfl rfl nodup rfl htasks rfl hanswer
      fun _ => rfl
  | notifies =>
    refine ⟨none, none, [], .quiet rfl rfl ?_ rfl (.steady rfl fun _ => rfl)⟩
    rw [line_eq, line_eq]
    change _ = _ ++ List.map _ (_ ++ (a.onSession (·.setNotified true)).queue)
    rw [queue_setNotified]
    rfl
  | @closes _ t closes =>
    obtain ⟨hsession, -, -⟩ := closes.frame
    obtain ⟨htasks, hanswer, -, hdone, -⟩ := lead_timeout i elapsed ofSession
      .disarming closes.carries
    have hline : a.line (.timeout i elapsed ofSession .closing) = a'.line
        ((t.lead (fun _ => .disarming) (.sending · .disarming)).map (.timeout i elapsed ofSession)).program :=
      (line_congr hsession htasks).symm
    have hages : a.Ages (.timeout i elapsed ofSession .closing) a'
        ((t.lead (fun _ => .disarming) (.sending · .disarming)).map (.timeout i elapsed ofSession)).program :=
      .steady (by rw [hsession]) fun _ => rfl
    cases closes with
    | already closed => exact ⟨none, none, [], .quiet rfl rfl hline hanswer.symm hages⟩
    | first notClosed mails =>
      exact ⟨none, Deed.mails mails rfl rfl hline rfl hanswer (fun _ => ⟨rfl, hdone⟩) hages⟩
  | disarms =>
    refine ⟨none, none, [], .quiet (disarm_contexts _) (disarm_sent _) ?_ rfl (.steady ?_ fun h => ?_)⟩
    · exact (line_congr (disarm_session _) rfl).symm
    · rw [disarm_session]
    · cases h
  | @mails y next _ t mails =>
    obtain ⟨m, hm, hfollows⟩ := hserves.resumes i elapsed ofSession y next program
    obtain ⟨hsession, -, -⟩ := mails.frame
    rw [hm] at mails
    obtain ⟨htasks, hanswer, howes, hdone, -⟩ := lead_timeout i elapsed ofSession
      hfollows mails.carries
    have howed : (Program.timeout i elapsed ofSession (.sending y next)).owesClose = (m.isClose || next.owesClose) := by
      change (y.parcel.meaning.any _ || _) = _
      rw [hm]
      rfl
    refine ⟨none, Deed.mails mails rfl rfl (line_congr hsession htasks).symm ?_ hanswer (fun hclose => ?_)
      (.steady (by rw [hsession]) fun hn => ?_)⟩
    · rw [← hm]
      rfl
    · cases hclose
      refine ⟨howed, fun hr => (hdone hr).trans ?_⟩
      cases hfollows
      rfl
    · rw [howed]
      rcases howes hn with h | rfl
      · rw [h, Bool.or_true]
      · rfl
  | leaves => exact ⟨none, none, [], .quiet rfl rfl rfl rfl (.steady rfl fun h => (by cases h))⟩

end Timeout

/-! ### Handlers -/

/-- A handler holds no tasks, and at most the response with which it waits. -/
lemma lead_handler (next : Except Error Unit → Handler) :
    ((handlerTurn t next).map (.handler k)).program.tasks = [] ∧
      ((handlerTurn t next).map (.handler k)).program.answer? = t.answer? ∧
      ((handlerTurn t next).map (.handler k)).program.owesClose = false := by
  cases t <;> exact ⟨rfl, rfl, rfl⟩

/-- A step of a handler that is not stopped. -/
lemma Staffed.deed_handler (h : a.Staffed i c) {point : HandlerPoint} (hx : a.processes[p]? = some x)
    (program : x.program = .handler k point) (goes : x.cancelled = false) (nodup : (a.due (.handler k point)).Nodup)
    {turn : Turn HandlerPoint} (step : a.HandlerStep c k point a' turn) :
    ∃ new put refused, Deed a (.handler k point) a' (turn.map (.handler k)).program new put refused := by
  have hbusy := (h.serves p x hx).handler k point program goes
  cases step with
  | @streams data next request _ t mails =>
    obtain ⟨htasks, hanswer, howes⟩ := lead_handler (t := t) (k := k) next
    exact ⟨none, Deed.passes mails htasks rfl hanswer (by simp) howes⟩
  | @answers call terminal next y known open_ _ t mails =>
    obtain ⟨htasks, hanswer, howes⟩ := lead_handler (t := t) (k := k) next
    obtain ⟨hsession, -, -⟩ := mails.frame
    have hanswers : a.Answers c k call.response a' t := .first known open_ mails
    have hline : a.line (.handler k (.ready (.call call next))) = k :: a.queue.map (·.context) := by
      rw [line_eq, flight_eq_singleton hbusy]
      rfl
    refine Deed.answers _ hanswers rfl rfl nodup hline (.inr ?_) rfl hanswer (Call.request_response call)
      (Call.concludes_response terminal) (fun e he => ?_) (.settled (by rw [hsession]; rfl) howes)
    · rw [line_eq, htasks, flight, queue, hsession]
      exact hline
    · rw [hsession] at he
      cases (h.inTime hbusy).symm.trans he
  | @mails y next _ t mails =>
    obtain ⟨htasks, hanswer, howes⟩ := lead_handler (t := t) (k := k) next
    refine ⟨none, Deed.passes mails htasks rfl hanswer (fun hclose => ?_) howes⟩
    have hfollows := (h.serves p x hx).follows y (by rw [program]; rfl) hclose
    rw [program] at hfollows
    cases hfollows
  | _ => exact ⟨none, none, [], .quiet rfl rfl rfl rfl (.steady rfl id)⟩

/-! ### Every step -/

/-- Every step of a process is a deed, unless it is a handler that was stopped. -/
theorem Effect.deed (h : a.Staffed i c) (hx : a.processes[p]? = some x)
    (goes : ∀ k point, x.program = .handler k point → x.cancelled = false) (nodup : (a.due x.program).Nodup)
    {turn : Turn Program} (effect : a.Effect c i x.program a' turn) :
    ∃ new put refused, Deed a x.program a' turn.program new put refused := by
  have hserves := h.serves p x hx
  generalize hprogram : x.program = program at *
  cases effect with
  | handler k step =>
    have hstep := h.deed_handler hx hprogram (goes k _ rfl) nodup step
    rename_i turn
    cases turn <;> exact hstep
  | single step =>
    have hstep := h.deed_single hx hprogram nodup step
    rename_i turn
    cases turn <;> exact hstep
  | worker step => exact h.deed_worker hx hprogram nodup step
  | timeout elapsed ofSession step => exact h.deed_timeout hx hprogram nodup step
  | writes channel turn =>
    refine ⟨none, none, [], ?_⟩
    cases turn <;> exact .quiet rfl rfl rfl rfl (.steady rfl fun h => by cases h)
  | @delivers d point _ t mails =>
    have hconcerns := hserves.concerns
    rw [hprogram] at hconcerns
    obtain ⟨-, -, hpoint⟩ := hconcerns
    have hnext : ((t.delivered d).map (.delivery c d)).program.tasks = [] ∧
        ((t.delivered d).map (.delivery c d)).program.answer? = t.answer? ∧
        ((t.delivered d).map (.delivery c d)).program.owesClose = false := by
      cases t <;> exact ⟨rfl, rfl, rfl⟩
    obtain ⟨htasks, hanswer, howes⟩ := hnext
    refine ⟨none, Deed.passes mails htasks ?_ hanswer (by simp) howes⟩
    cases point with
    | start => rfl
    | sending y =>
      change y.parcel.meaning.bind _ = _
      rw [hpoint y rfl, Option.bind_none]
  | rings milliseconds due =>
    exact ⟨none, none, [], .quiet rfl rfl rfl rfl (.steady rfl fun h => by cases h)⟩
  | _ => exact ⟨none, none, [], .quiet rfl rfl rfl rfl (.steady rfl id)⟩

end Affairs

end GraphServer
