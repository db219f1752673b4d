import GraphServer.Proofs.Session.Attention
import GraphServer.Proofs.Session.Books
import GraphServer.Proofs.Session.Launch

/-!
The tasks of a session stand in line.

* `Affairs.Alone`: only the process that has its turn has tasks in hand, and nobody waits with a last response;
* `Affairs.Row`: the tasks that were accepted first are answered, in order, and all others are due, in order;
* `Affairs.Roll`: handlers are started in that order, and only the last one takes steps;
* `Affairs.Room`: no more tasks wait than may wait;
* `Affairs.Lineup.performs`: one step of a process;
* `Course.lineup`: **so it is in the whole course of the affairs**, as long as no turn is cut short and every last
  response gets into the queue at once.
-/

namespace GraphServer

open Affairs

variable {i : SessionId} {c : ChannelId} {o a a' b : Affairs} {p : ProcessId} {program next : Program}
  {turning : Option ProcessId} {turn : Turn Program} {accepted accepted' : List Task} {steps : List Step} {x : Step}
  {limit : Nat}

/-! ### Where processes wait -/

/-- Where a process may wait in the execution of a task, it is not about to begin one. -/
lemma Affairs.RunStep.waits_ne_start {point next : RunPoint} {turn : Turn RunPoint}
    (step : a.RunStep c point a' turn) (waits : turn = .wait next) (t : Task) : next ≠ .start t := by
  have hlast (u : Transit) (hu : u.lastWords = .wait next) : next ≠ .start t := by
    cases u with
    | done result => cases hu
    | waiting h =>
      cases hu
      intro h
      cases h
  cases step with
  | begins t handler deadline inTime => cases waits
  | refuses t handler late answers => exact hlast _ waits
  | stopped t deadline ended => cases waits
  | returned t deadline ended answers => exact hlast _ waits
  | expires t h deadline budget interrupts => exact hlast _ waits
  | waits t h deadline =>
    cases waits
    intro h
    cases h
  | mails h mails => exact hlast _ waits

/-- The process that ends the time of a session only waits with what it sends. -/
lemma Affairs.TimeoutStep.waits_sending {elapsed : Nat} {ofSession : Bool} {point next : TimeoutPoint}
    {turn : Turn TimeoutPoint} (step : a.TimeoutStep c elapsed ofSession point a' turn) (waits : turn = .wait next) :
    ∃ y rest, next = .sending y rest := by
  have hlead (u : Transit) (rest : TimeoutPoint) (hu : u.lead (fun _ => rest) (.sending · rest) = .wait next) :
      ∃ y rest, next = .sending y rest := by
    cases u with
    | done result => cases hu
    | waiting h =>
      cases hu
      exact ⟨h, rest, rfl⟩
  cases step with
  | expires kind inTime interrupts => exact hlead _ _ waits
  | interrupts kind interrupts => exact hlead _ _ waits
  | answers t rest answers => exact hlead _ _ waits
  | closes closes => exact hlead _ _ waits
  | mails h next mails => exact hlead _ _ waits
  | _ => cases waits

/-- A process that waits has no tasks in hand, unless it waits with something that it sends at the end of a session. -/
lemma Affairs.Effect.waits (effect : a.Effect c i program a' turn) (waits : turn = .wait next) :
    next.drains = false ∧ (next.tasks = [] ∨ ∃ elapsed ofSession y rest, next = .timeout i elapsed ofSession (.sending y rest)) := by
  cases effect with
  | handler k step =>
    rename_i turn
    cases turn <;> cases waits
    exact ⟨rfl, .inl rfl⟩
  | single step =>
    rename_i turn
    cases turn <;> cases waits
    refine ⟨rfl, .inl ?_⟩
    cases step with
    | runs step => exact Executes.tasks (.inl rfl) _ (step.waits_ne_start rfl)
  | worker step =>
    rename_i turn
    cases turn <;> cases waits
    refine ⟨rfl, .inl ?_⟩
    generalize hturn : Turn.wait _ = turn at step
    cases step with
    | waits unnotified =>
      cases hturn
      rfl
    | runs step =>
      rename_i turn
      cases turn <;> cases hturn
      exact Executes.tasks (i := i) (w := fun point => .worker i (.running point)) (.inr rfl) _
        (step.waits_ne_start rfl)
    | _ => cases hturn
  | timeout elapsed ofSession step =>
    rename_i turn
    cases turn <;> cases waits
    obtain ⟨y, rest, rfl⟩ := step.waits_sending rfl
    exact ⟨rfl, .inr ⟨elapsed, ofSession, y, rest, rfl⟩⟩
  | writes channel turn =>
    cases turn <;> cases waits
    exact ⟨rfl, .inl rfl⟩
  | delivers d point mails =>
    rename_i t
    cases t <;> cases waits
    exact ⟨rfl, .inl rfl⟩
  | sleeps milliseconds due =>
    cases waits
    exact ⟨rfl, .inl rfl⟩
  | idles result =>
    cases waits
    exact ⟨rfl, .inl rfl⟩
  | _ => cases waits

/-- What waits to close a channel has no tasks in hand any more. -/
lemma Process.Serves.tasks_of_sending {n : Nat} {s : Session} {y : Process} (h : y.Serves i c n s p) {j : SessionId}
    {elapsed : Nat} {ofSession : Bool} {z : Handover} {rest : TimeoutPoint}
    (sends : y.program = .timeout j elapsed ofSession (.sending z rest)) (silent : y.program.answer? = none) :
    y.program.tasks = [] := by
  obtain ⟨m, hm, hfollows⟩ := h.resumes j elapsed ofSession z rest sends
  rw [sends] at silent ⊢
  change z.parcel.meaning.bind Sent.answer? = none at silent
  change rest.tasks = []
  cases hfollows with
  | answering r concludes rest =>
    rw [hm, Option.bind_some, Sent.answer?, if_pos concludes] at silent
    cases silent
  | _ => rfl

lemma Program.drains_of_executes (executes : program.executes = true) : program.drains = false := by
  cases program with
  | timeout j elapsed ofSession point => cases executes
  | _ => rfl

/-! ### The line -/

namespace Affairs

/-- The program of the process that has its turn. -/
def acting (turning : Option ProcessId) (a : Affairs) : Program :=
  (turning.bind a.program?).getD (.finished none)

/-- Only the process that has its turn has tasks in hand, and nobody waits with a last response. -/
structure Alone (turning : Option ProcessId) (a : Affairs) : Prop where
  others : ∀ q program, a.program? q = some program → turning ≠ some q → program.tasks = []
  silent : ∀ q program, a.program? q = some program → program.answer? = none
  /-- Once the time is up nothing waits, or what waits is taken next. -/
  late : a.session.timedOut.isSome = true → a.queue = [] ∨ (a.acting turning).drains = true
  /-- No task is begun once the time is up. -/
  begun : (a.acting turning).executes = true → (a.acting turning).tasks ≠ [] → a.session.timedOut = none

/-- The tasks that were accepted first are answered, in order, and all others are due, in order. -/
def Row (accepted : List Task) (program : Program) (a : Affairs) : Prop :=
  ∃ past rest, accepted = past ++ rest ∧ rest.map (·.context) = a.due program ∧
    (Sent.answers a.sent).map (·.request) = past.map (some ·.request.id)

/-- Handlers are started in the order in which their tasks were accepted, and only the last one takes steps. -/
structure Roll (accepted : List Task) (steps : List Step) (program : Program) (a : Affairs) : Prop where
  started : ∃ later, accepted.map (·.context) = (steps.flatMap Step.started).map (·.2) ++ later ∧
    (a.session.timedOut = none → later = (program.tasks ++ a.queue).map (·.context))
  inFlight : ∀ f, a.session.inFlight = some f → (steps.flatMap Step.started).getLast? = some (f.handler, f.context)
  polled : ∀ before x after k point, steps = before ++ x :: after → x.program = .handler k point →
    x.turn.isSome = true → (before.flatMap Step.started).getLast?.map (·.2) = some k

/-- No more tasks wait than may wait. -/
def Room (limit : Nat) (a : Affairs) : Prop :=
  ∃ backlog, a.session.backlog = some backlog ∧ backlog.limit = limit ∧ backlog.tasks.length ≤ limit

/-- The tasks stand in line. -/
structure Lineup (limit : Nat) (turning : Option ProcessId) (accepted : List Task) (steps : List Step)
    (a : Affairs) : Prop where
  alone : Alone turning a
  row : Row accepted (a.acting turning) a
  roll : Roll accepted steps (a.acting turning) a
  room : Room limit a

lemma acting_of_place (place : a.program? p = some program) : a.acting (some p) = program := by
  rw [acting, Option.bind_some, place, Option.getD_some]

lemma due_of_tasks {other : Program} (a : Affairs) (tasks : program.tasks = other.tasks) :
    a.due program = a.due other := by
  rw [due, due, line, line, tasks]

/-- What all programs are like, one process moves on with, and handlers start with, they are like after it. -/
lemma Shift.forall_program {P : ProcessId → Program → Prop} (shift : a.Shift p program next b)
    (before : ∀ q other, a.program? q = some other → P q other) (moved : P p next)
    (started : ∀ q k handler, P q (.handler k (.ready handler))) : ∀ q other, b.program? q = some other → P q other := by
  intro q other hq
  rw [program?_eq] at hq
  rcases shift.before_cases hq with ⟨rfl, rfl⟩ | ⟨-, hq⟩ | ⟨k, handler, rfl⟩
  · exact moved
  · exact before q other ((program?_eq a q).trans hq)
  · exact started q k handler

/-! ### One step -/

/-- When every last response gets into the queue at once, it is the one of the context that is answered. -/
lemma Post.prompt {new : Option (ContextId × Response)} {put : Option Sent} {refused : List Response}
    (post : Post a program a' next new put refused) (before : x.before.Shows i c a) (after : x.after.Shows i c a')
    (ends : x.next = next) (silent : program.answer? = none) (prompt : x.IsPrompt c) :
    next.answer? = none ∧ (new.map (·.2)).toList = Sent.answers put.toList := by
  obtain ⟨hnext, hcount⟩ := prompt
  rw [ends] at hnext
  have hmail := post.mail
  rw [silent, hnext, Option.toList_none, List.nil_append, List.append_nil] at hmail
  rw [before.sentOff, after.sentOff, before.sentOver, after.sentOver, post.countP, post.sent, Sent.answers_append,
    List.length_append] at hcount
  have hlength := congrArg List.length hmail
  have hnew : (new.map (·.2)).toList.length = new.toList.length := by cases new <;> rfl
  rw [List.length_append] at hlength
  have hrefused : refused = [] := List.eq_nil_of_length_eq_zero (by omega)
  rw [hrefused, List.append_nil] at hmail
  exact ⟨hnext, hmail⟩

/-- The first in line is answered, if anybody is. -/
lemma Row.deed (h : Row accepted program a) {intact : Prop} (custody : a.Custody accepted intact)
    {new : Option (ContextId × Response)} {put : Option Sent} {refused : List Response}
    (deed : Deed a program a' next new put refused) (prompt : (new.map (·.2)).toList = Sent.answers put.toList) :
    Row accepted next a' := by
  obtain ⟨past, rest, haccepted, hrest, hanswers⟩ := h
  have hline := deed.line
  rw [← hrest] at hline
  have hsent : (Sent.answers a'.sent).map (·.request) =
      past.map (some ·.request.id) ++ (new.map (·.2)).toList.map (·.request) := by
    rw [deed.sent, Sent.answers_append, List.map_append, hanswers, prompt]
  cases new with
  | none => exact ⟨past, rest, haccepted, hline, by simpa using hsent⟩
  | some e =>
    obtain ⟨k, r⟩ := e
    change rest.map (·.context) = k :: a'.due next at hline
    obtain ⟨t, rest', rfl, hcontext, hrest'⟩ := List.map_eq_cons_iff.mp hline
    have ht : t ∈ accepted := haccepted ▸ List.mem_append_right _ (List.mem_cons_self ..)
    obtain ⟨-, y, hy, -, hrequest, -⟩ := deed.answered k r rfl
    obtain ⟨z, hz, hid⟩ := custody.known t ht
    rw [hcontext, hy] at hz
    cases hz
    refine ⟨past ++ [t], rest', by rw [haccepted, List.append_assoc, List.singleton_append], hrest', ?_⟩
    rw [hsent, List.map_append, List.map_singleton, ← hid]
    change _ ++ [r.request] = _
    rw [hrequest]

/-- The process that has its turn takes a step. -/
lemma Alone.step (h : Alone (some p) a) (shift : a.Shift p program turn.program b)
    (moved : Calm a program a' turn ∨ ∃ t, Launches t a program a' turn) (session : b.session = a'.session)
    (silent : turn.program.answer? = none) : Alone (some p) b := by
  have hbefore : a.acting (some p) = program := acting_of_place ((program?_eq a p).trans shift.place)
  have hafter : b.acting (some p) = turn.program := acting_of_place ((program?_eq b p).trans shift.after_self)
  have hlate := h.late
  rw [hbefore] at hlate
  refine ⟨?_, shift.forall_program h.silent silent fun _ _ _ => rfl, fun hup => ?_, fun hexecutes htasks => ?_⟩
  · exact shift.forall_program (P := fun q other => some p ≠ some q → other.tasks = []) h.others
      (fun hturn => absurd rfl hturn) fun _ _ _ _ => rfl
  · rw [session] at hup
    rw [hafter, queue, session, ← queue]
    rcases moved with calm | ⟨t, launches⟩
    · cases htime : a.session.timedOut with
      | none => exact .inr (calm.expires htime hup silent)
      | some elapsed =>
        refine .inl ?_
        rcases hlate (htime ▸ rfl) with hqueue | hdrains
        · exact List.suffix_nil.mp (hqueue ▸ calm.suffix)
        · exact (calm.drains hdrains).1
    · rw [launches.session] at hup
      change a.session.timedOut.isSome = true at hup
      rw [launches.inTime] at hup
      cases hup
  · rw [hafter] at hexecutes htasks
    rw [session]
    rcases moved with calm | ⟨t, launches⟩
    · -- the task was taken from those that waited, so that the time was not up
      obtain ⟨hexecuted, hqueue⟩ := calm.takes hexecutes
      have htime : a.session.timedOut = none := by
        by_contra hup
        rcases hlate (Option.isSome_iff_ne_none.mpr hup) with hempty | hdrains
        · exact hqueue.elim htasks (absurd hempty)
        · cases (Program.drains_of_executes hexecuted).symm.trans hdrains
      by_contra hup
      have hdrains := calm.expires htime (Option.isSome_iff_ne_none.mpr hup) silent
      cases (Program.drains_of_executes hexecutes).symm.trans hdrains
    · exact absurd launches.empty htasks

lemma forall_append_cons {P : List Step → Step → Prop} (h : ∀ before x after, steps = before ++ x :: after → P before x)
    (last : P steps x) : ∀ before y after, steps ++ [x] = before ++ y :: after → P before y := by
  intro before y after heq
  rcases List.eq_nil_or_concat' after with rfl | ⟨rest, z, rfl⟩
  · obtain ⟨rfl, hx⟩ := List.append_inj' heq rfl
    cases hx
    exact last
  · rw [← List.cons_append, ← List.append_assoc] at heq
    obtain ⟨hsteps, -⟩ := List.append_inj' heq rfl
    exact h before y rest hsteps

/-- A handler that takes a step is the last one that was started. -/
lemma Roll.polled_concat (h : Roll accepted steps program a)
    (last : ∀ k point, x.program = .handler k point → x.turn.isSome = true → ∃ q, a.session.inFlight = some ⟨k, q⟩) :
    ∀ before y after k point, steps ++ [x] = before ++ y :: after → y.program = .handler k point →
      y.turn.isSome = true → (before.flatMap Step.started).getLast?.map (·.2) = some k := by
  intro before y after k point heq
  refine forall_append_cons (P := fun before y => y.program = .handler k point → y.turn.isSome = true →
    (before.flatMap Step.started).getLast?.map (·.2) = some k) (fun before y after heq => ?_) ?_ before y after heq
  · exact h.polled before y after k point heq
  · intro hprogram hturn
    obtain ⟨q, hq⟩ := last k point hprogram hturn
    rw [h.inFlight _ hq, Option.map_some]

/-- No handler is started in a step, or the next one. -/
lemma Roll.step (h : Roll accepted steps program a) (before : x.before.Shows i c a) (after : x.after.Shows i c a')
    (late : ∀ elapsed, a.session.timedOut = some elapsed → a'.session.timedOut = some elapsed)
    (moved : Calm a program a' turn ∨ ∃ t, Launches t a program a' turn)
    (last : ∀ k point, x.program = .handler k point → x.turn.isSome = true → ∃ q, a.session.inFlight = some ⟨k, q⟩) :
    Roll accepted (steps ++ [x]) turn.program a' := by
  have hpolled := h.polled_concat last
  obtain ⟨later, hlater, hearly⟩ := h.started
  rcases moved with calm | ⟨t, launches⟩
  · have hstarted : (steps ++ [x]).flatMap Step.started = steps.flatMap Step.started := by
      rw [List.flatMap_append, List.flatMap_singleton, calm.started before after, List.append_nil]
    refine ⟨⟨later, by rw [hstarted, hlater], fun htime => ?_⟩, fun f hf => ?_, hpolled⟩
    · have htime' : a.session.timedOut = none := by
        by_contra hup
        obtain ⟨elapsed, hup⟩ := Option.ne_none_iff_exists'.mp hup
        cases (late elapsed hup).symm.trans htime
      rw [hearly htime', calm.hands htime' htime]
    · rw [hstarted]
      exact h.inFlight f (calm.inFlight f hf)
  · have hstarted : (steps ++ [x]).flatMap Step.started =
        steps.flatMap Step.started ++ [(a.processes.length, t.context)] := by
      rw [List.flatMap_append, List.flatMap_singleton, launches.started before after]
    have hqueue : a'.queue = a.queue := by
      rw [queue, launches.session]
      rfl
    refine ⟨⟨a.queue.map (·.context), ?_, fun _ => ?_⟩, fun f hf => ?_, hpolled⟩
    · rw [hstarted, hlater, hearly launches.inTime, launches.tasks, List.map_append, List.map_append, List.append_assoc]
      rfl
    · rw [launches.empty, hqueue, List.nil_append]
    · rw [launches.session] at hf
      cases hf
      rw [hstarted, List.getLast?_concat]

lemma Room.step (h : Room limit a) (moved : Calm a program a' turn ∨ ∃ t, Launches t a program a' turn) :
    Room limit a' := by
  obtain ⟨backlog, hbacklog, hlimit, hlength⟩ := h
  rcases moved with calm | ⟨t, launches⟩
  · have hmap := calm.limit
    rw [hbacklog, Option.map_some] at hmap
    obtain ⟨backlog', hbacklog', hlimit'⟩ := Option.map_eq_some_iff.mp hmap
    have hsuffix := calm.suffix
    rw [queue, queue, hbacklog, hbacklog'] at hsuffix
    exact ⟨backlog', hbacklog', hlimit'.trans hlimit, hsuffix.length_le.trans hlength⟩
  · exact ⟨backlog, by rw [launches.session, ← hbacklog], hlimit, hlength⟩

namespace Lineup

/-- The line depends on nothing else. -/
lemma congr (h : Lineup limit turning accepted steps a) (session : b.session = a.session)
    (contexts : b.contexts = a.contexts) (processes : b.processes = a.processes) (sent : b.sent = a.sent) :
    Lineup limit turning accepted steps b := by
  obtain ⟨x, contexts', processes', closed, sent', awake⟩ := a
  obtain ⟨y, contexts'', processes'', closed', sent'', awake'⟩ := b
  cases session
  cases contexts
  cases processes
  cases sent
  exact ⟨⟨h.alone.others, h.alone.silent, h.alone.late, h.alone.begun⟩, h.row,
    ⟨h.roll.started, h.roll.inFlight, h.roll.polled⟩, h.room⟩

/-- A process takes a step. -/
lemma performs (h : Lineup limit (some p) accepted steps a) (staffed : a.Staffed i c) {intact : Prop}
    (custody : a.Custody accepted intact) (performs : a.Performs i c p x a' turn) (prompt : x.IsPrompt c) :
    Lineup limit (some p) accepted (steps ++ [x]) (a'.setProgram p turn.program) := by
  obtain ⟨y, hy, hprogram, hgoes⟩ := performs.process
  have hserves := staffed.serves p y hy
  rw [hprogram] at hgoes
  have hplace := performs.place
  have hacting : a.acting (some p) = x.program := acting_of_place hplace
  have hnext : x.next = turn.program := by rw [Step.next, performs.leads, Option.map_some, Option.getD_some]
  have hshift := performs.effect.shift hplace
  obtain ⟨new, put, refused, hdeed⟩ := Effect.deed staffed hy (hprogram ▸ hgoes)
    (hprogram ▸ custody.nodup_due hshift) (hprogram ▸ performs.effect)
  rw [hprogram] at hdeed
  obtain ⟨hsilent, hput⟩ := hdeed.prompt performs.before performs.after hnext (h.alone.silent p _ hplace) prompt
  have hmoved := performs.effect.calm_or_launches
    (fun elapsed ofSession point hpoint hcharge => (hserves.charge i elapsed ofSession point (hprogram.trans hpoint) hcharge).2)
    fun hexecutes htasks => h.alone.begun (hacting ▸ hexecutes) (hacting ▸ htasks)
  have hafter : (a'.setProgram p turn.program).acting (some p) = turn.program :=
    acting_of_place ((program?_eq _ p).trans hshift.after_self)
  have hrow := h.row
  have hroll := h.roll
  rw [hacting] at hrow hroll
  have hroll := hroll.step performs.before performs.after hdeed.ages.late hmoved fun k point hk _ =>
    ⟨p, hserves.handler k point (hprogram.trans hk) (hgoes k point hk)⟩
  have hroom := h.room.step hmoved
  refine ⟨h.alone.step hshift hmoved rfl hsilent, ?_, ?_, hroom⟩
  · rw [hafter]
    have hrow := hrow.deed custody hdeed hput
    exact hrow
  · rw [hafter]
    exact ⟨hroll.started, hroll.inFlight, hroll.polled⟩

/-- A process begins its turn with empty hands. -/
lemma begins (h : Lineup limit none accepted steps a) (p : ProcessId) : Lineup limit (some p) accepted steps a := by
  have htasks : (a.acting (some p)).tasks = [] := by
    rw [acting, Option.bind_some]
    cases hp : a.program? p with
    | none => rfl
    | some program => exact h.alone.others p program hp fun h => by cases h
  refine ⟨⟨fun q program hq _ => h.alone.others q program hq fun h => (by cases h), h.alone.silent, fun hup => ?_,
    fun _ hne => absurd htasks hne⟩, ?_, ?_, h.room⟩
  · exact .inl ((h.alone.late hup).resolve_right fun h => by cases h)
  · have hdue : a.due (a.acting (some p)) = a.due (a.acting none) := a.due_of_tasks htasks
    rw [Row, hdue]
    exact h.row
  · obtain ⟨later, hlater, hearly⟩ := h.roll.started
    refine ⟨⟨later, hlater, fun htime => ?_⟩, h.roll.inFlight, h.roll.polled⟩
    rw [hearly htime, htasks]
    rfl

/-- A process that ends its turn with empty hands leaves nothing that waits once the time is up. -/
lemma pauses (h : Lineup limit (some p) accepted steps a) (place : a.program? p = some program)
    (tasks : program.tasks = []) (drains : program.drains = false) : Lineup limit none accepted steps a := by
  have hacting : a.acting (some p) = program := acting_of_place place
  have hrow := h.row
  have hroll := h.roll
  rw [hacting] at hrow hroll
  refine ⟨⟨fun q other hq _ => ?_, h.alone.silent, fun hup => ?_, fun h => (by cases h)⟩, ?_, ?_, h.room⟩
  · by_cases hqp : q = p
    · subst hqp
      cases place.symm.trans hq
      exact tasks
    · exact h.alone.others q other hq fun hp => hqp (Option.some.inj hp).symm
  · refine .inl ((h.alone.late hup).resolve_right fun hdrains => ?_)
    rw [hacting, drains] at hdrains
    cases hdrains
  · rw [Row, show a.due (a.acting none) = a.due program from a.due_of_tasks tasks.symm]
    exact hrow
  · obtain ⟨later, hlater, hearly⟩ := hroll.started
    refine ⟨⟨later, hlater, fun htime => ?_⟩, hroll.inFlight, hroll.polled⟩
    rw [hearly htime, tasks]
    rfl

/-- A process that was stopped ends, with empty hands. -/
lemma stops (h : Lineup limit none accepted steps a) (place : a.program? p = some program)
    (before : x.before.Shows i c a) (after : x.after.Shows i c (a.finish p none)) (turn : x.turn = none) :
    Lineup limit none accepted (steps ++ [x]) (a.setProgram p (.finished none)) := by
  have hshift := Shift.stop place none
  have hstarted : (steps ++ [x]).flatMap Step.started = steps.flatMap Step.started := by
    have hlength : (a.finish p none).processes.length = a.processes.length := List.length_modify ..
    rw [List.flatMap_append, List.flatMap_singleton, Step.started, before.processes, after.processes,
      List.drop_eq_nil_of_le (by simp [hlength]), List.filterMap_nil, List.append_nil]
  refine ⟨⟨?_, hshift.forall_program h.alone.silent rfl fun _ _ _ => rfl, h.alone.late, h.alone.begun⟩, h.row,
    ⟨?_, ?_, ?_⟩, h.room⟩
  · exact hshift.forall_program (P := fun q other => none ≠ some q → other.tasks = []) h.alone.others (fun _ => rfl)
      fun _ _ _ _ => rfl
  · rw [hstarted]
    exact h.roll.started
  · rw [hstarted]
    exact h.roll.inFlight
  · refine h.roll.polled_concat fun k point _ hsome => ?_
    rw [turn] at hsome
    cases hsome

end Lineup

/-! ### From outside -/

/-- Something happens outside that no task has to do with. -/
lemma Lineup.extend (h : Lineup limit none accepted steps a) {extra : List Program}
    (programs : b.programs = a.programs ++ extra) (idle : ∀ y ∈ extra, y.tasks = [] ∧ y.answer? = none)
    (due : b.due (.finished none) = a.due (.finished none)) (queue : b.queue = a.queue)
    (inFlight : b.session.inFlight = a.session.inFlight) (timedOut : b.session.timedOut = a.session.timedOut)
    (limits : b.session.backlog.map (·.limit) = a.session.backlog.map (·.limit)) (sent : b.sent = a.sent) :
    Lineup limit none accepted steps b := by
  have hcases {q : ProcessId} {other : Program} (hq : b.program? q = some other) :
      a.program? q = some other ∨ other.tasks = [] ∧ other.answer? = none := by
    rw [program?_eq, programs] at hq
    rcases Nat.lt_or_ge q a.programs.length with hlt | hge
    · exact .inl ((program?_eq a q).trans ((List.getElem?_append_left hlt).symm.trans hq))
    · exact .inr (idle other (List.mem_of_getElem? ((List.getElem?_append_right hge).symm.trans hq)))
  refine ⟨⟨fun q other hq hturn => ?others, fun q other hq => ?silent, fun hup => ?late, fun h => (by cases h)⟩, ?row,
    ?roll, ?room⟩
  case others => exact (hcases hq).elim (fun hq => h.alone.others q other hq hturn) And.left
  case silent => exact (hcases hq).elim (h.alone.silent q other) And.right
  case late =>
    rw [timedOut] at hup
    rw [queue]
    exact h.alone.late hup
  case row =>
    rw [Row, sent]
    change ∃ past rest, _ ∧ _ = b.due (.finished none) ∧ _
    rw [due]
    exact h.row
  case roll =>
    refine ⟨?_, ?_, h.roll.polled⟩
    · rw [timedOut, queue]
      exact h.roll.started
    · rw [inFlight]
      exact h.roll.inFlight
  case room =>
    obtain ⟨backlog, hbacklog, hlimit, hlength⟩ := h.room
    rw [hbacklog, Option.map_some] at limits
    obtain ⟨backlog', hbacklog', hlimit'⟩ := Option.map_eq_some_iff.mp limits
    rw [Affairs.queue, Affairs.queue, hbacklog, hbacklog'] at queue
    change backlog'.tasks = backlog.tasks at queue
    exact ⟨backlog', hbacklog', hlimit'.trans hlimit, queue ▸ hlength⟩

/-- A context more is due to nobody. -/
lemma due_addContext (staffed : a.Staffed i c) (r : Request) :
    ((a.line (.finished none)).filter (a.addContext c r).isOpen) = a.due (.finished none) := by
  refine List.filter_congr fun k hk => ?_
  refine isOpen_addContext_lt c r ?_
  rw [line_eq] at hk
  rcases List.mem_append.mp hk with hk | hk
  · obtain ⟨f, hf, rfl⟩ := Option.map_eq_some_iff.mp (Option.mem_toList.mp hk)
    exact staffed.flight_lt f hf
  · obtain ⟨t, ht, rfl⟩ := List.mem_map.mp hk
    exact staffed.queued t ht

/-- A task is accepted and is the last in line. -/
lemma Lineup.enqueue (h : Lineup limit none accepted steps a) (staffed : a.Staffed i c) (r : Request)
    {backlog : Backlog} (some : a.session.backlog = some backlog) (accepting : a.session.accepting = true)
    (room : backlog.tasks.length < backlog.limit) :
    Lineup limit none (accepted ++ [a.nextTask r]) steps ((a.addContext c r).enqueue backlog (a.nextTask r)) := by
  have hinTime : a.session.timedOut = none := by
    by_contra hup
    cases (staffed.shut (Option.isSome_iff_ne_none.mpr hup)).symm.trans accepting
  have hqueue : a.queue = backlog.tasks := by
    rw [queue, some]
    rfl
  have hlater : ((a.addContext c r).enqueue backlog (a.nextTask r)).queue = a.queue ++ [a.nextTask r] := by
    rw [hqueue]
    rfl
  refine ⟨⟨h.alone.others, h.alone.silent, fun hup => ?_, fun h => (by cases h)⟩, ?_, ⟨?_, h.roll.inFlight,
    h.roll.polled⟩, ?_⟩
  · change a.session.timedOut.isSome = true at hup
    rw [hinTime] at hup
    cases hup
  · obtain ⟨past, rest, haccepted, hrest, hanswers⟩ := h.row
    refine ⟨past, rest ++ [a.nextTask r], by rw [haccepted, List.append_assoc], ?_, hanswers⟩
    have hline : ((a.addContext c r).enqueue backlog (a.nextTask r)).line (.finished none) =
        a.line (.finished none) ++ [a.contexts.length] := by
      rw [line_eq, line_eq, hlater, ← List.append_assoc, List.map_append, ← List.append_assoc]
      rfl
    change _ = (((a.addContext c r).enqueue backlog (a.nextTask r)).line (.finished none)).filter (a.addContext c r).isOpen
    rw [hline, List.filter_append, due_addContext staffed r, List.map_append, hrest]
    change a.due _ ++ [a.contexts.length] = a.due _ ++ _
    rw [List.filter_cons_of_pos (isOpen_addContext_self a c r), List.filter_nil]
    rfl
  · obtain ⟨later, hstarted, hearly⟩ := h.roll.started
    refine ⟨later ++ [a.contexts.length], ?_, fun _ => ?_⟩
    · rw [List.map_append, hstarted, List.append_assoc]
      rfl
    · rw [hearly hinTime]
      change a.queue.map (·.context) ++ [(a.nextTask r).context] =
        ((a.addContext c r).enqueue backlog (a.nextTask r)).queue.map (·.context)
      rw [hlater, List.map_append, List.map_singleton]
  · obtain ⟨backlog', hbacklog, hlimit, hlength⟩ := h.room
    cases some.symm.trans hbacklog
    refine ⟨_, rfl, hlimit, ?_⟩
    change (backlog.tasks ++ [_]).length ≤ limit
    rw [List.length_append, List.length_singleton]
    omega

/-- What is done from outside leaves the tasks in line. -/
lemma Outside.lineup (outside : a.Outside i c accepted b accepted') (staffed : a.Staffed i c)
    (h : Lineup limit none accepted steps a) : Lineup limit none accepted' steps b := by
  cases outside with
  | timeout elapsed ofSession =>
    refine h.extend (programs_addProcess a _) (fun y hy => ?_) rfl rfl rfl rfl rfl rfl
    cases List.mem_singleton.mp hy
    exact ⟨rfl, rfl⟩
  | traffic f =>
    refine h.extend (programs_addProcess a _) (fun y hy => ?_) rfl rfl rfl rfl rfl rfl
    cases List.mem_singleton.mp hy
    exact ⟨rfl, rfl⟩
  | declines r =>
    refine h.extend (List.append_nil _).symm (fun y hy => (by cases hy)) ?_ rfl rfl rfl rfl rfl
    exact due_addContext staffed r
  | enqueues r backlog accepting room => exact h.enqueue staffed r backlog accepting room
  | engages r backlog accepting vacant =>
    obtain ⟨b, hb, -⟩ := h.room
    cases backlog.symm.trans hb
  | closes =>
    have hqueue : (a.onSession Session.stopAccepting).notify.queue = a.queue :=
      queue_setNotified (a.onSession Session.stopAccepting) true
    refine h.extend (List.append_nil _).symm (fun y hy => (by cases hy)) ?_ hqueue rfl rfl ?_ rfl
    · rw [due, due, line_eq, line_eq, hqueue]
      rfl
    · change (a.session.backlog.map _).map _ = _
      rw [Option.map_map]
      rfl

/-- The tasks stand in line when the session is opened for many. -/
lemma Opened.lineup (opened : a.Opened i c) {backlog : Backlog} (many : a.session.backlog = some backlog) :
    Lineup backlog.limit none [] [] a := by
  have hfresh (tasks : backlog.tasks = []) (inTime : a.session.timedOut = none) (landed : a.session.inFlight = none)
      (sent : a.sent = []) (idle : ∀ y ∈ a.programs, y.tasks = [] ∧ y.answer? = none) :
      Lineup backlog.limit none [] [] a := by
    have hmem {q : ProcessId} {program : Program} (hq : a.program? q = some program) : program ∈ a.programs :=
      List.mem_of_getElem? ((program?_eq a q).symm.trans hq)
    have hqueue : a.queue = [] := by
      rw [queue, many]
      exact tasks
    have hline : a.line (.finished none) = [] := by
      rw [line_eq, hqueue, flight_eq_nil landed]
      rfl
    refine ⟨⟨fun q program hq _ => (idle program (hmem hq)).1, fun q program hq => (idle program (hmem hq)).2,
      fun _ => .inl hqueue, fun h => (by cases h)⟩, ⟨[], [], rfl, ?_, ?_⟩, ⟨⟨[], rfl, fun _ => ?_⟩, fun f hf => ?_,
      fun before x after k point h => ?_⟩, ⟨backlog, many, rfl, by simp [tasks]⟩⟩
    · change _ = a.due (.finished none)
      rw [due, hline]
      rfl
    · rw [sent]
      rfl
    · rw [hqueue]
      rfl
    · cases landed.symm.trans hf
    · exact absurd h (by simp)
  cases opened with
  | single name => cases many
  | multi name limit =>
    cases many
    refine hfresh rfl rfl rfl rfl fun y hy => ?_
    rcases List.mem_pair.mp hy with rfl | rfl <;> exact ⟨rfl, rfl⟩
  | watched name limit milliseconds =>
    cases many
    refine hfresh rfl rfl rfl rfl fun y hy => ?_
    rcases List.mem_cons.mp hy with rfl | hy
    · exact ⟨rfl, rfl⟩
    · rcases List.mem_pair.mp hy with rfl | rfl <;> exact ⟨rfl, rfl⟩

end Affairs

/-! ### The whole course -/

/-- The tasks stand in line in the whole course of the affairs, as long as no turn is cut short and every last response
gets into the queue at once. -/
lemma Course.lineup {whole : Bool} (h : Course i c o whole turning a accepted steps) {backlog : Backlog}
    (many : o.session.backlog = some backlog) (uncut : whole = true) (prompt : ∀ x ∈ steps, x.IsPrompt c) :
    Lineup backlog.limit turning accepted steps a := by
  induction h with
  | opens opened => exact opened.lineup many
  | outside course outside ih => exact outside.lineup course.staffed (ih uncut prompt)
  | misses p _ ended ih => exact (ih uncut prompt).congr rfl rfl rfl rfl
  | begins p _ ih => exact ((ih uncut prompt).begins p).congr rfl rfl rfl rfl
  | goes course performs ih =>
    obtain ⟨hsteps, hx⟩ := Books.forall_concat.mp prompt
    exact (ih uncut hsteps).performs course.staffed course.books.custody performs hx
  | cut _ ih => cases uncut
  | @waits _ p a a' _ _ x next spent course performs idle ih =>
    obtain ⟨hsteps, hx⟩ := Books.forall_concat.mp prompt
    have hperforms := (ih uncut hsteps).performs course.staffed course.books.custody performs hx
    obtain ⟨hdrains, hidle⟩ := performs.effect.waits rfl
    have hplace : (a'.setProgram p next).program? p = some next :=
      (program?_eq _ p).trans (performs.effect.shift performs.place).after_self
    have htasks : next.tasks = [] := by
      rcases hidle with htasks | ⟨elapsed, ofSession, y, rest, hnext⟩
      · exact htasks
      · obtain ⟨z, hz, rfl⟩ := Option.map_eq_some_iff.mp hplace
        have hstaffed := (course.waits spent performs idle).staffed
        exact (hstaffed.serves p z hz).tasks_of_sending hnext (hperforms.alone.silent p _ hplace)
    exact (hperforms.pauses hplace htasks hdrains).congr rfl rfl rfl rfl
  | @ends _ p a a' _ _ x result course performs ih =>
    obtain ⟨hsteps, hx⟩ := Books.forall_concat.mp prompt
    have hperforms := (ih uncut hsteps).performs course.staffed course.books.custody performs hx
    have hplace : (a'.setProgram p (.finished (some result))).program? p = some (.finished (some result)) :=
      (program?_eq _ p).trans (performs.effect.shift performs.place).after_self
    exact (hperforms.pauses hplace rfl rfl).congr rfl rfl rfl rfl
  | @stops _ a _ _ x p course process before after turn ih =>
    obtain ⟨hsteps, -⟩ := Books.forall_concat.mp prompt
    obtain ⟨y, hy, -⟩ := process
    have hplace : (a.drowse p).program? p = some y.program := by
      change a.program? p = _
      rw [Affairs.program?, hy, Option.map_some]
    have hdrowse : Lineup backlog.limit none _ _ (a.drowse p) := (ih uncut hsteps).congr rfl rfl rfl rfl
    exact (hdrowse.stops hplace before after turn).congr rfl rfl rfl rfl

end GraphServer
