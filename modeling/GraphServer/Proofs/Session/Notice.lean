import GraphServer.Proofs.Session.Attention

/-!
The process that executes the tasks of a session learns that nothing is accepted any more.

* `Affairs.Telling`: somebody is still to notify it;
* `Affairs.Notice`: it rests in a session that accepts nothing only if it is or will be notified, and nothing more runs
  in the session once it has ended;
* `Affairs.Tells`: what a step does about it;
* `Course.notice`: **it learns it in the whole course of the affairs**.
-/

namespace GraphServer

/-! ### Programs -/

/-- Whether the process that executes the tasks is still to be notified. -/
def TimeoutPoint.owesNotice : TimeoutPoint → Bool
  | draining | answering _ => true
  | sending _ next => next.owesNotice
  | _ => false

namespace Program

/-- Whether a program is still to notify the process that executes the tasks. -/
def owesNotice : Program → Bool
  | timeout _ _ _ point => point.owesNotice
  | _ => false

/-- Whether a program brings about the end of a time. -/
def keepsTime : Program → Bool
  | lifetime .. | timeout .. => true
  | _ => false

variable {program : Program}

lemma keepsTime_of_owesNotice (owes : program.owesNotice = true) : program.keepsTime = true := by
  cases program with
  | timeout j elapsed ofSession point => rfl
  | _ => cases owes

lemma inCharge_of_owesNotice (owes : program.owesNotice = true) : program.inCharge = true := by
  have points (point : TimeoutPoint) (owes : point.owesNotice = true) : point.inCharge = true := by
    induction point with
    | sending y next ih => exact ih owes
    | draining | answering => rfl
    | _ => cases owes
  cases program with
  | timeout j elapsed ofSession point => exact points point owes
  | _ => cases owes

end Program

namespace Affairs

variable {i : SessionId} {c : ChannelId} {o a a' b : Affairs} {p q : ProcessId} {program next : Program} {x : Process} {accepted accepted' : List Task}

/-! ### Processes that are spared -/

/-- All processes that bring about the end of a time stay as they are. -/
def Spares (a b : Affairs) : Prop :=
  ∀ (q : ProcessId) (x : Process), x.program.keepsTime = true → (b.processes[q]? = some x ↔ a.processes[q]? = some x)

namespace Spares

lemma of_processes (same : b.processes = a.processes) : a.Spares b :=
  fun q x _ => by rw [same]

lemma trans {d : Affairs} (h : a.Spares b) (h' : b.Spares d) : a.Spares d :=
  fun q x keeps => (h' q x keeps).trans (h q x keeps)

/-- A process more. -/
lemma append {y : Process} (processes : b.processes = a.processes ++ [y]) (aside : y.program.keepsTime = false) :
    a.Spares b := by
  intro q x keeps
  rw [processes]
  refine ⟨fun hx => (mem_add hx).resolve_right fun new => ?_, fun hx => ?_⟩
  · rw [new.2, aside] at keeps
    cases keeps
  · rw [List.getElem?_append_left (List.getElem?_eq_some_iff.mp hx).1, hx]

/-- A process that has nothing to do with time is stopped. -/
lemma stop (place : a.program? p = some program) (aside : program.keepsTime = false) : a.Spares (a.stop p) := by
  have hother {q : ProcessId} {x : Process} (hx : a.processes[q]? = some x) (keeps : x.program.keepsTime = true) :
      q ≠ p := by
    rintro rfl
    cases (program?_of_some hx).symm.trans place
    cases aside.symm.trans keeps
  intro q x keeps
  refine ⟨fun hx => ?_, fun hx => ?_⟩
  · obtain ⟨y, hy, hprogram, ⟨-, rfl⟩ | ⟨rfl, -⟩⟩ := mem_stop hx
    · exact hy
    · exact absurd rfl (hother hy (hprogram ▸ keeps))
  · obtain ⟨y, hy, -, same⟩ := stop_of_some p hx
    rw [hy, same (.inl (hother hx keeps))]

end Spares

/-- The handler of the task in flight has nothing to do with time. -/
lemma Interrupts.spares {elapsed : Nat} {ofSession : Bool} {t : Transit} (interrupts : a.Interrupts c elapsed ofSession b t)
    (staffed : a.Staffed i c) : a.Spares b := by
  cases interrupts with
  | nobody idle => exact .of_processes rfl
  | @somebody f _ _ busy answers =>
    obtain ⟨x, hx, -, hprogram⟩ := staffed.handled f busy
    have hstop : a.land.Spares (a.land.stop f.handler) := by
      refine .stop (program?_of_some (a := a.land) hx) ?_
      obtain ⟨point, hp⟩ | ⟨result, hp⟩ := hprogram <;> rw [hp] <;> rfl
    exact (Spares.of_processes (a := a) (b := a.land) rfl).trans (hstop.trans (.of_processes answers.frame.2))

/-! ### Notice -/

/-- Somebody is still to notify the process that executes the tasks, and is not stopped. -/
def Telling (a : Affairs) : Prop :=
  ∃ (p : ProcessId) (x : Process), a.processes[p]? = some x ∧ x.cancelled = false ∧ x.program.owesNotice = true

/-- The process that executes the tasks learns that nothing is accepted any more. -/
structure Notice (a : Affairs) : Prop where
  /-- Nothing more runs once it has ended. -/
  ended : ∀ program, a.executor? = some program → program.isFinished = true → a.session.terminated = true
  /-- Those who keep the time are stopped only when nothing more runs or the time of the session is up. -/
  spent : ∀ (p : ProcessId) (x : Process), a.processes[p]? = some x → x.program.keepsTime = true → x.cancelled = true →
    a.session.terminated = true ∨ a.session.timedOut.isSome = true
  told : a.session.backlog ≠ none → a.session.accepting = false →
    ∀ program, a.executor? = some program → program.isResting = true →
      a.session.terminated = true ∨ a.session.isNotified = true ∨ a.Telling

/-- A session that stands as before, but for the task in flight and those that wait. -/
structure Stands (a b : Affairs) : Prop where
  future : b.session.future = a.session.future
  terminated : b.session.terminated = a.session.terminated
  timedOut : b.session.timedOut = a.session.timedOut
  accepting : b.session.accepting = a.session.accepting
  backlog : b.session.backlog ≠ none → a.session.backlog ≠ none

lemma Stands.of_session (session : b.session = a.session ∨ b.session = a.land.session) :
    a.Stands b ∧ b.session.isNotified = a.session.isNotified := by
  have of_eq {x : Session} (session : b.session = x) (same : x = a.session ∨ x = a.land.session) :
      a.Stands b ∧ b.session.isNotified = a.session.isNotified := by
    cases b
    cases session
    obtain rfl | rfl := same <;> exact ⟨⟨rfl, rfl, rfl, rfl, id⟩, rfl⟩
  exact of_eq rfl session

/-- What a step does about the notice. -/
structure Tells (a : Affairs) (program : Program) (a' : Affairs) (next : Program) : Prop where
  future : a'.session.future = a.session.future
  backlog : a'.session.backlog ≠ none → a.session.backlog ≠ none
  terminated : a.session.terminated = true → a'.session.terminated = true
  timedOut : a.session.timedOut.isSome = true → a'.session.timedOut.isSome = true
  /-- Those who keep the time are stopped only when it is of no use any more. -/
  stops : ∀ (q : ProcessId) (y : Process), a'.processes[q]? = some y → y.program.keepsTime = true → y.cancelled = true →
    a.processes[q]? = some y ∨ a'.session.terminated = true ∨ a'.session.timedOut.isSome = true
  /-- Nobody is stopped who is still to notify. -/
  kept : ∀ (q : ProcessId) (y : Process), a.processes[q]? = some y → y.program.owesNotice = true →
    a'.processes[q]? = some y ∨ a'.session.terminated = true
  keepsTime : next.keepsTime = true → program.keepsTime = true
  ends : program.executes = true → next.isFinished = true → a'.session.terminated = true
  rests : next.isResting = true → program.isResting = true ∨ a'.session.accepting = true
  /-- The session is closed by a process that is still to notify, and whoever was to notify does. -/
  told : program.executes = false ∨ next.isResting = true → a'.session.backlog ≠ none → a'.session.accepting = false →
    a'.session.terminated = true ∨ a'.session.isNotified = true ∨
      (next.owesNotice = true ∧ program.keepsTime = true ∧ a.session.timedOut = none ∧ a.Spares a') ∨
      a.session.accepting = false ∧ (a.session.isNotified = true → a'.session.isNotified = true) ∧
        (program.owesNotice = true → next.owesNotice = true)

namespace Tells

/-- A step that spares those who keep the time and after which the session stands as before. -/
lemma steady (spares : a.Spares a') (stands : a.Stands a') (keepsTime : next.keepsTime = true → program.keepsTime = true)
    (ends : program.executes = true → next.isFinished = false)
    (rests : next.isResting = true → program.isResting = true ∨ a'.session.accepting = true)
    (told : program.executes = false ∨ next.isResting = true → a'.session.backlog ≠ none →
      a'.session.isNotified = true ∨
        a'.session.isNotified = a.session.isNotified ∧ (program.owesNotice = true → next.owesNotice = true)) :
    Tells a program a' next where
  future := stands.future
  backlog := stands.backlog
  terminated := stands.terminated.trans
  timedOut h := by rwa [stands.timedOut]
  stops q y hy keeps _ := .inl ((spares q y keeps).mp hy)
  kept q y hy owes := .inl ((spares q y (Program.keepsTime_of_owesNotice owes)).mpr hy)
  keepsTime := keepsTime
  ends executes finished := by cases (ends executes).symm.trans finished
  rests := rests
  told aside many shut := by
    obtain notified | ⟨notified, owes⟩ := told aside many
    · exact .inr (.inl notified)
    · exact .inr (.inr (.inr ⟨stands.accepting ▸ shut, notified.trans, owes⟩))

/-- A step of a process that executes no tasks. -/
lemma aside (spares : a.Spares a') (session : a'.session = a.session ∨ a'.session = a.land.session)
    (executes : program.executes = false) (keepsTime : next.keepsTime = true → program.keepsTime = true)
    (owes : program.owesNotice = true → next.owesNotice = true) (rests : next.isResting = false) :
    Tells a program a' next := by
  obtain ⟨stands, notified⟩ := Stands.of_session session
  refine .steady spares stands keepsTime (fun h => ?_) (fun h => ?_) fun _ _ => .inr ⟨notified, owes⟩
  · cases executes.symm.trans h
  · cases rests.symm.trans h

/-- A step at which a task is executed or chosen. -/
lemma busy (spares : a.Spares a') (stands : a.Stands a') (executes : program.executes = true)
    (goesOn : next.executes = true) (rests : next.isResting = false) : Tells a program a' next := by
  refine .steady spares stands (fun h => ?_) (fun _ => ?_) (fun h => ?_) fun h => ?_
  · cases next with
    | lifetime | timeout => cases goesOn
    | _ => cases h
  · cases next with
    | finished => cases goesOn
    | _ => rfl
  · cases rests.symm.trans h
  · obtain h | h := h
    · cases executes.symm.trans h
    · cases rests.symm.trans h

/-- Nothing more runs. -/
lemma ends_session (a : Affairs) (program : Program) (result : Except Error Unit) :
    Tells a program (a.onSession Session.finish).disarm (.finished (some result)) := by
  have session := Staffed.disarm_session (a.onSession Session.finish)
  have ended : (a.onSession Session.finish).disarm.session.terminated = true := by
    rw [session]
    rfl
  refine ⟨?_, fun h => ?_, fun _ => ended, fun h => ?_, fun _ _ _ _ _ => .inr (.inl ended), fun _ _ _ _ => .inr ended, nofun,
    fun _ _ => ended, nofun, fun _ _ _ => .inl ended⟩
  · rw [session]
    rfl
  · rw [session] at h
    exact h
  · rw [session]
    exact h

end Tells

/-! ### Every step -/

/-- Where the execution of a task goes on. -/
lemma RunStep.goesOn {point : RunPoint} {turn : Turn RunPoint} (step : a.RunStep c point a' turn)
    (w : RunPoint → Program) : ∃ next, (turn.map w).program = w next := by
  have last (t : Transit) : ∃ next, (t.lastWords.map w).program = w next := by
    cases t <;> exact ⟨_, rfl⟩
  cases step with
  | begins | waits => exact ⟨_, rfl⟩
  | stopped => exact last (.done (.ok ()))
  | refuses | returned | expires | mails => exact last _

/-- A step of the execution of a task. -/
lemma RunStep.tells {w : RunPoint → Program} (hw : Executes i w) {point : RunPoint} {turn : Turn RunPoint}
    (step : a.RunStep c point a' turn) (staffed : a.Staffed i c) : Tells a (w point) a' (turn.map w).program := by
  obtain ⟨next, hnext⟩ := step.goesOn w
  have rests : (w next).isResting = false := by rcases hw with rfl | rfl <;> rfl
  have busy (spares : a.Spares a') (stands : a.Stands a') : Tells a (w point) a' (turn.map w).program :=
    hnext ▸ .busy spares stands (hw.executes _) (hw.executes _) rests
  cases step with
  | begins t handler deadline inTime =>
    exact busy (.append (y := ⟨.handler t.context (.ready handler), false⟩) rfl rfl) ⟨rfl, rfl, rfl, rfl, id⟩
  | refuses t handler late answers =>
    rw [launch_stop] at answers
    obtain ⟨session, processes⟩ := answers.frame
    exact busy (.append processes rfl) (Stands.of_session (a := a) (.inl session)).1
  | stopped t deadline ended => exact busy (.of_processes rfl) (Stands.of_session (.inr rfl)).1
  | returned t deadline ended answers =>
    exact busy (.of_processes answers.frame.2) (Stands.of_session (.inr answers.frame.1)).1
  | expires t h deadline budget interrupts =>
    exact busy (interrupts.spares staffed) (Stands.of_session (.inr interrupts.frame.1)).1
  | waits t h deadline => exact busy (.of_processes rfl) (Stands.of_session (.inl rfl)).1
  | mails h mails => exact busy (.of_processes mails.frame.2.1) (Stands.of_session (.inl mails.frame.1)).1

/-- A step of the worker. -/
lemma WorkerStep.tells {point : WorkerPoint} {turn : Turn WorkerPoint} (step : a.WorkerStep c point a' turn)
    (staffed : a.Staffed i c) : Tells a (.worker i point) a' (turn.map (.worker i)).program := by
  have same : a.Stands a ∧ a.session.isNotified = a.session.isNotified := Stands.of_session (.inl rfl)
  cases step with
  | takes some =>
    obtain ⟨b, rest, hb, -, rfl⟩ := Session.dequeue?_eq_some some
    exact .busy (.of_processes rfl) ⟨rfl, rfl, rfl, rfl, fun _ => hb ▸ Option.some_ne_none b⟩ rfl rfl rfl
  | rests none accepting =>
    exact .steady (.of_processes rfl) same.1 nofun (fun _ => rfl) (fun _ => .inr accepting) fun _ _ => .inr ⟨rfl, nofun⟩
  | ends none closed => exact .ends_session a _ _
  | hears notified =>
    refine .busy (.of_processes rfl) ⟨rfl, rfl, rfl, rfl, fun h hnone => h ?_⟩ rfl rfl rfl
    change a.session.backlog.map _ = none
    rw [hnone]
    rfl
  | waits unnotified =>
    exact .steady (.of_processes rfl) same.1 nofun (fun _ => rfl) (fun _ => .inl rfl) fun _ _ => .inr ⟨rfl, nofun⟩
  | leaves => exact .busy (.of_processes rfl) same.1 rfl rfl rfl
  | runs step =>
    have htells := step.tells (i := i) (w := fun point => .worker i (.running point)) (.inr rfl) staffed
    rename_i turn
    cases turn <;> exact htells

/-- A step of the only task. -/
lemma SingleStep.tells {point : RunPoint} {turn : Turn RunPoint} (step : a.SingleStep c point a' turn)
    (staffed : a.Staffed i c) : Tells a (.single i point) a' (turn.map (.single i)).program := by
  cases step with
  | ends => exact .ends_session a _ _
  | runs step => exact step.tells (.inl rfl) staffed

/-- A step of the end of the time of the session or of a task. -/
lemma TimeoutStep.tells {elapsed : Nat} {ofSession : Bool} {point : TimeoutPoint} {turn : Turn TimeoutPoint}
    (step : a.TimeoutStep c elapsed ofSession point a' turn) (staffed : a.Staffed i c)
    (hx : a.processes[p]? = some x) (place : x.program = .timeout i elapsed ofSession point) :
    Tells a (.timeout i elapsed ofSession point) a' (turn.map (.timeout i elapsed ofSession)).program := by
  have never {b : Bool} {q : Prop} (h : b = false) (h' : b = true) : q := by cases h.symm.trans h'
  have goesOn (t : Transit) (next : TimeoutPoint) :
      ∃ point, ((t.lead (fun _ => next) (.sending · next)).map (.timeout i elapsed ofSession)).program =
        .timeout i elapsed ofSession point ∧ point.owesNotice = next.owesNotice := by
    cases t <;> exact ⟨_, rfl, rfl⟩
  have leads (spares : a.Spares a') (session : a'.session = a.session ∨ a'.session = a.land.session) {t : Transit}
      {next : TimeoutPoint} (owes : point.owesNotice = true → next.owesNotice = true) :
      Tells a (.timeout i elapsed ofSession point) a'
        ((t.lead (fun _ => next) (.sending · next)).map (.timeout i elapsed ofSession)).program := by
    obtain ⟨point', hprogram, howes⟩ := goesOn t next
    rw [hprogram]
    exact .aside spares session rfl (fun _ => rfl) (fun h => howes.trans (owes h)) rfl
  cases step with
  | late kind late => exact .aside (.of_processes rfl) (.inl rfl) rfl (fun _ => rfl) (never rfl) rfl
  | @expires kind inTime _ t interrupts =>
    obtain ⟨point', hprogram, howes⟩ := goesOn t .draining
    have expired : a.Spares a' := by
      obtain ⟨b, hb, rfl⟩ := interrupts.of_expire
      exact hb.spares staffed
    have session := interrupts.frame.1
    rw [hprogram]
    refine ⟨?_, fun h => ?_, fun h => ?_, fun _ => ?_, fun q y hy keeps _ => .inl ((expired q y keeps).mp hy),
      fun q y hy owes => .inl ((expired q y (Program.keepsTime_of_owesNotice owes)).mpr hy), fun _ => rfl, never rfl,
      never rfl, fun _ _ _ => .inr (.inr (.inl ⟨howes, rfl, inTime, expired⟩))⟩
    · rw [session]
      rfl
    · rw [session] at h
      exact h
    · rw [session]
      exact h
    · rw [session]
      rfl
  | interrupts kind interrupts => exact leads (interrupts.spares staffed) (.inr interrupts.frame.1) (never rfl)
  | drains =>
    obtain ⟨backlog, hdrain, hnone, -⟩ := drain_snd a.session
    refine .steady (.of_processes rfl) ?_ (fun _ => rfl) (never rfl) (never rfl) fun _ _ =>
      .inr ⟨isNotified_drain a.session, fun _ => rfl⟩
    rw [hdrain]
    exact ⟨rfl, rfl, rfl, rfl, fun h h' => h (hnone.mpr h')⟩
  | answers t rest answers => exact leads (.of_processes answers.frame.2) (.inl answers.frame.1) fun _ => rfl
  | notifies =>
    have many (h : a.notify.session.backlog ≠ none) : ∃ b, a.session.backlog = some b := by
      refine Option.ne_none_iff_exists'.mp fun hnone => h ?_
      change a.session.backlog.map _ = none
      rw [hnone]
      rfl
    refine .steady (.of_processes rfl) ⟨rfl, rfl, rfl, rfl, fun h => ?_⟩ (fun _ => rfl) (never rfl) (never rfl) fun _ h => .inl ?_
    · obtain ⟨b, hb⟩ := many h
      exact hb ▸ Option.some_ne_none b
    · obtain ⟨b, hb⟩ := many h
      change (a.session.setNotified true).isNotified = true
      rw [Session.setNotified, Session.isNotified, hb]
      rfl
  | closes closes => exact leads (.of_processes closes.frame.2.1) (.inl closes.frame.1) (never rfl)
  | disarms =>
    -- its own time is up, and nobody else is in charge
    have session := Staffed.disarm_session a
    have late : a.session.timedOut.isSome = true := by
      rw [((staffed.serves p x hx).charge i elapsed ofSession _ place rfl).2]
      rfl
    refine ⟨by rw [session], fun h => ?_, fun h => ?_, fun _ => ?_, fun _ _ _ _ _ => .inr (.inr ?_), fun q y hy owes => ?_,
      fun _ => rfl, never rfl, never rfl, fun _ _ shut => .inr (.inr (.inr ⟨?_, fun h => ?_, never rfl⟩))⟩
    · rwa [session] at h
    · rwa [session]
    · rwa [session]
    · rwa [session]
    · have hq : q = p := staffed.unique q p y x hy hx (Program.inCharge_of_owesNotice owes) (place ▸ rfl)
      subst hq
      cases hx.symm.trans hy
      rw [place] at owes
      cases owes
    · rwa [session] at shut
    · rwa [session]
  | mails h next mails => exact leads (.of_processes mails.frame.2.1) (.inl mails.frame.1) id
  | leaves => exact .aside (.of_processes rfl) (.inl rfl) rfl (never rfl) (never rfl) rfl

/-- Every step of a process. -/
lemma Effect.tells {turn : Turn Program} (effect : a.Effect c i program a' turn) (staffed : a.Staffed i c)
    (hx : a.processes[p]? = some x) (place : x.program = program) : Tells a program a' turn.program := by
  have same : a.Spares a := .of_processes rfl
  cases effect with
  | @handler k point _ turn step =>
    cases turn <;> exact .aside (.of_processes step.processes) (.inl step.session) rfl nofun nofun rfl
  | single step => exact step.tells staffed
  | worker step => exact step.tells staffed
  | timeout elapsed ofSession step => exact step.tells staffed hx place
  | watches milliseconds due => exact .aside same (.inl rfl) rfl (fun _ => rfl) nofun rfl
  | rings milliseconds due => exact .aside same (.inl rfl) rfl (fun _ => rfl) nofun rfl
  | sleeps milliseconds due => exact .aside same (.inl rfl) rfl (fun _ => rfl) nofun rfl
  | writes channel turn => cases turn <;> exact .aside same (.inl rfl) rfl nofun nofun rfl
  | @delivers d point _ transit mails =>
    cases transit <;> exact .aside (.of_processes mails.frame.2.1) (.inl mails.frame.1) rfl nofun nofun rfl
  | idles result => exact .aside same (.inl rfl) rfl nofun nofun rfl

/-! ### The whole course -/

namespace Notice

/-- What others can see of the session and its processes is the same. -/
lemma congr (h : Notice a) (session : b.session = a.session) (processes : b.processes = a.processes) : Notice b := by
  cases a
  cases b
  cases session
  cases processes
  exact ⟨h.ended, h.spent, h.told⟩

/-- A step of any process. -/
lemma step {turn : Turn Program} (h : Notice a) {turning : Option ProcessId} (attention : Attention turning a)
    (staffed : a.Staffed i c) {y : Step} (performs : a.Performs i c p y a' turn) : Notice (a'.setProgram p turn.program) := by
  obtain ⟨x, hx, hprogram, -⟩ := performs.process
  have effect := performs.effect
  generalize y.program = program at hprogram effect
  have tells := effect.tells staffed hx hprogram
  have place : a.program? p = some program := hprogram ▸ program?_of_some hx
  obtain ⟨z, hz, hzprogram⟩ := Option.map_eq_some_iff.mp (effect.crew.place place)
  -- the process that executes the tasks takes the step, or it is where it was
  have executor {P : Program} (hP : (a'.setProgram p turn.program).executor? = some P) :
      a.session.future = some p ∧ P = turn.program ∧ a.executor? = some program ∨
        program.executes = false ∧ a.executor? = some P := by
    obtain ⟨e, he, hP⟩ := Option.bind_eq_some_iff.mp hP
    replace he : a.session.future = some e := tells.future.symm.trans he
    by_cases hep : e = p
    · subst hep
      rw [program?_setProgram_self hz] at hP
      exact .inl ⟨he, (Option.some.inj hP).symm, by rw [executor?, he, Option.bind_some, place]⟩
    · rw [program?_setProgram_ne hep] at hP
      have hlt := staffed.hooks e (.inl he)
      have before : a.program? e = some a.processes[e].program := program?_of_some (List.getElem?_eq_getElem hlt)
      refine .inr ⟨staffed.aside (fun hp => hep (Option.some.inj (he.symm.trans hp))) place, ?_⟩
      rw [executor?, he, Option.bind_some, before, ← hP, effect.crew.place before]
  -- whoever was to notify still is
  have telling (owes : program.owesNotice = true → turn.program.owesNotice = true) (tell : a.Telling) :
      a'.session.terminated = true ∨ (a'.setProgram p turn.program).Telling := by
    obtain ⟨q, u, hu, lives, howes⟩ := tell
    obtain hu' | ended := tells.kept q u hu howes
    · refine .inr ?_
      by_cases hq : q = p
      · subst hq
        cases hx.symm.trans hu
        exact ⟨q, _, setProgram_self hu', lives, owes (hprogram ▸ howes)⟩
      · exact ⟨q, u, (setProgram_ne hq).trans hu', lives, howes⟩
    · exact .inl ended
  refine ⟨fun P hP finished => ?_, fun q u hu keeps stopped => ?_, fun many shut P hP resting => ?_⟩
  · obtain ⟨-, rfl, hbefore⟩ | ⟨-, hbefore⟩ := executor hP
    · obtain executes | ended := attention.posted program hbefore
      · exact tells.ends executes finished
      · exact tells.terminated (h.ended program hbefore ended)
    · exact tells.terminated (h.ended P hbefore finished)
  · have before (q : ProcessId) (w : Process) (hw : a.processes[q]? = some w) (keeps : w.program.keepsTime = true)
        (stopped : w.cancelled = true) : a'.session.terminated = true ∨ a'.session.timedOut.isSome = true :=
      (h.spent q w hw keeps stopped).imp tells.terminated tells.timedOut
    obtain ⟨rfl, w, hw, rfl⟩ | ⟨hq, hu⟩ := mem_setProgram hu
    · cases hz.symm.trans hw
      have hkeeps : z.program.keepsTime = true := hzprogram ▸ tells.keepsTime keeps
      obtain hz' | spent := tells.stops q z hz hkeeps stopped
      · exact before q z hz' hkeeps stopped
      · exact spent
    · obtain hu' | spent := tells.stops q u hu keeps stopped
      · exact before q u hu' keeps stopped
      · exact spent
  · have aside : program.executes = false ∨ turn.program.isResting = true := by
      obtain ⟨-, rfl, -⟩ | ⟨aside, -⟩ := executor hP
      · exact .inr resting
      · exact .inl aside
    obtain ended | notified | ⟨owes, keeps, inTime, spares⟩ | ⟨closed, notified, owes⟩ := tells.told aside many shut
    · exact .inl ended
    · exact .inr (.inl notified)
    · cases lives : x.cancelled with
      | false =>
        have hx' := (spares p x (hprogram ▸ keeps)).mpr hx
        exact .inr (.inr ⟨p, _, setProgram_self hx', lives, owes⟩)
      | true =>
        obtain ended | late := h.spent p x hx (hprogram ▸ keeps) lives
        · exact .inl (tells.terminated ended)
        · rw [inTime] at late
          cases late
    · obtain ⟨P', hbefore, resting'⟩ : ∃ P', a.executor? = some P' ∧ P'.isResting = true := by
        obtain ⟨-, rfl, hbefore⟩ | ⟨-, hbefore⟩ := executor hP
        · refine ⟨program, hbefore, (tells.rests resting).resolve_right fun accepting => ?_⟩
          cases shut.symm.trans accepting
        · exact ⟨P, hbefore, resting⟩
      obtain ended | heard | tell := h.told (tells.backlog many) closed P' hbefore resting'
      · exact .inl (tells.terminated ended)
      · exact .inr (.inl (notified heard))
      · exact (telling owes tell).imp id .inr

/-- A process that was stopped ends. -/
lemma stops (h : Notice a) {turning : Option ProcessId} (attention : Attention turning a) (staffed : a.Staffed i c)
    (hx : a.processes[p]? = some x) (stopped : x.cancelled = true) : Notice (a.setProgram p (.finished none)) := by
  have executor {P : Program} (hP : (a.setProgram p (.finished none)).executor? = some P) :
      a.executor? = some x.program ∧ x.program.isFinished = true ∧ P.isFinished = true ∨ a.executor? = some P := by
    obtain ⟨e, he, hP⟩ := Option.bind_eq_some_iff.mp hP
    replace he : a.session.future = some e := he
    by_cases hep : e = p
    · subst hep
      have hexecutor : a.executor? = some x.program := by rw [executor?, he, Option.bind_some, program?_of_some hx]
      rw [program?_setProgram_self hx] at hP
      cases hP
      refine .inl ⟨hexecutor, (attention.posted _ hexecutor).resolve_left fun executes => ?_, rfl⟩
      cases ((staffed.serves e x hx).executor executes).2.symm.trans stopped
    · rw [program?_setProgram_ne hep] at hP
      exact .inr (by rw [executor?, he, Option.bind_some, hP])
  refine ⟨fun P hP finished => ?_, fun q u hu keeps cancelled => ?_, fun many shut P hP resting => ?_⟩
  · obtain ⟨hbefore, ended, -⟩ | hbefore := executor hP
    · exact h.ended _ hbefore ended
    · exact h.ended P hbefore finished
  · obtain ⟨rfl, w, -, rfl⟩ | ⟨-, hu⟩ := mem_setProgram hu
    · cases keeps
    · exact h.spent q u hu keeps cancelled
  · obtain ⟨-, -, finished⟩ | hbefore := executor hP
    · cases P with
      | finished result => cases resting
      | _ => cases finished
    · obtain ended | heard | ⟨q, u, hu, lives, owes⟩ := h.told many shut P hbefore resting
      · exact .inl ended
      · exact .inr (.inl heard)
      · refine .inr (.inr ⟨q, u, (setProgram_ne ?_).trans hu, lives, owes⟩)
        rintro rfl
        cases hx.symm.trans hu
        cases stopped.symm.trans lives

/-- A process more, which is not stopped. -/
lemma add (h : Notice a) (staffed : a.Staffed i c) (program : Program) : Notice (a.addProcess program) := by
  have executor : (a.addProcess program).executor? = a.executor? :=
    executor?_congr staffed rfl fun q P hq => by
      obtain ⟨x, hx, rfl⟩ := Option.map_eq_some_iff.mp hq
      exact program?_of_some (addProcess_of_some hx)
  refine ⟨fun P hP => h.ended P (executor ▸ hP), fun q u hu keeps cancelled => ?_, fun many shut P hP resting => ?_⟩
  · obtain hu | ⟨-, rfl⟩ := mem_add hu
    · exact h.spent q u hu keeps cancelled
    · cases cancelled
  · obtain ended | heard | ⟨q, u, hu, lives, owes⟩ := h.told many shut P (executor ▸ hP) resting
    · exact .inl ended
    · exact .inr (.inl heard)
    · exact .inr (.inr ⟨q, u, addProcess_of_some hu, lives, owes⟩)

/-- The process that executes the tasks is notified, whatever else becomes of the session. -/
lemma notified (h : Notice a) (future : b.session.future = a.session.future) (processes : b.processes = a.processes)
    (terminated : b.session.terminated = a.session.terminated) (timedOut : b.session.timedOut = a.session.timedOut)
    (heard : b.session.backlog ≠ none → b.session.isNotified = true) : Notice b := by
  have executor : b.executor? = a.executor? := by
    rw [executor?, executor?, future]
    exact congrArg _ (funext fun q => program?_congr processes q)
  refine ⟨fun P hP => ?_, fun q u hu => ?_, fun many _ _ _ _ => .inr (.inl (heard many))⟩
  · rw [terminated]
    exact h.ended P (executor ▸ hP)
  · rw [terminated, timedOut]
    exact h.spent q u (processes ▸ hu)

end Notice

/-- What is done from outside. -/
lemma Outside.notice (outside : a.Outside i c accepted b accepted') (staffed : a.Staffed i c) (h : Notice a) :
    Notice b := by
  cases outside with
  | timeout elapsed ofSession => exact h.add staffed _
  | traffic f => exact h.add staffed _
  | declines r => exact h.congr rfl rfl
  | enqueues r backlog accepting room => exact h.notified rfl rfl rfl rfl fun _ => rfl
  | @engages r backlog accepting vacant =>
    have executor : ((a.addContext c r).engage i (a.nextTask r)).executor? = some (.single i (.start (a.nextTask r))) := by
      change Option.map _ (a.processes ++ [_])[a.processes.length]? = _
      rw [List.getElem?_concat_length]
      rfl
    refine ⟨fun P hP finished => ?_, fun q u hu keeps cancelled => ?_, fun many => absurd backlog many⟩
    · cases executor.symm.trans hP
      cases finished
    · exact (h.add staffed (.single i (.start (a.nextTask r)))).spent q u hu keeps cancelled
  | closes =>
    refine h.notified rfl rfl rfl rfl fun many => ?_
    change (a.session.backlog.map _) ≠ none at many
    change (Session.setNotified (Session.stopAccepting a.session) true).isNotified = true
    rw [Session.setNotified, Session.isNotified, Session.stopAccepting]
    cases hb : a.session.backlog with
    | none =>
      rw [hb] at many
      exact absurd rfl many
    | some b => rfl

/-- A session is opened for tasks. -/
lemma Opened.notice (opened : a.Opened i c) : Notice a := by
  have fresh (accepting : a.session.accepting = true)
      (executor : ∀ program, a.executor? = some program → program.isFinished = false)
      (lives : ∀ y ∈ a.processes, y.cancelled = false) : Notice a := by
    refine ⟨fun P hP finished => ?_, fun q u hu _ cancelled => ?_, fun _ shut => ?_⟩
    · cases (executor P hP).symm.trans finished
    · cases (lives u (List.mem_of_getElem? hu)).symm.trans cancelled
    · cases accepting.symm.trans shut
  cases opened with
  | single name => exact fresh rfl (fun P hP => by cases hP) (by simp)
  | multi name limit => exact fresh rfl (fun P hP => by cases hP; rfl) (by simp)
  | watched name limit milliseconds => exact fresh rfl (fun P hP => by cases hP; rfl) (by simp)

end Affairs

open Affairs

/-- **In the whole course of the affairs** the process that executes the tasks learns that nothing is accepted any
more. -/
theorem Course.notice {i : SessionId} {c : ChannelId} {o a : Affairs} {whole : Bool} {turning : Option ProcessId}
    {accepted : List Task} {steps : List Step} (course : Course i c o whole turning a accepted steps) : a.Notice := by
  induction course with
  | opens opened => exact opened.notice
  | outside course outside ih => exact outside.notice course.staffed ih
  | misses p course ended ih => exact ih.congr rfl rfl
  | begins p course ih => exact ih.congr rfl rfl
  | goes course performs ih => exact ih.step course.attention course.staffed performs
  | cut course ih => exact ih.congr rfl rfl
  | waits spent course performs idle ih => exact (ih.step course.attention course.staffed performs).congr rfl rfl
  | ends course performs ih => exact (ih.step course.attention course.staffed performs).congr rfl rfl
  | stops p course process before after turn ih =>
    obtain ⟨x, hx, -, stopped⟩ := process
    exact (ih.stops course.attention course.staffed hx stopped).congr rfl rfl

end GraphServer
