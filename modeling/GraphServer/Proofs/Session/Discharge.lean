import GraphServer.Proofs.Server.Docket
import GraphServer.Proofs.Session.Duty
import GraphServer.Proofs.Session.Sequence

/-!
A task that has left everybody's hands.

* `Program.Spares`, `Session.contexts`: who has to do with a context;
* `System.Discharged`: nobody has but handlers that were stopped;
* `System.Discharged.step`, `System.Discharged.run`: so it stays when processes take steps;
* `Chronicle.undergo_discharged`: **whatever happens then, no handler of the task takes a step, and nobody else deals with
  it**.
-/

namespace GraphServer

open Opening (session channel)

/-! ### Who has to do with a context -/

/-- Whether a program has to do with no session but that of the server. A connection could open others. -/
def Program.isHome : Program → Bool
  | single i _ | worker i _ | lifetime i _ _ | timeout i _ _ _ => i == session
  | connection .. => false
  | _ => true

/-- Whether a program has nothing to do with a context, and never will by itself. -/
def Program.Spares (k : ContextId) (P : Program) : Prop :=
  P.isHome = true ∧ k ∉ P.contexts

namespace Session

variable {x x' : Session} {k : ContextId} {t : Task}

/-- The contexts of the tasks of a session: of that in flight and of those that wait. -/
def contexts (x : Session) : List ContextId :=
  (x.inFlight.map (·.context)).toList ++ ((x.backlog.map (·.tasks)).getD []).map (·.context)

lemma contexts_congr (inFlight : x'.inFlight = x.inFlight)
    (backlog : x'.backlog.map (·.tasks) = x.backlog.map (·.tasks)) : x'.contexts = x.contexts := by
  rw [contexts, contexts, inFlight, backlog]

lemma contexts_setNotified (x : Session) (notified : Bool) : (x.setNotified notified).contexts = x.contexts := by
  refine contexts_congr rfl ?_
  rw [setNotified, Option.map_map]
  rfl

lemma contexts_setHook (x : Session) (hook : SessionHook) (p : ProcessId) :
    ((x.setHook hook p).toOption.getD x).contexts = x.contexts := by
  obtain ⟨future, cancelFuture, hset⟩ := x.setHook_getD hook p
  rw [hset]
  rfl

/-- Only the tasks that wait are left when that in flight has landed. -/
lemma contexts_land (x : Session) : { x with inFlight := none }.contexts ⊆ x.contexts :=
  List.subset_append_right ..

lemma contexts_kill (x : Session) : x.kill.contexts = [] := by
  rw [contexts, kill]
  cases x.backlog <;> rfl

lemma contexts_begin (x : Session) (f : InFlight) :
    { x with inFlight := some f }.contexts ⊆ f.context :: x.contexts :=
  List.cons_subset_cons _ (List.subset_append_right ..)

lemma contexts_enqueue {b : Backlog} (backlog : x.backlog = some b) (h : x.enqueue b t = .ok x') :
    x'.contexts = x.contexts ++ [t.context] := by
  obtain ⟨-, rfl⟩ := enqueue_eq_ok h
  rw [contexts, contexts, backlog, Option.map_some, Option.getD_some, List.map_append, List.append_assoc]
  rfl

/-- The task that is taken was one of the session. -/
lemma contexts_dequeue (h : x.dequeue? = some (t, x')) : x.contexts.Perm (t.context :: x'.contexts) := by
  obtain ⟨b, rest, hb, ht, rfl⟩ := dequeue?_eq_some h
  rw [contexts, hb, Option.map_some, Option.getD_some, ht]
  exact List.perm_middle

/-- So were those that are taken at once. -/
lemma contexts_drain (x : Session) : x.contexts.Perm (x.drain.1.map (·.context) ++ x.drain.2.contexts) := by
  rw [drain_fst, drain_snd, contexts, contexts]
  cases x.backlog with
  | none => exact .refl _
  | some b =>
    dsimp only [Option.map_some, Option.getD_some]
    rw [List.map_nil, List.append_nil]
    exact List.perm_append_comm

end Session

namespace System

variable {s s' : System} {p q : ProcessId} {i : SessionId} {k : ContextId} {P N : Program}

/-- Contexts never go away. -/
lemma Changes.contexts_le (c : s.Changes s') : s.contexts.length ≤ s'.contexts.length := by
  refine c.keeps (P := fun s' => s.contexts.length ≤ s'.contexts.length) (fun t t' le c => Nat.le_trans le ?_) le_rfl
  cases c with
  | wakes p => exact (congrArg List.length (Quiet.wake t p).contexts).ge
  | @starts P fresh => exact (congrArg List.length (Quiet.wake (t.addProcess P).1 _).contexts).ge
  | stops p => exact (congrArg List.length (t.abort_contexts p)).ge
  | context y =>
    change t.contexts.length ≤ (t.contexts ++ [y]).length
    rw [List.length_append]
    exact Nat.le_add_right ..
  | concludes k => exact (List.length_modify ..).ge
  | _ => exact le_rfl

/-! ### Nobody has to do with it -/

/-- Nobody has to do with a context any more but handlers that were stopped. -/
structure Discharged (k : ContextId) (s : System) : Prop where
  known : k < s.contexts.length
  hands : ∀ y ∈ s.processes, y.program.Spares k ∨ y.cancelled = true ∧ ∃ point, y.program = .handler k point
  tasks : ∀ x, s.sessions[session]? = some x → k ∉ x.contexts

namespace Discharged

lemma of_still (h : s.Discharged k) (still : s.Still s') (contexts : s.contexts.length ≤ s'.contexts.length) :
    s'.Discharged k :=
  ⟨h.known.trans_le contexts, still.processes ▸ h.hands, still.sessions ▸ h.tasks⟩

lemma of_quiet (h : s.Discharged k) (quiet : s.Quiet s') : s'.Discharged k :=
  h.of_still quiet.toStill (congrArg _ quiet.contexts).ge

/-- A process that is stopped has no more to do with it than before. -/
lemma abort (h : s.Discharged k) (p : ProcessId) : (s.abort p).Discharged k := by
  have outcome := s.abort_outcome p
  generalize s.abort p = s' at outcome ⊢
  cases outcome with
  | spares => exact h
  | stops =>
    refine of_quiet (s := s.onProcess p fun x => { x with cancelled := true }) ⟨h.known, fun y hy => ?_, h.tasks⟩
      (.wake _ p)
    obtain ⟨q, hq⟩ := List.mem_iff_getElem?.mp hy
    rw [onProcess, List.getElem?_modify] at hq
    obtain ⟨z, hz, rfl⟩ := Option.map_eq_some_iff.mp hq
    have before := h.hands z (List.mem_of_getElem? hz)
    split
    · exact before.imp_right fun stopped => ⟨rfl, stopped.2⟩
    · exact before

lemma abortAll (h : s.Discharged k) (ps : List ProcessId) : (s.abortAll ps).Discharged k := by
  induction ps generalizing s with
  | nil => exact h
  | cons p ps ih => exact ih (h.abort p)

lemma spawn (h : s.Discharged k) (spares : P.Spares k) : (s.spawn P).1.Discharged k := by
  refine of_quiet (s := (s.addProcess P).1) ⟨h.known, fun y hy => ?_, h.tasks⟩ (.wake _ _)
  obtain hy | hy := List.mem_append.mp hy
  · exact h.hands y hy
  · cases List.mem_singleton.mp hy
    exact .inl spares

lemma onSession {f : Session → Session} (h : s.Discharged k)
    (keeps : ∀ x, s.sessions[i]? = some x → k ∉ x.contexts → k ∉ (f x).contexts) : (s.onSession i f).Discharged k := by
  refine ⟨h.known, h.hands, fun y hy => ?_⟩
  rw [System.onSession, List.getElem?_modify] at hy
  obtain ⟨x, hx, rfl⟩ := Option.map_eq_some_iff.mp hy
  have before := h.tasks x hx
  split
  next same => exact keeps x (same ▸ hx) before
  next => exact before

/-- A session is put in the place of what it was made from. -/
lemma replace {x x' : Session} (h : s.Discharged k) (hx : s.sessions[i]? = some x)
    (keeps : k ∉ x.contexts → k ∉ x'.contexts) :
    (s.onSession i fun _ => x').Discharged k := by
  refine h.onSession fun y hy hk => keeps ?_
  cases hx.symm.trans hy
  exact hk

lemma land (h : s.Discharged k) (i : SessionId) : (s.onSession i fun x => { x with inFlight := none }).Discharged k :=
  h.onSession fun x _ hk hmem => hk (x.contexts_land hmem)

lemma notify (h : s.Discharged k) (i : SessionId) : (s.notify i).Discharged k := by
  have set : (s.onSession i (·.setNotified true)).Discharged k :=
    h.onSession fun x _ hk => x.contexts_setNotified true ▸ hk
  rw [System.notify]
  split
  · exact set.of_quiet (.wakeIf _ _ _)
  · exact set

lemma disarm (h : s.Discharged k) (i : SessionId) : (s.disarm i).Discharged k :=
  h.abortAll _

lemma finishSession (h : s.Discharged k) (i : SessionId) : (s.finishSession i).Discharged k :=
  disarm (h.onSession (f := Session.finish) fun _ _ hk => hk) i

lemma tryFinish (h : s.Discharged k) (p : ProcessId) (j : ContextId) (r : Uuid → Response) :
    (s.tryFinish p j r).1.Discharged k :=
  h.of_still (.tryFinish s p j r) (Changes.tryFinish s p j r).contexts_le

lemma interrupt (h : s.Discharged k) (p : ProcessId) (i : SessionId) (elapsed : Nat) (ofSession : Bool) :
    (s.interrupt p i elapsed ofSession).1.Discharged k := by
  have outcome := s.interrupt_outcome p i elapsed ofSession
  generalize s.interrupt p i elapsed ofSession = x at outcome ⊢
  cases outcome with
  | rests => exact h
  | stops => exact ((h.land i).abort _).tryFinish p _ _

/-! ### Steps -/

lemma of_transit {α : Type} {x : System × Transit} {next : Except Error Unit → α} {waiting : Handover → α}
    (h : x.1.Discharged k) : (Transit.turn x next waiting).1.Discharged k := by
  rwa [Transit.turn_fst]

lemma stepRun (h : s.Discharged k) (p : ProcessId) (i : SessionId) {point : RunPoint}
    (spares : ∀ t, point.task? = some t → t.context ≠ k) : (s.stepRun p i point).1.Discharged k := by
  have launched {t : Task} (other : t.context ≠ k) : (s.launch t).Discharged k :=
    h.spawn ⟨rfl, fun hk => other (List.mem_singleton.mp hk).symm⟩
  have outcome := s.stepRun_outcome p i point
  generalize s.stepRun p i point = x at outcome ⊢
  cases outcome with
  | strays | waits | leaves => exact h
  | begins known =>
    refine (launched (spares _ rfl)).replace (launch_sessions s _ ▸ known) fun hk hmem => ?_
    exact (List.mem_cons.mp (Session.contexts_begin _ _ hmem)).elim (fun same => spares _ rfl same.symm) hk
  | dies => exact (launched (spares _ rfl)).abort _
  | refuses => exact of_transit (((launched (spares _ rfl)).abort _).tryFinish p _ _)
  | stopped ended spent => exact (h.of_quiet (.spend? spent)).land i
  | returned ended spent => exact of_transit (((h.of_quiet (.spend? spent)).land i).tryFinish p _ _)
  | expires runs spent => exact of_transit ((h.of_quiet (.spendAt? spent)).interrupt p i _ _)
  | resumes => exact of_transit (h.of_quiet (.resume s p _))

lemma stepSingle (h : s.Discharged k) (p : ProcessId) (i : SessionId) {point : RunPoint}
    (spares : ∀ t, point.task? = some t → t.context ≠ k) : (s.stepSingle p i point).1.Discharged k := by
  have outcome := s.stepSingle_outcome p i point
  generalize s.stepSingle p i point = x at outcome ⊢
  cases outcome with
  | ends => exact h.finishSession i
  | runs => exact h.stepRun p i spares

lemma stepWorker (h : s.Discharged k) (p : ProcessId) (i : SessionId) {point : WorkerPoint}
    (spares : ∀ x t, point = .running x → x.task? = some t → t.context ≠ k) :
    (s.stepWorker p i point).1.Discharged k := by
  have outcome := s.stepWorker_outcome p i point
  generalize s.stepWorker p i point = x at outcome ⊢
  cases outcome with
  | strays | rests | waits | leaves => exact h
  | takes known taken =>
    exact h.replace known fun hk hmem =>
      hk ((Session.contexts_dequeue taken).mem_iff.mpr (List.mem_cons_of_mem _ hmem))
  | ends => exact h.finishSession i
  | hears => exact h.onSession fun x _ hk => x.contexts_setNotified false ▸ hk
  | runs => exact h.stepRun p i fun t => spares _ t rfl

lemma stepTimeout (h : s.Discharged k) (p : ProcessId) (i : SessionId) (elapsed : Nat) (ofSession : Bool)
    (point : TimeoutPoint) : (s.stepTimeout p i elapsed ofSession point).1.Discharged k := by
  have outcome := s.stepTimeout_outcome p i elapsed ofSession point
  generalize s.stepTimeout p i elapsed ofSession point = x at outcome ⊢
  cases outcome with
  | late | strays | leaves => exact h
  | @expires x known =>
    have expired : (s.onSession i fun _ => { x with timedOut := some elapsed, accepting := false }).Discharged k :=
      h.replace known id
    exact of_transit (expired.interrupt p i _ _)
  | interrupts => exact of_transit (h.interrupt p i _ _)
  | drains known =>
    exact h.replace known fun hk hmem => hk ((Session.contexts_drain _).mem_iff.mpr (List.mem_append_right _ hmem))
  | answers => exact of_transit (h.tryFinish p _ _)
  | notifies => exact h.notify i
  | closes => exact of_transit (h.of_quiet (.closeChannel s p _))
  | disarms => exact h.disarm i
  | resumes => exact of_transit (h.of_quiet (.resume s p _))

/-- Where the execution of a task goes on, it executes the same task, if any. -/
lemma stepRun_task {point next : RunPoint} {t : Task} (h : (s.stepRun p i point).2.point? = some next)
    (ht : next.task? = some t) : point.task? = some t := by
  have outcome := s.stepRun_outcome p i point
  generalize s.stepRun p i point = x at outcome h
  cases outcome with
  | begins | waits =>
    cases h
    exact ht
  | strays | dies | stopped =>
    cases h
    cases ht
  | refuses | returned | expires | resumes => obtain rfl | ⟨y, rfl⟩ := lastWords_point? h <;> cases ht
  | leaves => cases h

/-- The tasks that a program executes or has in hand are all it has to do with. -/
lemma task_ne_of_spares {point : RunPoint} {t : Task} (spares : P.Spares k) (hpoint : P.runPoint? = some point)
    (ht : point.task? = some t) : t.context ≠ k := by
  rintro rfl
  exact spares.2 (Program.context_mem hpoint ht)

/-- A step of a process that has nothing to do with the context. -/
lemma step (h : s.Discharged k) (p : ProcessId) (spares : P.Spares k) : (s.step p P).1.Discharged k := by
  cases P with
  | handler j point => exact h.of_still (.stepHandler s p j point) (Changes.stepHandler s p j point).contexts_le
  | single i point => exact h.stepSingle p i fun t => task_ne_of_spares spares rfl
  | worker i point =>
    refine h.stepWorker p i fun x t hx => ?_
    subst hx
    exact task_ne_of_spares spares rfl
  | lifetime i milliseconds due =>
    exact h.of_still (.stepLifetime s i milliseconds due) (Changes.stepLifetime s i milliseconds due).contexts_le
  | timeout i elapsed ofSession point => exact h.stepTimeout p i elapsed ofSession point
  | writer c => exact h.of_quiet (.stepWriter s c)
  | connection n point => cases spares.1
  | delivery c d point =>
    exact h.of_still (.stepDelivery s p c d point) (Changes.stepDelivery s p c d point).contexts_le
  | finished result => exact h

/-! ### Where processes go on -/

lemma spares_finished (k : ContextId) (result : Option (Except Error Unit)) : (Program.finished result).Spares k :=
  ⟨rfl, List.not_mem_nil⟩

/-- What holds wherever a part of a program goes on or waits holds of the program. -/
lemma spares_lift {α : Type} {x : System × Turn α} {f : α → Program}
    (spares : ∀ point, x.2.point? = some point → (f point).Spares k) : (liftTurn x f).2.program.Spares k := by
  obtain ⟨s₀, turn⟩ := x
  cases turn with
  | go point | wait point => exact spares point rfl
  | done result => exact spares_finished k (some result)

lemma spares_single {point : RunPoint} (home : (i == session) = true)
    (spares : ∀ t, point.task? = some t → t.context ≠ k) : (Program.single i point).Spares k := by
  refine ⟨home, fun hk => ?_⟩
  obtain ⟨t, ht, rfl⟩ := List.mem_map.mp hk
  exact spares t (Option.mem_toList.mp ht) rfl

lemma spares_worker {point : WorkerPoint} (home : (i == session) = true)
    (spares : ∀ x t, point = .running x → x.task? = some t → t.context ≠ k) : (Program.worker i point).Spares k := by
  refine ⟨home, fun hk => ?_⟩
  cases point with
  | running x =>
    obtain ⟨t, ht, rfl⟩ := List.mem_map.mp hk
    exact spares x t rfl (Option.mem_toList.mp ht) rfl
  | _ => cases hk

/-- Whoever answers goes on as was settled before. -/
lemma tasks_answerThen {x : System × Transit} {next point : TimeoutPoint} (h : (answerThen x next).2.point? = some point) :
    point.tasks = next.tasks := by
  obtain ⟨s₀, transit⟩ := x
  cases transit <;> (cases h; rfl)

lemma spares_stepWorker (h : s.Discharged k) (p : ProcessId) {point next : WorkerPoint}
    (spares : (Program.worker i point).Spares k) (hnext : (s.stepWorker p i point).2.point? = some next) :
    (Program.worker i next).Spares k := by
  refine spares_worker spares.1 fun x t hx ht => ?_
  subst hx
  have outcome := s.stepWorker_outcome p i point
  generalize s.stepWorker p i point = z at outcome hnext
  cases outcome with
  | strays | rests | ends | hears | waits | leaves => cases hnext
  | takes known taken =>
    cases hnext
    cases ht
    rintro rfl
    have home : i = session := eq_of_beq spares.1
    exact h.tasks _ (home ▸ known) ((Session.contexts_dequeue taken).mem_iff.mpr List.mem_cons_self)
  | runs =>
    rw [Turn.point?_map] at hnext
    obtain ⟨y, hy, same⟩ := Option.map_eq_some_iff.mp hnext
    cases same
    exact task_ne_of_spares spares rfl (stepRun_task hy ht)

lemma spares_stepTimeout (h : s.Discharged k) (p : ProcessId) {elapsed : Nat} {ofSession : Bool}
    {point next : TimeoutPoint} (spares : (Program.timeout i elapsed ofSession point).Spares k)
    (hnext : (s.stepTimeout p i elapsed ofSession point).2.point? = some next) :
    (Program.timeout i elapsed ofSession next).Spares k := by
  refine ⟨spares.1, ?_⟩
  change k ∉ next.tasks.map (·.context)
  have outcome := s.stepTimeout_outcome p i elapsed ofSession point
  generalize s.stepTimeout p i elapsed ofSession point = z at outcome hnext
  cases outcome with
  | late | strays | notifies | disarms =>
    cases hnext
    exact List.not_mem_nil
  | expires | interrupts | closes =>
    rw [tasks_answerThen hnext]
    exact List.not_mem_nil
  | @drains _ x known =>
    cases hnext
    have home : i = session := eq_of_beq spares.1
    exact fun hk => h.tasks x (home ▸ known) (x.contexts_drain.mem_iff.mpr (List.mem_append_left _ hk))
  | answers =>
    rw [tasks_answerThen hnext]
    exact fun hk => spares.2 (List.mem_cons_of_mem _ hk)
  | resumes =>
    rw [tasks_answerThen hnext]
    exact spares.2
  | leaves => cases hnext

/-- A process that has nothing to do with the context goes on in that way. -/
lemma spares_step (h : s.Discharged k) (p : ProcessId) (spares : P.Spares k) : (s.step p P).2.program.Spares k := by
  cases P with
  | handler j point => exact spares_lift fun _ _ => spares
  | single i point =>
    refine spares_lift fun next hnext => spares_single spares.1 fun t ht => ?_
    have outcome := s.stepSingle_outcome p i point
    generalize s.stepSingle p i point = x at outcome hnext
    cases outcome with
    | ends => cases hnext
    | runs => exact task_ne_of_spares spares rfl (stepRun_task hnext ht)
  | worker i point => exact spares_lift fun next hnext => h.spares_stepWorker p spares hnext
  | lifetime i milliseconds due =>
    have outcome := s.stepLifetime_outcome i milliseconds due
    rw [System.step]
    generalize s.stepLifetime i milliseconds due = x at outcome ⊢
    cases outcome <;> exact ⟨spares.1, List.not_mem_nil⟩
  | timeout i elapsed ofSession point => exact spares_lift fun next hnext => h.spares_stepTimeout p spares hnext
  | writer c => exact spares_lift fun _ _ => ⟨rfl, List.not_mem_nil⟩
  | connection n point => cases spares.1
  | delivery c d point => exact spares_lift fun _ _ => ⟨rfl, List.not_mem_nil⟩
  | finished result => exact spares_finished k result

/-! ### Turns -/

/-- A process goes on at a point that has nothing to do with the context. -/
lemma goes (h : s.Discharged k) (p : ProcessId) (spares : N.Spares k) : (s.setProgram p N).Discharged k := by
  refine ⟨h.known, fun y hy => ?_, h.tasks⟩
  obtain ⟨q, hq⟩ := List.mem_iff_getElem?.mp hy
  rw [System.setProgram, System.onProcess, List.getElem?_modify] at hq
  obtain ⟨z, hz, rfl⟩ := Option.map_eq_some_iff.mp hq
  split
  · exact .inl spares
  · exact h.hands z (List.mem_of_getElem? hz)

lemma suspends (h : s.Discharged k) (p : ProcessId) (spares : N.Spares k) : (s.suspend p N).Discharged k := by
  rw [System.suspend]
  split
  · exact (h.goes p spares).of_quiet ⟨⟨rfl, rfl, rfl, rfl⟩, rfl⟩
  · exact (h.goes p spares).of_quiet (.setAlarms _ p _)

lemma ends (h : s.Discharged k) (p : ProcessId) (result : Option (Except Error Unit)) : (s.finish p result).Discharged k := by
  have forgotten : (s.setProgram p (.finished result)).Quiet ((s.setProgram p (.finished result)).forget p) :=
    ⟨⟨rfl, rfl, rfl, rfl⟩, rfl⟩
  exact (h.goes p (spares_finished k result)).of_quiet (forgotten.trans (.wakeAll _ _))

/-- It is the same with the process that has its turn when it goes on. -/
lemma goesOn (h : s.Discharged k) (spares : P.Spares k) (hstep : s.step p P = (s', .go N)) :
    (s'.setProgram p N).Discharged k ∧ ∀ P', (s'.setProgram p N).program? p = some P' → P'.Spares k := by
  have after := h.step p spares
  have onward := h.spares_step p spares
  rw [hstep] at after onward
  refine ⟨after.goes p onward, fun P' hP' => ?_⟩
  obtain ⟨y, hy, rfl⟩ := Option.map_eq_some_iff.mp hP'
  rw [System.setProgram, System.onProcess, List.getElem?_modify_eq] at hy
  obtain ⟨z, -, rfl⟩ := Option.map_eq_some_iff.mp hy
  exact onward

lemma run (h : s.Discharged k) (spares : ∀ P, s.program? p = some P → P.Spares k) (n : Nat) :
    (System.run p n s).Discharged k := by
  induction n generalizing s with
  | zero => exact h.of_quiet (.wake s p)
  | succ n ih =>
    rw [System.run]
    split
    · exact h
    next P hP =>
      have after := h.step p (spares P hP)
      have onward := h.spares_step p (spares P hP)
      generalize hstep : s.step p P = x at after onward
      obtain ⟨s', turn⟩ := x
      cases turn with
      | go N =>
        obtain ⟨goes, own⟩ := h.goesOn (spares P hP) hstep
        exact ih goes own
      | wait N => exact after.suspends p onward
      | done result => exact after.ends p (some result)

end Discharged

end System

/-- A step that is taken when nobody has to do with a context any more: its process has nothing to do with it, or is
stopped and puts nothing into a queue. -/
structure Step.IsPast (k : ContextId) (x : Step) : Prop where
  before : x.before.Discharged k
  acts : x.turn.isSome = true → x.program.Spares k
  stops : x.turn = none → ∀ c, x.put c = []

namespace System.Discharged

variable {s : System} {p : ProcessId} {k : ContextId}

lemma mem_stepsOf {n : Nat} {x : Step} (h : s.Discharged k) (spares : ∀ P, s.program? p = some P → P.Spares k)
    (hx : x ∈ stepsOf p n s) : x.IsPast k := by
  obtain ⟨⟨before, own⟩, taken⟩ := of_mem_stepsOf
    (Q := fun s => s.Discharged k ∧ ∀ P, s.program? p = some P → P.Spares k)
    (fun _ P _ _ ⟨h, spares⟩ hP hstep => h.goesOn (spares P hP) hstep) ⟨h, spares⟩ hx
  have spared := own x.program taken.1
  obtain ⟨-, turn, hturn, -⟩ := taken
  exact ⟨before, fun _ => spared, fun stopped => by cases stopped.symm.trans hturn⟩

/-- A process that is stopped puts nothing into a queue. -/
lemma sentOver_cancel (s : System) (p : ProcessId) (P : Program) (c : ChannelId) :
    (s.cancel p P).sentOver c = s.sentOver c := by
  have ended (s : System) : (s.finish p none).sentOver c = s.sentOver c := (Calm.finish s p none).sent c
  rw [System.cancel]
  cases P.handover? with
  | none => exact ended s
  | some y => exact (ended _).trans ((Mute.giveUp s p y).sent c)

/-- A turn of any process. -/
lemma turn (h : s.Discharged k) (p : ProcessId) (allowance n : Nat) :
    (s.turn p allowance n).1.Discharged k ∧ ∀ x ∈ (s.turn p allowance n).2, x.IsPast k := by
  rw [System.turn]
  cases hy : s.processes[p]? with
  | none => exact ⟨h, fun x hx => absurd hx List.not_mem_nil⟩
  | some y =>
    have hands := h.hands y (List.mem_of_getElem? hy)
    dsimp only
    split_ifs with finished cancelled
    · exact ⟨h, fun x hx => absurd hx List.not_mem_nil⟩
    · refine ⟨?_, fun x hx => ?_⟩
      · rw [System.cancel]
        cases y.program.handover? with
        | none => exact h.ends p none
        | some w => exact (h.of_quiet (.giveUp s p w)).ends p none
      · cases List.mem_singleton.mp hx
        refine ⟨h, fun acts => (by cases acts), fun _ c => ?_⟩
        rw [Step.put, sentOver_cancel, List.drop_length]
    · have begun : System.Discharged k { s with allowance } := ⟨h.known, h.hands, h.tasks⟩
      have own (P : Program) (hP : System.program? { s with allowance } p = some P) : P.Spares k := by
        have same : P = y.program := by
          rw [System.program?, hy] at hP
          exact (Option.some.inj hP).symm
        rw [same]
        exact hands.resolve_right fun stopped => cancelled stopped.1
      exact ⟨begun.run own n, fun x hx => begun.mem_stepsOf own hx⟩

/-! ### Whatever happens -/

/-- Whatever is done from outside concerns other tasks. -/
lemma kill (h : s.Discharged k) (i : SessionId) : (s.kill i).Discharged k := by
  rw [System.kill]
  split
  · exact h
  next x hx =>
    refine abortAll (h.onSession fun y _ _ => ?_) _
    rw [y.contexts_kill]
    exact List.not_mem_nil

lemma submitTask (h : s.Discharged k) {t : Task} (other : t.context ≠ k) :
    (s.submitTask session t).1.Discharged k := by
  have outcome := s.submitTask_outcome session t
  generalize s.submitTask session t = x at outcome ⊢
  cases outcome with
  | strays | closed | full => exact h
  | engages =>
    have stopped : (s.onSession session Session.stopAccepting).Discharged k := h.onSession fun _ _ hk => hk
    have spares : (Program.single session (.start t)).Spares k :=
      ⟨rfl, fun hk => other (List.mem_singleton.mp hk).symm⟩
    exact (stopped.spawn spares).onSession fun y _ hk => y.contexts_setHook .future _ ▸ hk
  | enqueues known accepting many queued =>
    refine (h.replace known fun hk hmem => ?_).notify session
    rw [Session.contexts_enqueue many queued, List.mem_append] at hmem
    exact hmem.elim hk fun same => other (List.mem_singleton.mp same).symm

end System.Discharged

namespace Chronicle

variable {h : Chronicle} {k : ContextId}

/-- Nobody has to do with the context after any incident, nor in its steps. -/
lemma incur_discharged (discharged : h.system.Discharged k) (e : Incident) :
    (h.incur e).system.Discharged k ∧ ∃ taken, (h.incur e).steps = h.steps ++ taken ∧ ∀ x ∈ taken, x.IsPast k := by
  have quiet {h' : Chronicle} (discharged : h'.system.Discharged k) (steps : h'.steps = h.steps) :
      h'.system.Discharged k ∧ ∃ taken, h'.steps = h.steps ++ taken ∧ ∀ x ∈ taken, x.IsPast k :=
    ⟨discharged, [], steps.trans (List.append_nil _).symm, fun x hx => absurd hx List.not_mem_nil⟩
  cases e with
  | kill => exact quiet (discharged.kill session) rfl
  | move m =>
    cases m with
    | submit r =>
      refine quiet ?_ ((h.incur_cases (.move (.submit r))).resolve_left (by simp)).1
      have made : (h.system.makeTask r channel).1.Discharged k :=
        discharged.of_still ⟨rfl, rfl, rfl, rfl⟩ (System.Changes.of_change (.context _)).contexts_le
      change (h.next (.submit r)).system.Discharged k
      rw [h.system_submit r]
      exact made.submitTask discharged.known.ne'
    | timeout elapsed ofSession => exact quiet (discharged.spawn ⟨rfl, List.not_mem_nil⟩) rfl
    | close =>
      have stopped : (h.system.onSession session Session.stopAccepting).Discharged k :=
        discharged.onSession fun _ _ hk => hk
      exact quiet (stopped.notify session) rfl
    | turn p allowance more =>
      have begun : System.Discharged k { h.system with ready := h.system.ready.erase p } :=
        ⟨discharged.known, discharged.hands, discharged.tasks⟩
      obtain ⟨after, past⟩ := begun.turn p allowance (more + 1)
      exact ⟨after, _, rfl, past⟩
    | bringBack => exact quiet (discharged.of_quiet (.bringBack _)) rfl
    | ring now => exact quiet (discharged.of_quiet (.ring _ now)) rfl
    | wait wall => exact quiet ⟨discharged.known, discharged.hands, discharged.tasks⟩ rfl
    | traffic f => exact quiet (discharged.spawn ⟨rfl, List.not_mem_nil⟩) rfl
    | transport f =>
      have changed : (h.system.onTransport channel f).Discharged k := by
        rw [System.onTransport]
        exact discharged.of_quiet ((System.Quiet.onChannel _ _ _).trans (.wakeAll _ _))
      exact quiet changed rfl

/-- **Whatever happens**, nobody has to do with the context any more. -/
theorem undergo_discharged (discharged : h.system.Discharged k) (incidents : List Incident) :
    ∃ taken, (h.undergo incidents).steps = h.steps ++ taken ∧ ∀ x ∈ taken, x.IsPast k := by
  induction incidents generalizing h with
  | nil => exact ⟨[], (List.append_nil _).symm, fun x hx => absurd hx List.not_mem_nil⟩
  | cons e incidents ih =>
    obtain ⟨after, taken, steps, past⟩ := incur_discharged discharged e
    obtain ⟨more, steps', past'⟩ := ih after
    refine ⟨taken ++ more, ?_, fun x hx => (List.mem_append.mp hx).elim (past x) (past' x)⟩
    rw [← List.append_assoc, ← steps]
    exact steps'

end Chronicle

end GraphServer
