import GraphServer.Proofs.Session.Course

/-!
Who does what for a session.

* `Process.Serves`: what a process may be about;
* `Affairs.Staffed`: one process executes the tasks, at most one handler is at work, which is that of the
  task in flight, and at most one process brings the session to its end;
* one lemma for each kind of change: `Staffed.change` for what is no process's business,
  `Staffed.setProgram` for a process that moves on, `Staffed.land` and `Staffed.interrupt` for a task that
  leaves the flight, `Staffed.begin` for one that enters it.
-/

namespace GraphServer

/-! ### Programs -/

namespace TimeoutPoint

/-- Whether the session is being brought to its end. -/
def inCharge : TimeoutPoint → Bool
  | draining | answering _ | closing | disarming => true
  | sending _ next => next.inCharge
  | _ => false

/-- Where the end of a session's time goes on after something that it sends. -/
inductive Follows : Sent → TimeoutPoint → Prop
  | draining (r : Response) (concludes : r.concludes = true) : Follows (.response r) .draining
  | answering (r : Response) (concludes : r.concludes = true) (rest : List Task) :
    Follows (.response r) (.answering rest)
  | over (r : Response) (concludes : r.concludes = true) : Follows (.response r) .over
  | disarming : Follows .close .disarming

end TimeoutPoint

namespace Program

/-- Whether a program executes the tasks of a session. -/
def executes : Program → Bool
  | single _ _ | worker _ _ => true
  | _ => false

/-- Whether a program brings a session to its end. -/
def inCharge : Program → Bool
  | timeout _ _ _ point => point.inCharge
  | _ => false

/-- Whether a program is that of the process that watches the lifetime of a session. -/
def watches : Program → Bool
  | lifetime _ _ _ | timeout _ _ true _ | finished _ => true
  | _ => false

/-- Whether a program has no part in what becomes of the tasks. The end of a session's time has none before its
first step. -/
def standsBy : Program → Bool
  | lifetime _ _ _ | timeout _ _ _ .start | writer _ | delivery _ _ _ | finished _ => true
  | _ => false

lemma standsBy_aside {program : Program} (h : program.standsBy = true) :
    program.contexts = [] ∧ program.runPoint? = none ∧ program.executes = false ∧ program.inCharge = false := by
  cases program with
  | timeout j elapsed ofSession point =>
    cases point with
    | start => exact ⟨rfl, rfl, rfl, rfl⟩
    | _ => cases h
  | lifetime | writer | delivery | finished => exact ⟨rfl, rfl, rfl, rfl⟩
  | _ => cases h

/-- All that a program that stands by may wait to hand over is a frame. -/
lemma meaning_of_standsBy {program : Program} {i : SessionId} {c : ChannelId} {y : Handover}
    (h : program.standsBy = true) (concerns : program.Concerns i c) (hy : program.handover? = some y) :
    y.parcel.meaning = none := by
  cases program with
  | delivery d x point =>
    cases point with
    | start => cases hy
    | sending z =>
      cases hy
      exact concerns.2.2 _ rfl
  | timeout j elapsed ofSession point =>
    cases point with
    | start => cases hy
    | _ => cases h
  | lifetime | writer | finished => cases hy
  | _ => cases h

lemma context_mem {program : Program} {point : RunPoint} {t : Task} (hpoint : program.runPoint? = some point)
    (ht : point.task? = some t) : t.context ∈ program.contexts := by
  have hmem : t.context ∈ (program.runPoint?.bind (·.task?)).toList.map (·.context) := by
    rw [hpoint, Option.bind_some, ht]
    exact List.mem_singleton_self _
  cases program with
  | handler k point => cases hpoint
  | timeout i elapsed ofSession point => cases hpoint
  | _ => exact hmem

end Program

/-- What a process may be about, given how many contexts there are and how the session stands. -/
structure Process.Serves (i : SessionId) (c : ChannelId) (contexts : Nat) (s : Session) (p : ProcessId)
    (x : Process) : Prop where
  concerns : x.program.Concerns i c
  known : ∀ k ∈ x.program.contexts, k < contexts
  handover : ∀ h, x.program.handover? = some h → h.channel = c
  /-- Only what brings the session to its end waits to close the channel. -/
  follows : ∀ h, x.program.handover? = some h → h.parcel.meaning = some .close → x.program.owesClose = true
  resumes : ∀ j elapsed ofSession h next, x.program = .timeout j elapsed ofSession (.sending h next) →
    ∃ m, h.parcel.meaning = some m ∧ TimeoutPoint.Follows m next
  /-- Only the process in the hook of the session executes tasks, and it is not stopped. -/
  executor : x.program.executes = true → s.future = some p ∧ x.cancelled = false
  solo : ∀ j point, x.program = .single j point → s.backlog = none
  /-- A handler that is not stopped is that of the task in flight. -/
  handler : ∀ k point, x.program = .handler k point → x.cancelled = false → s.inFlight = some ⟨k, p⟩
  watcher : s.cancelFuture = some p → x.program.watches = true
  /-- The session is brought to its end when its time is up. -/
  charge : ∀ j elapsed ofSession point, x.program = .timeout j elapsed ofSession point → point.inCharge = true →
    ofSession = true ∧ s.timedOut = some elapsed

namespace Process.Serves

variable {i : SessionId} {c : ChannelId} {n : Nat} {s : Session} {p : ProcessId} {x y : Process}

/-- A process that is stopped serves as before, unless it executes tasks. -/
lemma stopped (h : x.Serves i c n s p) (program : y.program = x.program)
    (aside : y = x ∨ y.cancelled = true ∧ x.program.executes = false) : y.Serves i c n s p := by
  rcases aside with rfl | ⟨hcancelled, haside⟩
  · exact h
  · constructor
    · rw [program]
      exact h.concerns
    · rw [program]
      exact h.known
    · rw [program]
      exact h.handover
    · rw [program]
      exact h.follows
    · rw [program]
      exact h.resumes
    · intro hexecutes
      cases (program ▸ haside).symm.trans hexecutes
    · rw [program]
      exact h.solo
    · intro k point _ hgoes
      cases hcancelled.symm.trans hgoes
    · rw [program]
      exact h.watcher
    · rw [program]
      exact h.charge

/-- What a process may be about lasts while the session has it in the same places. -/
lemma mono {m : Nat} {s' : Session} (h : x.Serves i c n s p) (contexts : n ≤ m) (future : s'.future = s.future)
    (cancelFuture : s'.cancelFuture = s.cancelFuture) (backlog : s.backlog = none → s'.backlog = none)
    (timedOut : ∀ elapsed, s.timedOut = some elapsed → s'.timedOut = some elapsed)
    (handler : ∀ k point, x.program = .handler k point → x.cancelled = false → s.inFlight = some ⟨k, p⟩ →
      s'.inFlight = some ⟨k, p⟩) : x.Serves i c m s' p where
  concerns := h.concerns
  known k hk := (h.known k hk).trans_le contexts
  handover := h.handover
  follows := h.follows
  resumes := h.resumes
  executor := future ▸ h.executor
  solo j point hp := backlog (h.solo j point hp)
  handler k point hp hgoes := handler k point hp hgoes (h.handler k point hp hgoes)
  watcher := cancelFuture ▸ h.watcher
  charge j elapsed ofSession point hp hcharge :=
    (h.charge j elapsed ofSession point hp hcharge).imp id (timedOut elapsed)

/-- A handler that has taken no step: it is stopped, or its task is in flight. -/
lemma beginning {k : ContextId} {handler : Handler} {cancelled : Bool} (known : k < n) (unwatched : s.cancelFuture ≠ some p)
    (flight : cancelled = false → s.inFlight = some ⟨k, p⟩) :
    Process.Serves i c n s p ⟨.handler k (.ready handler), cancelled⟩ where
  concerns := trivial
  known j hj := by
    cases List.mem_singleton.mp hj
    exact known
  handover y hy := by cases hy
  follows y hy := by cases hy
  resumes j elapsed ofSession y next hp := by cases hp
  executor hexecutes := by cases hexecutes
  solo j point hp := by cases hp
  handler j point hp hgoes := by
    cases hp
    exact flight hgoes
  watcher hwatch := absurd hwatch unwatched
  charge j elapsed ofSession point hp := by cases hp

/-- The process that is to execute the tasks has taken no step. -/
lemma appointed {program : Program} (executes : program.executes = true) (concerns : program.Concerns i c)
    (known : ∀ k ∈ program.contexts, k < n) (idle : program.handover? = none)
    (solo : ∀ j point, program = .single j point → s.backlog = none) (future : s.future = some p)
    (unwatched : s.cancelFuture ≠ some p) : Process.Serves i c n s p { program } where
  concerns := concerns
  known := known
  handover y hy := by cases idle.symm.trans hy
  follows y hy := by cases idle.symm.trans hy
  resumes j elapsed ofSession y next hp := by
    cases hp
    cases executes
  executor _ := ⟨future, rfl⟩
  solo := solo
  handler k point hp := by
    cases hp
    cases executes
  watcher hwatch := absurd hwatch unwatched
  charge j elapsed ofSession point hp := by
    cases hp
    cases executes

end Process.Serves

namespace Affairs

variable {i : SessionId} {c : ChannelId} {a b : Affairs} {p q : ProcessId} {x y : Process} {program : Program}

/-! ### Processes after a change -/

lemma mem_setProgram (h : (a.setProgram p program).processes[q]? = some x) :
    q = p ∧ (∃ y, a.processes[p]? = some y ∧ x = { y with program }) ∨ q ≠ p ∧ a.processes[q]? = some x := by
  rw [setProgram, onProcess] at h
  by_cases hq : q = p
  · subst hq
    rw [List.getElem?_modify_eq] at h
    obtain ⟨y, hy, rfl⟩ := Option.map_eq_some_iff.mp h
    exact .inl ⟨rfl, y, hy, rfl⟩
  · rw [List.getElem?_modify_ne _ _ (Ne.symm hq)] at h
    exact .inr ⟨hq, h⟩

lemma setProgram_self (h : a.processes[p]? = some x) :
    (a.setProgram p program).processes[p]? = some { x with program } := by
  rw [setProgram, onProcess, List.getElem?_modify_eq, h]
  rfl

lemma setProgram_ne (hq : q ≠ p) : (a.setProgram p program).processes[q]? = a.processes[q]? := by
  rw [setProgram, onProcess, List.getElem?_modify_ne _ _ (Ne.symm hq)]

lemma program?_setProgram_self (h : a.processes[p]? = some x) : (a.setProgram p program).program? p = some program := by
  rw [program?, setProgram_self h]
  rfl

lemma program?_setProgram_ne (hq : q ≠ p) : (a.setProgram p program).program? q = a.program? q := by
  rw [program?, setProgram_ne hq, program?]

lemma mem_add (h : (a.processes ++ [y])[q]? = some x) :
    a.processes[q]? = some x ∨ q = a.processes.length ∧ x = y := by
  rcases Nat.lt_or_ge q a.processes.length with hq | hq
  · exact .inl ((List.getElem?_append_left hq).symm.trans h)
  · have h := (List.getElem?_append_right hq).symm.trans h
    cases hn : q - a.processes.length with
    | zero =>
      rw [hn] at h
      cases h
      exact .inr ⟨Nat.le_antisymm (Nat.sub_eq_zero_iff_le.mp hn) hq, rfl⟩
    | succ n =>
      rw [hn] at h
      cases h

lemma addProcess_of_some (h : a.processes[q]? = some x) : (a.addProcess program).processes[q]? = some x :=
  List.getElem?_append_left (List.getElem?_eq_some_iff.mp h).1 ▸ h

lemma stop_session (a : Affairs) (p : ProcessId) : (a.stop p).session = a.session := by
  rw [stop]
  split <;> rfl

lemma stop_contexts (a : Affairs) (p : ProcessId) : (a.stop p).contexts = a.contexts := by
  rw [stop]
  split <;> rfl

lemma stop_sent (a : Affairs) (p : ProcessId) : (a.stop p).sent = a.sent := by
  rw [stop]
  split <;> rfl

/-- Stopping a process leaves all programs as they are, and marks that process alone. -/
lemma mem_stop (h : (a.stop p).processes[q]? = some x) :
    ∃ y, a.processes[q]? = some y ∧ x.program = y.program ∧
      ((q ≠ p ∨ y.program.isFinished = true) ∧ x = y ∨ q = p ∧ x.cancelled = true) := by
  rw [stop] at h
  cases hp : a.program? p with
  | none =>
    rw [hp] at h
    refine ⟨x, h, rfl, .inl ⟨.inl ?_, rfl⟩⟩
    rintro rfl
    rw [program?, show a.processes[q]? = some x from h] at hp
    cases hp
  | some program =>
    rw [hp] at h
    by_cases hq : q = p
    · subst hq
      obtain ⟨y, hy, hprogram⟩ := Option.map_eq_some_iff.mp hp
      cases program with
      | finished result =>
        refine ⟨x, h, rfl, .inl ⟨.inr ?_, rfl⟩⟩
        cases hy.symm.trans h
        rw [hprogram]
        rfl
      | _ =>
        rw [onProcess, List.getElem?_modify_eq, hy] at h
        cases h
        exact ⟨y, hy, rfl, .inr ⟨rfl, rfl⟩⟩
    · cases program with
      | finished result => exact ⟨x, h, rfl, .inl ⟨.inl hq, rfl⟩⟩
      | _ =>
        rw [onProcess, List.getElem?_modify_ne _ _ (Ne.symm hq)] at h
        exact ⟨x, h, rfl, .inl ⟨.inl hq, rfl⟩⟩

lemma stop_of_some (p : ProcessId) (h : a.processes[q]? = some x) :
    ∃ y, (a.stop p).processes[q]? = some y ∧ y.program = x.program ∧
      (q ≠ p ∨ x.program.isFinished = true → y = x) := by
  rw [stop]
  by_cases hq : q = p
  · subst hq
    have hprogram : a.program? q = some x.program := program?_of_some h
    rw [hprogram]
    cases hx : x.program with
    | finished result => exact ⟨x, h, hx, fun _ => rfl⟩
    | _ =>
      refine ⟨{ x with cancelled := true }, ?_, hx, fun hne => ?_⟩
      · dsimp only
        rw [onProcess, List.getElem?_modify_eq, h]
        rfl
      · rcases hne with hne | hne
        · exact absurd rfl hne
        · cases hne
  · cases a.program? p with
    | none => exact ⟨x, h, rfl, fun _ => rfl⟩
    | some program =>
      cases program with
      | finished result => exact ⟨x, h, rfl, fun _ => rfl⟩
      | _ =>
        refine ⟨x, ?_, rfl, fun _ => rfl⟩
        dsimp only
        rw [onProcess, List.getElem?_modify_ne _ _ (Ne.symm hq)]
        exact h

lemma stop_length (a : Affairs) (p : ProcessId) : (a.stop p).processes.length = a.processes.length := by
  rw [stop]
  split
  · rfl
  · rfl
  · exact List.length_modify ..

/-- A process that is added and stopped at once. -/
lemma launch_stop (a : Affairs) (k : ContextId) (handler : Handler) :
    (a.launch k handler).stop a.processes.length =
      { a with processes := a.processes ++ [⟨.handler k (.ready handler), true⟩] } := by
  have hprogram : (a.launch k handler).program? a.processes.length = some (.handler k (.ready handler)) := by
    rw [program?, launch, addProcess, List.getElem?_concat_length]
    rfl
  rw [stop, hprogram]
  dsimp only
  rw [onProcess, launch, addProcess]
  dsimp only
  rw [List.modify_eq_take_cons_drop (by simp)]
  simp

lemma program?_stop (a : Affairs) (p q : ProcessId) : (a.stop p).program? q = a.program? q := by
  cases h : a.processes[q]? with
  | some x =>
    obtain ⟨y, hy, hprogram, -⟩ := stop_of_some p h
    rw [program?_of_some hy, program?_of_some h, hprogram]
  | none =>
    cases h' : (a.stop p).processes[q]? with
    | none => rw [program?, program?, h, h']
    | some x =>
      obtain ⟨y, hy, -⟩ := mem_stop h'
      cases h.symm.trans hy

lemma setProgram_length (a : Affairs) (p : ProcessId) (program : Program) :
    (a.setProgram p program).processes.length = a.processes.length :=
  List.length_modify ..

/-! ### The queue after a change -/

lemma queue_setNotified (a : Affairs) (notified : Bool) :
    (a.onSession (·.setNotified notified)).queue = a.queue := by
  rw [queue, queue, onSession, Session.setNotified]
  cases a.session.backlog <;> rfl

lemma drain_fst (a : Affairs) : a.session.drain.1 = a.queue := by
  rw [queue, Session.drain_fst]

/-- What taking all tasks that wait leaves. -/
lemma drain_snd (s : Session) :
    ∃ backlog : Option Backlog, s.drain.2 = { s with backlog } ∧ (backlog = none ↔ s.backlog = none) ∧
      (backlog.map (·.tasks)).getD [] = [] := by
  refine ⟨_, s.drain_snd, Option.map_eq_none_iff, ?_⟩
  cases s.backlog <;> rfl

lemma isNotified_drain (s : Session) : s.drain.2.isNotified = s.isNotified := by
  rw [Session.drain_snd, Session.isNotified, Session.isNotified]
  cases s.backlog <;> rfl

lemma queue_of_dequeue? {x : Session} {t : Task} (h : a.session.dequeue? = some (t, x)) :
    a.queue = t :: Affairs.queue { a with session := x } := by
  obtain ⟨b, rest, hb, ht, rfl⟩ := Session.dequeue?_eq_some h
  rw [queue, hb, Option.map_some, Option.getD_some, ht]
  rfl

lemma queue_of_dequeue?_none (h : a.session.dequeue? = none) : a.queue = [] := by
  rw [queue]
  rw [Session.dequeue?] at h
  cases hb : a.session.backlog with
  | none => rfl
  | some b =>
    rw [hb] at h
    dsimp only at h
    cases ht : b.tasks with
    | nil => rw [Option.map_some, Option.getD_some, ht]
    | cons u rest =>
      rw [ht] at h
      cases h

/-! ### Contexts after a change -/

lemma isOpen_conclude_self (a : Affairs) (k : ContextId) : (a.conclude k).isOpen k = false := by
  rw [isOpen, conclude, List.getElem?_modify_eq]
  cases a.contexts[k]? <;> rfl

lemma isOpen_conclude_ne {j k : ContextId} (hj : j ≠ k) : (a.conclude k).isOpen j = a.isOpen j := by
  rw [isOpen, conclude, List.getElem?_modify_ne _ _ (Ne.symm hj), isOpen]

lemma isOpen_of_conclude {j k : ContextId} (h : (a.conclude k).isOpen j = true) : a.isOpen j = true := by
  by_cases hj : j = k
  · subst hj
    rw [isOpen_conclude_self] at h
    cases h
  · rw [← isOpen_conclude_ne hj]
    exact h

lemma bound_conclude (h : a.Bound c) (k : ContextId) : (a.conclude k).Bound c := by
  intro j x hx
  rw [conclude] at hx
  by_cases hj : j = k
  · subst hj
    rw [List.getElem?_modify_eq] at hx
    obtain ⟨y, hy, rfl⟩ := Option.map_eq_some_iff.mp hx
    exact h j y hy
  · rw [List.getElem?_modify_ne _ _ (Ne.symm hj)] at hx
    exact h j x hx

/-! ### Staff -/

/-- The processes of a session and where they stand. -/
structure Staffed (i : SessionId) (c : ChannelId) (a : Affairs) : Prop where
  alive : a.session.killed = false
  home : a.session.channel = c
  bound : a.Bound c
  /-- A session for one task that was not accepted yet has no process that executes it. -/
  vacant : a.session.backlog = none → a.session.accepting = true → a.session.future = none
  /-- No task is accepted any more once the time is up. -/
  shut : a.session.timedOut.isSome = true → a.session.accepting = false
  hooks : ∀ p, a.session.future = some p ∨ a.session.cancelFuture = some p → p < a.processes.length
  serves : ∀ (p : ProcessId) (x : Process), a.processes[p]? = some x → x.Serves i c a.contexts.length a.session p
  queued : ∀ t ∈ a.queue, t.context < a.contexts.length
  /-- The handler of the task in flight is not stopped. -/
  handled : ∀ f, a.session.inFlight = some f →
    ∃ x : Process, a.processes[f.handler]? = some x ∧ x.cancelled = false ∧
      ((∃ point, x.program = .handler f.context point) ∨ ∃ result, x.program = .finished (some result))
  /-- The execution waits for the handler of the task in flight. -/
  joining : ∀ f, a.session.inFlight = some f → ∃ t d, a.point? = some (.joining t f.handler d) ∧ t.context = f.context
  /-- A task that was taken out of flight is answered. -/
  joined : ∀ t h d, a.point? = some (.joining t h d) → a.session.inFlight = none → a.isOpen t.context = false
  /-- No task is in flight once the time is up. -/
  landed : a.session.timedOut.isSome = true → a.session.inFlight = none
  /-- One process at most brings the session to its end. -/
  unique : ∀ (p q : ProcessId) (x y : Process), a.processes[p]? = some x → a.processes[q]? = some y →
    x.program.inCharge = true → y.program.inCharge = true → p = q

namespace Staffed

lemma congr (h : a.Staffed i c) (session : b.session = a.session) (contexts : b.contexts = a.contexts)
    (processes : b.processes = a.processes) : b.Staffed i c := by
  cases a
  cases b
  cases session
  cases contexts
  cases processes
  exact ⟨h.alive, h.home, h.bound, h.vacant, h.shut, h.hooks, h.serves, h.queued, h.handled, h.joining, h.joined, h.landed, h.unique⟩

/-- The session does not wait for a process that is still to come. -/
lemma unwatched (h : a.Staffed i c) : a.session.cancelFuture ≠ some a.processes.length :=
  fun hwatch => Nat.lt_irrefl _ (h.hooks _ (.inr hwatch))

/-- What is no process's business. -/
lemma change (h : a.Staffed i c) (bound : b.Bound c) (contexts : a.contexts.length ≤ b.contexts.length)
    (queued : ∀ t ∈ b.queue, t.context < b.contexts.length)
    (closes : ∀ k < a.contexts.length, b.isOpen k = true → a.isOpen k = true)
    (backlog : b.session.backlog = none ↔ a.session.backlog = none)
    (accepting : b.session.accepting = true → a.session.accepting = true)
    (processes : b.processes = a.processes := by rfl) (killed : b.session.killed = a.session.killed := by rfl)
    (channel : b.session.channel = a.session.channel := by rfl)
    (future : b.session.future = a.session.future := by rfl)
    (inFlight : b.session.inFlight = a.session.inFlight := by rfl)
    (cancelFuture : b.session.cancelFuture = a.session.cancelFuture := by rfl)
    (timedOut : b.session.timedOut = a.session.timedOut := by rfl) : b.Staffed i c := by
  have hpoint : b.point? = a.point? := by
    rw [point?, point?, future]
    unfold program?
    rw [processes]
  refine ⟨killed ▸ h.alive, channel ▸ h.home, bound, ?vacant, ?shut, ?hooks, ?serves, queued, ?handled, ?joining, ?joined,
    ?landed, ?unique⟩
  case vacant =>
    intro hb ha
    rw [future]
    exact h.vacant (backlog.mp hb) (accepting ha)
  case shut =>
    intro hlate
    rw [timedOut] at hlate
    exact Bool.eq_false_iff.mpr fun ha => Bool.eq_false_iff.mp (h.shut hlate) (accepting ha)
  case hooks =>
    rw [future, cancelFuture, processes]
    exact h.hooks
  case serves =>
    intro p x hx
    exact (h.serves p x (processes ▸ hx)).mono contexts future cancelFuture backlog.mpr
      (fun elapsed he => timedOut.trans he) fun k point _ _ hf => inFlight.trans hf
  case handled =>
    rw [inFlight, processes]
    exact h.handled
  case joining =>
    rw [inFlight, hpoint]
    exact h.joining
  case joined =>
    rw [inFlight, hpoint]
    intro t k d ht hf
    have hknown : t.context < a.contexts.length := by
      obtain ⟨program, hprogram, hpoint⟩ := Option.bind_eq_some_iff.mp ht
      obtain ⟨p, -, hprogram⟩ := Option.bind_eq_some_iff.mp hprogram
      obtain ⟨x, hx, rfl⟩ := Option.map_eq_some_iff.mp hprogram
      exact (h.serves p x hx).known _ (Program.context_mem hpoint rfl)
    exact Bool.eq_false_iff.mpr fun hopen => Bool.eq_false_iff.mp (h.joined t k d ht hf) (closes _ hknown hopen)
  case landed =>
    rw [inFlight, timedOut]
    exact h.landed
  case unique =>
    rw [processes]
    exact h.unique

/-- Something was sent or kept from being sent. -/
lemma mails (h : a.Staffed i c) {m : Option Sent} {t : Transit} (hm : a.Mails c m b t) : b.Staffed i c := by
  cases hm <;> exact h.congr rfl rfl rfl

lemma conclude (h : a.Staffed i c) (k : ContextId) : (a.conclude k).Staffed i c := by
  have hlength : (a.conclude k).contexts.length = a.contexts.length := List.length_modify ..
  refine h.change (bound_conclude h.bound k) hlength.ge ?_ (fun j _ => isOpen_of_conclude) Iff.rfl id
  intro t ht
  rw [hlength]
  exact h.queued t ht

/-- The worker is notified. -/
lemma notify (h : a.Staffed i c) : a.notify.Staffed i c := by
  refine h.change h.bound le_rfl ?_ (fun _ _ => id) ?_ id
  · intro t ht
    change t ∈ (a.onSession (·.setNotified true)).queue at ht
    rw [queue_setNotified] at ht
    exact h.queued t ht
  · change (a.session.backlog.map _) = none ↔ _
    rw [Option.map_eq_none_iff]

/-- All tasks that wait are taken. -/
lemma drain (h : a.Staffed i c) : Affairs.Staffed i c { a with session := a.session.drain.2 } := by
  obtain ⟨backlog, hdrain, hnone, hempty⟩ := drain_snd a.session
  rw [hdrain]
  refine h.change h.bound le_rfl ?_ (fun _ _ => id) hnone id
  intro t ht
  rw [queue, hempty] at ht
  cases ht

/-- A process moves on at a point of its program. -/
lemma setProgram (h : a.Staffed i c) (hx : a.processes[p]? = some x)
    (serves : Process.Serves i c a.contexts.length a.session p { x with program })
    (handler : ∀ k point, x.program = .handler k point → x.cancelled = false →
      (∃ point, program = .handler k point) ∨ ∃ result, program = .finished (some result))
    (ended : ∀ result, x.program = .finished result → x.cancelled = false → program = .finished result)
    (point : program.runPoint? = x.program.runPoint? ∨
      a.session.inFlight = none ∧ ∀ t h d, program.runPoint? ≠ some (.joining t h d))
    (charge : program.inCharge = true → x.program.inCharge = true ∨
      ∀ (q : ProcessId) (y : Process), a.processes[q]? = some y → y.program.inCharge = false) :
    (a.setProgram p program).Staffed i c := by
  have hexecuting (he : a.session.future ≠ some p) : (a.setProgram p program).point? = a.point? := by
    rw [point?, point?]
    cases hf : a.session.future with
    | none => rw [show (a.setProgram p program).session.future = none from hf]; rfl
    | some e =>
      rw [show (a.setProgram p program).session.future = some e from hf, Option.bind_some, Option.bind_some,
        program?_setProgram_ne fun hp => he (hf.trans (congrArg some hp))]
  have hexecutor (he : a.session.future = some p) :
      (a.setProgram p program).point? = program.runPoint? ∧ a.point? = x.program.runPoint? := by
    constructor
    · rw [point?, show (a.setProgram p program).session.future = some p from he, Option.bind_some,
        program?_setProgram_self hx, Option.bind_some]
    · rw [point?, he, Option.bind_some, program?, hx, Option.map_some, Option.bind_some]
  refine ⟨h.alive, h.home, h.bound, h.vacant, h.shut, ?hooks, ?serves, h.queued, ?handled, ?joining, ?joined, h.landed,
    ?unique⟩
  case hooks =>
    intro q hq
    rw [setProgram_length]
    exact h.hooks q hq
  case serves =>
    intro q y hy
    rcases mem_setProgram hy with ⟨rfl, z, hz, rfl⟩ | ⟨-, hy⟩
    · cases hx.symm.trans hz
      exact serves
    · exact h.serves q y hy
  case handled =>
    intro f hf
    obtain ⟨y, hy, hcancelled, hprogram⟩ := h.handled f hf
    by_cases hp : f.handler = p
    · subst hp
      cases hx.symm.trans hy
      refine ⟨_, setProgram_self hx, hcancelled, ?_⟩
      rcases hprogram with ⟨point, hpoint⟩ | ⟨result, hresult⟩
      · exact handler _ _ hpoint hcancelled
      · exact .inr ⟨result, ended _ hresult hcancelled⟩
    · exact ⟨y, (setProgram_ne hp).trans hy, hcancelled, hprogram⟩
  case joining =>
    intro f hf
    obtain ⟨t, d, hpoint, ht⟩ := h.joining f hf
    refine ⟨t, d, ?_, ht⟩
    by_cases he : a.session.future = some p
    · obtain ⟨hafter, hbefore⟩ := hexecutor he
      rcases point with hsame | ⟨hidle, -⟩
      · rw [hafter, hsame, ← hbefore, hpoint]
      · cases hidle.symm.trans hf
    · rw [hexecuting he, hpoint]
  case joined =>
    intro t k d ht hidle
    by_cases he : a.session.future = some p
    · obtain ⟨hafter, hbefore⟩ := hexecutor he
      rcases point with hsame | ⟨-, hnot⟩
      · exact h.joined t k d (hbefore.trans (hsame.symm.trans (hafter.symm.trans ht))) hidle
      · exact absurd (hafter.symm.trans ht) (hnot t k d)
    · exact h.joined t k d ((hexecuting he).symm.trans ht) hidle
  case unique =>
    intro q r y z hy hz hq hr
    rcases mem_setProgram hy with ⟨rfl, y', -, rfl⟩ | ⟨-, hy'⟩ <;>
      rcases mem_setProgram hz with ⟨rfl, z', -, rfl⟩ | ⟨-, hz'⟩
    · rfl
    · rcases charge hq with hcharge | hnobody
      · exact h.unique _ _ x z hx hz' hcharge hr
      · exact absurd hr (Bool.eq_false_iff.mp (hnobody _ z hz'))
    · rcases charge hr with hcharge | hnobody
      · exact h.unique _ _ y x hy' hx hq hcharge
      · exact absurd hq (Bool.eq_false_iff.mp (hnobody _ y hy'))
    · exact h.unique _ _ y z hy' hz' hq hr

/-- A process that is no handler of a task in flight and does not bring the session to its end. -/
lemma add (h : a.Staffed i c) (serves : x.Serves i c a.contexts.length a.session a.processes.length)
    (aside : x.program.inCharge = false) :
    Affairs.Staffed i c { a with processes := a.processes ++ [x] } := by
  have hkeeps {q : ProcessId} {y : Process} (hy : a.processes[q]? = some y) :
      (a.processes ++ [x])[q]? = some y := by
    rw [List.getElem?_append_left (List.getElem?_eq_some_iff.mp hy).1, hy]
  have hmem {q : ProcessId} {y : Process} (hy : (a.processes ++ [x])[q]? = some y) :
      a.processes[q]? = some y ∨ q = a.processes.length ∧ y = x :=
    mem_add hy
  have hpoint : Affairs.point? { a with processes := a.processes ++ [x] } = a.point? := by
    rw [point?, point?]
    cases he : a.session.future with
    | none => rfl
    | some e =>
      have hlt := h.hooks e (.inl he)
      rw [Option.bind_some, Option.bind_some, program?, program?, List.getElem?_append_left hlt]
  refine ⟨h.alive, h.home, h.bound, h.vacant, h.shut, ?hooks, ?serves, h.queued, ?handled, ?joining, ?joined, h.landed,
    ?unique⟩
  case hooks =>
    intro q hq
    rw [List.length_append]
    exact Nat.lt_add_right _ (h.hooks q hq)
  case serves =>
    intro q y hy
    rcases hmem hy with hy | ⟨rfl, rfl⟩
    · exact h.serves q y hy
    · exact serves
  case handled =>
    intro f hf
    obtain ⟨y, hy, hrest⟩ := h.handled f hf
    exact ⟨y, hkeeps hy, hrest⟩
  case joining =>
    rw [hpoint]
    exact h.joining
  case joined =>
    rw [hpoint]
    exact h.joined
  case unique =>
    intro q r y z hy hz hq hr
    rcases hmem hy with hy | ⟨rfl, rfl⟩
    · rcases hmem hz with hz | ⟨rfl, rfl⟩
      · exact h.unique q r y z hy hz hq hr
      · cases aside.symm.trans hr
    · cases aside.symm.trans hq

/-- A process that is not at work on the task in flight is stopped. -/
lemma stop (h : a.Staffed i c) (p : ProcessId)
    (aside : ∀ x, a.processes[p]? = some x → x.program.executes = false)
    (idle : ∀ f, a.session.inFlight = some f → f.handler = p → ∃ result, a.program? p = some (.finished result)) :
    (a.stop p).Staffed i c := by
  have hpoint : (a.stop p).point? = a.point? := by
    rw [point?, point?, stop_session]
    exact congrArg (Option.bind · _) (congrArg _ (funext fun q => program?_stop a p q))
  have hopen : (a.stop p).isOpen = a.isOpen := funext fun k => by rw [isOpen, isOpen, stop_contexts]
  have hqueue : (a.stop p).queue = a.queue := by rw [queue, queue, stop_session]
  constructor
  case alive =>
    rw [stop_session]
    exact h.alive
  case home =>
    rw [stop_session]
    exact h.home
  case bound =>
    rw [Bound, stop_contexts]
    exact h.bound
  case vacant =>
    rw [stop_session]
    exact h.vacant
  case shut =>
    rw [stop_session]
    exact h.shut
  case hooks =>
    rw [stop_session, stop_length]
    exact h.hooks
  case serves =>
    intro q y hy
    obtain ⟨x, hx, hprogram, hstopped⟩ := mem_stop hy
    rw [stop_session, stop_contexts]
    refine (h.serves q x hx).stopped hprogram ?_
    rcases hstopped with ⟨-, rfl⟩ | ⟨rfl, hcancelled⟩
    · exact .inl rfl
    · exact .inr ⟨hcancelled, aside x hx⟩
  case queued =>
    rw [hqueue, stop_contexts]
    exact h.queued
  case handled =>
    rw [stop_session]
    intro f hf
    obtain ⟨x, hx, hcancelled, hprogram⟩ := h.handled f hf
    obtain ⟨y, hy, hsame, heq⟩ := stop_of_some p hx
    have hyx : y = x := by
      refine heq (or_iff_not_imp_left.mpr fun hp => ?_)
      obtain ⟨result, hresult⟩ := idle f hf (not_not.mp hp)
      rw [not_not.mp hp] at hx
      rw [program?_of_some hx] at hresult
      rw [Option.some.inj hresult]
      rfl
    subst hyx
    exact ⟨y, hy, hcancelled, hprogram⟩
  case joining =>
    rw [stop_session, hpoint]
    exact h.joining
  case joined =>
    rw [stop_session, hpoint, hopen]
    exact h.joined
  case landed =>
    rw [stop_session]
    exact h.landed
  case unique =>
    intro q r y z hy hz hq hr
    obtain ⟨y', hy', hyprogram, -⟩ := mem_stop hy
    obtain ⟨z', hz', hzprogram, -⟩ := mem_stop hz
    exact h.unique q r y' z' hy' hz' (hyprogram ▸ hq) (hzprogram ▸ hr)

/-- The task in flight is taken out of it, and its handler, if there is one, is at work no more. -/
lemma ground (h : a.Staffed i c) (session : b.session = a.land.session) (contexts : b.contexts = a.contexts)
    (programs : ∀ q, b.program? q = a.program? q) (length : b.processes.length = a.processes.length)
    (processes : ∀ (q : ProcessId) (y : Process), b.processes[q]? = some y → ∃ x, a.processes[q]? = some x ∧
      y.program = x.program ∧ (y = x ∨ y.cancelled = true ∧ x.program.executes = false))
    (stopped : ∀ (q : ProcessId) (y : Process) k point, b.processes[q]? = some y → y.program = .handler k point →
      y.cancelled = true)
    (closed : ∀ f, a.session.inFlight = some f → a.isOpen f.context = false) : b.Staffed i c := by
  have hpoint : b.point? = a.point? := by
    rw [point?, point?, session]
    exact congrArg (Option.bind · _) (congrArg _ (funext programs))
  have hopen : b.isOpen = a.isOpen := funext fun k => by rw [isOpen, isOpen, contexts]
  constructor
  case alive =>
    rw [session]
    exact h.alive
  case home =>
    rw [session]
    exact h.home
  case bound =>
    rw [Bound, contexts]
    exact h.bound
  case vacant =>
    rw [session]
    exact h.vacant
  case shut =>
    rw [session]
    exact h.shut
  case hooks =>
    rw [session, length]
    exact h.hooks
  case serves =>
    intro q y hy
    obtain ⟨x, hx, hprogram, hstopped⟩ := processes q y hy
    rw [session, contexts]
    refine ((h.serves q x hx).stopped hprogram hstopped).mono le_rfl rfl rfl id (fun _ => id) ?_
    intro k point hp hgoes
    cases (stopped q y k point hy hp).symm.trans hgoes
  case queued =>
    rw [queue, session, contexts]
    exact h.queued
  case handled =>
    rw [session]
    intro f hf
    cases hf
  case joining =>
    rw [session]
    intro f hf
    cases hf
  case joined =>
    rw [hpoint, hopen]
    intro t k d ht _
    cases hf : a.session.inFlight with
    | none => exact h.joined t k d ht hf
    | some f =>
      obtain ⟨t', d', ht', hcontext⟩ := h.joining f hf
      cases ht.symm.trans ht'
      rw [hcontext]
      exact closed f hf
  case landed =>
    rw [session]
    intro _
    rfl
  case unique =>
    intro q r y z hy hz hq hr
    obtain ⟨y', hy', hyprogram, -⟩ := processes q y hy
    obtain ⟨z', hz', hzprogram, -⟩ := processes r z hz
    exact h.unique q r y' z' hy' hz' (hyprogram ▸ hq) (hzprogram ▸ hr)

/-- The task in flight is answered and its handler has returned. -/
lemma land (h : a.Staffed i c) (closed : ∀ f, a.session.inFlight = some f → a.isOpen f.context = false)
    (ended : ∀ f, a.session.inFlight = some f → ∃ result, a.program? f.handler = some (.finished result)) :
    a.land.Staffed i c := by
  refine h.ground rfl rfl (fun _ => rfl) rfl (fun q y hy => ⟨y, hy, rfl, .inl rfl⟩) ?_ closed
  intro q y k point hy hp
  by_contra hgoes
  have hflight := (h.serves q y hy).handler k point hp (Bool.eq_false_iff.mpr hgoes)
  obtain ⟨result, hresult⟩ := ended _ hflight
  rw [program?_of_some (a := a) hy, hp] at hresult
  cases hresult

/-- The task in flight is answered and its handler is stopped. -/
lemma interrupt (h : a.Staffed i c) {f : InFlight} (busy : a.session.inFlight = some f)
    (closed : a.isOpen f.context = false) : (a.land.stop f.handler).Staffed i c := by
  obtain ⟨x, hx, -, hprogram⟩ := h.handled f busy
  have haside : x.program.executes = false := by
    rcases hprogram with ⟨point, hp⟩ | ⟨result, hp⟩
    · rw [hp]; rfl
    · rw [hp]; rfl
  refine h.ground (stop_session ..) (stop_contexts ..) (fun q => program?_stop a.land f.handler q)
    (stop_length ..) ?_ ?_ ?_
  · intro q y hy
    obtain ⟨z, hz, hsame, hstopped⟩ := mem_stop hy
    refine ⟨z, hz, hsame, ?_⟩
    rcases hstopped with ⟨-, rfl⟩ | ⟨rfl, hcancelled⟩
    · exact .inl rfl
    · cases hx.symm.trans hz
      exact .inr ⟨hcancelled, haside⟩
  · intro q y k point hy hp
    obtain ⟨z, hz, hsame, hstopped⟩ := mem_stop hy
    rcases hstopped with ⟨hother, rfl⟩ | ⟨-, hcancelled⟩
    · by_contra hgoes
      have hflight := (h.serves q y hz).handler k point hp (Bool.eq_false_iff.mpr hgoes)
      cases busy.symm.trans hflight
      rcases hother with hne | hfinished
      · exact hne rfl
      · rw [hp] at hfinished
        cases hfinished
    · exact hcancelled
  · intro g hg
    cases busy.symm.trans hg
    exact closed

/-- The time of the session is up. -/
lemma expire (h : a.Staffed i c) (elapsed : Nat) (inTime : a.session.timedOut = none)
    (idle : a.session.inFlight = none) : (a.expire elapsed).Staffed i c := by
  refine ⟨h.alive, h.home, h.bound, fun _ haccepting => ?_, fun _ => rfl, h.hooks, fun p x hx => ?_, h.queued, h.handled, h.joining,
    h.joined, fun _ => idle, h.unique⟩
  · cases haccepting
  · refine (h.serves p x hx).mono le_rfl rfl rfl id (fun e he => ?_) fun _ _ _ _ => id
    cases inTime.symm.trans he

/-- A task takes off. -/
lemma begin (h : a.Staffed i c) {t : Task} {d : Option Deadline} (handler : Handler) (hx : a.processes[p]? = some x)
    (inTime : a.session.timedOut = none) (idle : a.session.inFlight = none) (known : t.context < a.contexts.length)
    (executes : program.executes = true) (point : program.runPoint? = some (.joining t a.processes.length d))
    (serves : Process.Serves i c a.contexts.length a.session p { x with program }) :
    Affairs.Staffed i c (((a.launch t.context handler).onSession fun x =>
      { x with inFlight := some ⟨t.context, a.processes.length⟩ }).setProgram p program) := by
  have hlt : p < a.processes.length := (List.getElem?_eq_some_iff.mp hx).1
  have hplace : a.session.future = some p := (serves.executor executes).1
  have hp : (a.launch t.context handler).processes[p]? = some x := addProcess_of_some hx
  have haside : program.inCharge = false ∧ ∀ k point, program ≠ .handler k point := by
    cases program with
    | single j point => exact ⟨rfl, fun _ _ h => by cases h⟩
    | worker j point => exact ⟨rfl, fun _ _ h => by cases h⟩
    | _ => cases executes
  -- the processes after it: the executor, the new handler, and all others as they were
  have hcases {q : ProcessId} {y : Process} (hy : (((a.launch t.context handler).onSession fun x =>
      { x with inFlight := some ⟨t.context, a.processes.length⟩ }).setProgram p program).processes[q]? = some y) :
      q = p ∧ y = { x with program } ∨ q = a.processes.length ∧ y = ⟨.handler t.context (.ready handler), false⟩ ∨
        q ≠ p ∧ a.processes[q]? = some y := by
    rcases mem_setProgram hy with ⟨rfl, z, hz, rfl⟩ | ⟨hq, hy⟩
    · cases hp.symm.trans hz
      exact .inl ⟨rfl, rfl⟩
    · rcases mem_add hy with hy | ⟨rfl, rfl⟩
      · exact .inr (.inr ⟨hq, hy⟩)
      · exact .inr (.inl ⟨rfl, rfl⟩)
  refine ⟨h.alive, h.home, h.bound, h.vacant, h.shut, ?hooks, ?serves, h.queued, ?handled, ?joining, ?joined, ?landed,
    ?unique⟩
  case hooks =>
    intro q hq
    rw [setProgram_length]
    refine (h.hooks q hq).trans_le ?_
    change _ ≤ (a.processes ++ [_]).length
    rw [List.length_append]
    exact Nat.le_add_right ..
  case serves =>
    intro q y hy
    have hmono {y : Process} (hserves : y.Serves i c a.contexts.length a.session q)
        (hnot : ∀ k point, y.program = .handler k point → y.cancelled = false → a.session.inFlight ≠ none) :
        y.Serves i c a.contexts.length
          { a.session with inFlight := some ⟨t.context, a.processes.length⟩ } q := by
      refine hserves.mono le_rfl rfl rfl id (fun _ => id) fun k point hprogram hgoes _ => ?_
      exact absurd idle (hnot k point hprogram hgoes)
    rcases hcases hy with ⟨rfl, rfl⟩ | ⟨rfl, rfl⟩ | ⟨-, hy⟩
    · exact hmono serves fun k point hprogram => absurd hprogram (haside.2 k point)
    · exact .beginning known h.unwatched fun _ => rfl
    · refine hmono (h.serves q y hy) fun k point hprogram hgoes hnone => ?_
      cases hnone.symm.trans ((h.serves q y hy).handler k point hprogram hgoes)
  case handled =>
    intro f hf
    cases hf
    refine ⟨⟨.handler t.context (.ready handler), false⟩, ?_, rfl, .inl ⟨_, rfl⟩⟩
    exact (setProgram_ne (Nat.ne_of_gt hlt)).trans List.getElem?_concat_length
  case joining =>
    intro f hf
    cases hf
    refine ⟨t, d, ?_, rfl⟩
    rw [point?]
    change (Option.bind (Option.bind a.session.future _) _) = _
    rw [hplace, Option.bind_some]
    exact Option.bind_eq_some_iff.mpr ⟨program, program?_setProgram_self hp, point⟩
  case joined =>
    intro t' k d' _ hf
    cases hf
  case landed =>
    intro hlate
    have hlate : a.session.timedOut.isSome = true := hlate
    rw [inTime] at hlate
    cases hlate
  case unique =>
    intro q r y z hy hz hq hr
    rcases hcases hy with ⟨rfl, rfl⟩ | ⟨rfl, rfl⟩ | ⟨-, hy⟩
    · cases haside.1.symm.trans hq
    · cases hq
    · rcases hcases hz with ⟨rfl, rfl⟩ | ⟨rfl, rfl⟩ | ⟨-, hz⟩
      · cases haside.1.symm.trans hr
      · cases hr
      · exact h.unique q r y z hy hz hq hr

end Staffed

end Affairs

end GraphServer
