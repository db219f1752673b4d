import GraphServer.Proofs.Session.Attention
import GraphServer.Proofs.Session.Books
import GraphServer.Proofs.Session.Launch

/-!
The tasks of a session that were not begun.

* `Affairs.undone`: those that wait and those in the hands of a process;
* `Affairs.Effect.keepsOpen`: while the time of the session is not up, only the task in flight is answered;
* `Affairs.Untouched`: tasks that were not begun are in one place each, and nobody answered them;
* `Course.untouched`: **so it is in the whole course of the affairs**, until the time of the session is up.
-/

namespace GraphServer

open Affairs

variable {i : SessionId} {c : ChannelId} {o a a' b : Affairs} {p : ProcessId} {j k : ContextId} {t : Transit}
  {program : Program} {turn : Turn Program} {accepted accepted' : List Task} {steps : List Step} {x : Process}

namespace Affairs

/-! ### Who is answered -/

lemma Answers.isOpen_ne {r : Uuid → Response} (answers : a.Answers c k r b t) (hj : j ≠ k) : b.isOpen j = a.isOpen j := by
  cases answers with
  | already known finished => rfl
  | first known open_ mails =>
    rw [isOpen_congr mails.frame.2.2]
    exact isOpen_conclude_ne hj

lemma Interrupts.isOpen_ne {elapsed : Nat} {ofSession : Bool} (interrupts : a.Interrupts c elapsed ofSession b t)
    (hj : j ∉ a.flight) : b.isOpen j = a.isOpen j := by
  cases interrupts with
  | nobody idle => rfl
  | @somebody f _ _ busy answers =>
    rw [flight_eq_singleton busy, List.mem_singleton] at hj
    rw [answers.isOpen_ne hj]
    exact congrFun (isOpen_congr (stop_contexts ..)) j

/-- The execution of a task answers the task in flight alone. -/
lemma RunStep.keepsOpen {w : RunPoint → Program} {point : RunPoint} {turn : Turn RunPoint} (h : a.Staffed i c)
    (hw : Executes i w) (hx : a.processes[p]? = some x) (program : x.program = w point)
    (step : a.RunStep c point a' turn) (inTime : a.session.timedOut = none) (hopen : a.isOpen j = true)
    (hj : j ∉ a.flight) : a'.isOpen j = true := by
  cases step with
  | refuses u handler late answers => cases inTime.symm.trans late
  | @returned u q deadline result ended _ t answers =>
    have hpoint : a.point? = some (.joining u q deadline) := by
      rw [h.point?_eq hx (program ▸ hw.executes _), program, hw.runPoint]
    have hne : j ≠ u.context := by
      rintro rfl
      cases hf : a.session.inFlight with
      | none => cases (h.joined u q deadline hpoint hf).symm.trans hopen
      | some f =>
        obtain ⟨u', d, hjoining, hcontext⟩ := h.joining f hf
        cases hpoint.symm.trans hjoining
        rw [flight_eq_singleton hf, hcontext] at hj
        exact hj (List.mem_singleton_self _)
    rw [answers.isOpen_ne hne]
    exact hopen
  | expires u q deadline budget interrupts =>
    rw [interrupts.isOpen_ne hj]
    exact hopen
  | mails y mails =>
    rw [isOpen_congr mails.frame.2.2]
    exact hopen
  | _ => exact hopen

/-- While the time of the session is not up, only the task in flight is answered. -/
lemma Effect.keepsOpen (h : a.Staffed i c) (hx : a.processes[p]? = some x)
    (goes : ∀ k point, x.program = .handler k point → x.cancelled = false) (effect : a.Effect c i x.program a' turn)
    (inTime : a.session.timedOut = none) (hopen : a.isOpen j = true) (hj : j ∉ a.flight) : a'.isOpen j = true := by
  have hserves := h.serves p x hx
  have hend : (a.onSession Session.finish).disarm.isOpen j = true := by
    rw [isOpen_congr (Staffed.disarm_contexts _)]
    exact hopen
  generalize hprogram : x.program = program at effect goes
  cases effect with
  | handler k step =>
    cases step with
    | streams data next request mails =>
      rw [isOpen_congr mails.frame.2.2]
      exact hopen
    | @answers call terminal next y known open_ _ t mails =>
      have hbusy := hserves.handler k _ hprogram (goes k _ rfl)
      have hne : j ≠ k := by
        rintro rfl
        exact hj (flight_eq_singleton hbusy ▸ List.mem_singleton_self _)
      rw [isOpen_congr mails.frame.2.2, isOpen_conclude_ne hne]
      exact hopen
    | mails y next mails =>
      rw [isOpen_congr mails.frame.2.2]
      exact hopen
    | _ => exact hopen
  | single step =>
    cases step with
    | ends => exact hend
    | runs step => exact step.keepsOpen h (.inl rfl) hx hprogram inTime hopen hj
  | worker step =>
    cases step with
    | ends none closed => exact hend
    | runs step =>
      exact step.keepsOpen (w := fun point => .worker i (.running point)) h (.inr rfl) hx hprogram inTime hopen hj
    | _ => exact hopen
  | timeout elapsed ofSession step =>
    cases step with
    | expires kind _ interrupts =>
      rw [interrupts.isOpen_ne hj]
      exact hopen
    | interrupts kind interrupts =>
      rw [interrupts.isOpen_ne hj]
      exact hopen
    | answers u rest answers =>
      cases inTime.symm.trans (hserves.charge i elapsed ofSession _ hprogram rfl).2
    | closes closes =>
      rw [isOpen_congr closes.frame.2.2]
      exact hopen
    | disarms =>
      rw [isOpen_congr (Staffed.disarm_contexts _)]
      exact hopen
    | mails y next mails =>
      rw [isOpen_congr mails.frame.2.2]
      exact hopen
    | _ => exact hopen
  | delivers d point mails =>
    rw [isOpen_congr mails.frame.2.2]
    exact hopen
  | _ => exact hopen

/-! ### Tasks that were not begun -/

/-- The tasks that wait and those in the hands of a process, of which none was begun. -/
def undone (a : Affairs) : List Task :=
  a.gather Program.tasks ++ a.queue

/-- The tasks that were not begun were accepted, each of them is in one place, and nobody answered them. -/
structure Untouched (accepted : List Task) (a : Affairs) : Prop where
  nodup : a.custody.Nodup
  accepted : ∀ t ∈ a.undone, t ∈ accepted
  isOpen : ∀ t ∈ a.undone, a.isOpen t.context = true

lemma flight_sublist (h : ∀ f, b.session.inFlight = some f → a.session.inFlight = some f) : b.flight.Sublist a.flight := by
  cases hb : b.session.inFlight with
  | none => exact flight_eq_nil hb ▸ List.nil_sublist _
  | some f => rw [flight_eq_singleton hb, flight_eq_singleton (h f hb)]

namespace Untouched

lemma notMem_flight (h : Untouched accepted a) {u : Task} (hu : u ∈ a.undone) : u.context ∉ a.flight := by
  intro hk
  have hnodup := h.nodup
  rw [custody, List.nodup_append] at hnodup
  exact hnodup.2.2 u.context hk u.context (List.mem_map_of_mem hu) rfl

/-- Tasks that leave, and those that are not in anybody's hands any more, do not matter. -/
lemma mono (h : Untouched accepted a) (custody : b.custody.Subperm a.custody) (undone : b.undone ⊆ a.undone)
    (keepsOpen : ∀ u ∈ b.undone, a.isOpen u.context = true → b.isOpen u.context = true) : Untouched accepted b := by
  refine ⟨?_, fun u hu => h.accepted u (undone hu), fun u hu => keepsOpen u hu (h.isOpen u (undone hu))⟩
  obtain ⟨l, hperm, hsub⟩ := custody
  exact hperm.nodup_iff.mp (h.nodup.sublist hsub)

/-- One process goes on, and what it has in hand and what waits become less, or its task takes off. -/
lemma shift (h : Untouched accepted a) (shift : a.Shift p program turn.program b)
    (hands : (b.flight ++ (turn.program.tasks ++ b.queue).map (·.context)).Sublist
      (a.flight ++ (program.tasks ++ a.queue).map (·.context)))
    (less : turn.program.tasks ++ b.queue ⊆ program.tasks ++ a.queue)
    (keepsOpen : ∀ k, a.isOpen k = true → k ∉ a.flight → b.isOpen k = true) : Untouched accepted b := by
  have hbefore := shift.gather_before (f := Program.tasks)
  have hafter := shift.gather_after (f := Program.tasks) fun _ _ => rfl
  have hundone : b.undone ⊆ a.undone := by
    intro u hu
    have hmem : u ∈ turn.program.tasks ++ b.queue → u ∈ a.undone := fun hu => by
      rcases List.mem_append.mp (less hu) with hu | hu
      · exact List.mem_append_left _ (hbefore.mem_iff.mpr (List.mem_append_left _ hu))
      · exact List.mem_append_right _ hu
    rcases List.mem_append.mp hu with hu | hu
    · rcases List.mem_append.mp (hafter.mem_iff.mp hu) with hu | hu
      · exact hmem (List.mem_append_left _ hu)
      · exact List.mem_append_left _ (hbefore.mem_iff.mpr (List.mem_append_right _ hu))
    · exact hmem (List.mem_append_right _ hu)
  refine h.mono ?_ hundone fun u hu hopen => keepsOpen _ hopen (h.notMem_flight (hundone hu))
  exact (custody_perm hafter).subperm.trans
    ((hands.append_right _).subperm.trans (custody_perm hbefore).symm.subperm)

/-- A process takes a step. -/
lemma performs (h : Untouched accepted a) (staffed : a.Staffed i c) {y : Step} (performs : a.Performs i c p y a' turn)
    (inTime : a.session.timedOut = none) (inTime' : a'.session.timedOut = none) :
    Untouched accepted (a'.setProgram p turn.program) := by
  obtain ⟨x, hx, hprogram, hgoes⟩ := performs.process
  have hserves := staffed.serves p x hx
  have hshift := performs.effect.shift performs.place
  have hcalm := performs.effect.calm_or_launches (fun elapsed ofSession point hpoint hcharge =>
    (hserves.charge i elapsed ofSession point (hprogram.trans hpoint) hcharge).2) (fun _ _ => inTime)
  refine h.shift hshift ?_ ?_ fun k hopen hk => ?_
  · rcases hcalm with calm | ⟨u, launches⟩
    · rw [calm.hands inTime inTime']
      exact (flight_sublist calm.inFlight).append_right _
    · have hflight : a'.flight = [u.context] := flight_eq_singleton (f := ⟨u.context, _⟩) (by rw [launches.session])
      have hqueue : a'.queue = a.queue := by
        rw [queue, launches.session]
        rfl
      change (a'.flight ++ (turn.program.tasks ++ a'.queue).map (·.context)).Sublist _
      rw [launches.tasks, launches.empty, hflight, hqueue]
      exact List.sublist_append_right _ _
  · rcases hcalm with calm | ⟨u, launches⟩
    · rw [calm.hands inTime inTime']
      exact List.Subset.refl _
    · have hqueue : a'.queue = a.queue := by
        rw [queue, launches.session]
        rfl
      change turn.program.tasks ++ a'.queue ⊆ _
      rw [launches.empty, hqueue]
      exact List.subset_append_right _ _
  · change a'.isOpen k = true
    exact Effect.keepsOpen staffed hx hgoes (hprogram ▸ performs.effect) inTime hopen hk

/-- The end of a process that was stopped leaves its tasks to nobody. -/
lemma stops (h : Untouched accepted a) (place : a.program? p = some program) (result : Option (Except Error Unit)) :
    Untouched accepted (a.setProgram p (.finished result)) := by
  have shift : a.Shift p program (Turn.wait (.finished result)).program (a.setProgram p (.finished result)) :=
    Shift.stop place result
  refine h.shift shift ?_ ?_ fun _ hopen _ => hopen
  · exact ((List.sublist_append_right _ _).map _).append_left _
  · exact List.subset_append_right _ _

/-- What happens outside puts a new task at the end, if any. -/
lemma extend (h : Untouched accepted a) (staffed : a.Staffed i c) {fresh : List Task} {extra : List Program}
    (programs : b.programs = a.programs ++ extra) (hands : extra.flatMap Program.tasks ++ b.queue = a.queue ++ fresh)
    (inFlight : b.session.inFlight = a.session.inFlight) (nodup : (fresh.map (·.context)).Nodup)
    (new : ∀ u ∈ fresh, a.contexts.length ≤ u.context ∧ b.isOpen u.context = true)
    (keepsOpen : ∀ k < a.contexts.length, b.isOpen k = a.isOpen k) : Untouched (accepted ++ fresh) b := by
  have hundone : b.undone = a.undone ++ fresh := by
    rw [undone, undone, gather_append programs, List.append_assoc, hands, List.append_assoc]
  have hcustody : b.custody = a.custody ++ fresh.map (·.context) := by
    change b.flight ++ b.undone.map _ = a.flight ++ a.undone.map _ ++ _
    rw [hundone, flight, flight, inFlight, List.map_append, List.append_assoc]
  refine ⟨?_, fun u hu => ?_, fun u hu => ?_⟩
  · rw [hcustody, List.nodup_append]
    refine ⟨h.nodup, nodup, fun k hk l hl => ?_⟩
    obtain ⟨u, hu, rfl⟩ := List.mem_map.mp hl
    exact Nat.ne_of_lt ((staffed.custody_lt k hk).trans_le (new u hu).1)
  · rw [hundone] at hu
    exact (List.mem_append.mp hu).elim (fun hu => List.mem_append_left _ (h.accepted u hu)) (List.mem_append_right _)
  · rw [hundone] at hu
    rcases List.mem_append.mp hu with hu | hu
    · rw [keepsOpen _ (staffed.custody_lt _ (List.mem_append_right _ (List.mem_map_of_mem hu)))]
      exact h.isOpen u hu
    · exact (new u hu).2

end Untouched

/-- What is done from outside touches none of them. -/
lemma Outside.untouched (outside : a.Outside i c accepted b accepted') (staffed : a.Staffed i c)
    (h : Untouched accepted a) : Untouched accepted' b := by
  have none_ (a : Affairs) : a.programs = a.programs ++ [] := (List.append_nil _).symm
  have same (accepted : List Task) : accepted = accepted ++ [] := (List.append_nil _).symm
  have new (r : Request) (contexts : b.contexts = (a.addContext c r).contexts) :
      ∀ u ∈ [a.nextTask r], a.contexts.length ≤ u.context ∧ b.isOpen u.context = true := by
    intro u hu
    cases List.mem_singleton.mp hu
    exact ⟨le_rfl, isOpen_congr contexts ▸ isOpen_addContext_self a c r⟩
  have kept (r : Request) (contexts : b.contexts = (a.addContext c r).contexts) :
      ∀ k < a.contexts.length, b.isOpen k = a.isOpen k := fun k hk => by
    rw [isOpen_congr contexts]
    exact isOpen_addContext_lt c r hk
  cases outside with
  | timeout elapsed ofSession =>
    rw [same accepted]
    exact h.extend staffed (programs_addProcess a _) (same _) rfl List.nodup_nil (fun _ h => absurd h List.not_mem_nil)
      fun _ _ => rfl
  | traffic f =>
    rw [same accepted]
    exact h.extend staffed (programs_addProcess a _) (same _) rfl List.nodup_nil (fun _ h => absurd h List.not_mem_nil)
      fun _ _ => rfl
  | declines r =>
    rw [same accepted]
    exact h.extend staffed (none_ a) (same _) rfl List.nodup_nil (fun _ h => absurd h List.not_mem_nil) (kept r rfl)
  | @enqueues r backlog hbacklog accepting room =>
    refine h.extend staffed (none_ a) ?_ rfl (List.nodup_singleton _) (new r rfl) (kept r rfl)
    rw [show a.queue = backlog.tasks by rw [queue, hbacklog]; rfl]
    rfl
  | engages r backlog accepting vacant =>
    refine h.extend staffed (programs_addProcess a (.single i (.start (a.nextTask r)))) ?_ rfl (List.nodup_singleton _)
      (new r rfl) (kept r rfl)
    have hqueue : a.queue = [] := by rw [queue, backlog]; rfl
    change [a.nextTask r] ++ a.queue = _
    rw [hqueue]
    rfl
  | closes =>
    rw [same accepted]
    refine h.extend staffed (none_ a) ?_ rfl List.nodup_nil (fun _ h => absurd h List.not_mem_nil) fun _ _ => rfl
    exact (queue_setNotified (a.onSession Session.stopAccepting) true).trans (same _)

/-- There are no tasks when the session is opened. -/
lemma Opened.untouched (opened : a.Opened i c) : Untouched [] a := by
  have empty (custody : a.custody = []) : Untouched [] a := by
    have hundone : a.undone = [] := List.map_eq_nil_iff.mp (List.append_eq_nil_iff.mp custody).2
    refine ⟨custody ▸ List.nodup_nil, fun u hu => ?_, fun u hu => ?_⟩
    · rwa [hundone] at hu
    · rw [hundone] at hu
      cases hu
  cases opened <;> exact empty rfl

/-- Once the time of the session is up it stays so. -/
lemma Performs.inTime {y : Step} (performs : a.Performs i c p y a' turn) (staffed : a.Staffed i c)
    {intact : Prop} (custody : a.Custody accepted intact) (inTime : a'.session.timedOut = none) :
    a.session.timedOut = none := by
  obtain ⟨x, hx, hprogram, hgoes⟩ := performs.process
  have hshift := performs.effect.shift performs.place
  obtain ⟨new, put, refused, hdeed⟩ := Effect.deed staffed hx hgoes (hprogram ▸ custody.nodup_due hshift)
    (hprogram ▸ performs.effect)
  by_contra hlate
  obtain ⟨elapsed, hlate⟩ := Option.ne_none_iff_exists'.mp hlate
  cases (hdeed.ages.late elapsed hlate).symm.trans inTime

lemma Untouched.congr (h : Untouched accepted a) (session : b.session = a.session) (contexts : b.contexts = a.contexts)
    (programs : b.programs = a.programs) : Untouched accepted b := by
  have hundone : b.undone = a.undone := by rw [undone, undone, gather, gather, queue, queue, programs, session]
  have hcustody : b.custody = a.custody := by
    change b.flight ++ b.undone.map _ = a.flight ++ a.undone.map _
    rw [hundone, flight, flight, session]
  refine h.mono (hcustody ▸ .refl _) (hundone ▸ List.Subset.refl _) fun u _ hopen => ?_
  rwa [isOpen_congr contexts]

/-- What is done from outside leaves the time of the session as it is. -/
lemma Outside.timedOut (outside : a.Outside i c accepted b accepted') : b.session.timedOut = a.session.timedOut := by
  cases outside <;> rfl

end Affairs

/-- Until the time of the session is up, tasks that were not begun are untouched. -/
lemma Course.untouched {whole : Bool} {turning : Option ProcessId} (h : Course i c o whole turning a accepted steps)
    (inTime : a.session.timedOut = none) : Untouched accepted a := by
  induction h with
  | opens opened => exact opened.untouched
  | outside course outside ih => exact outside.untouched course.staffed (ih (outside.timedOut ▸ inTime))
  | misses p _ ended ih => exact (ih inTime).congr rfl rfl rfl
  | begins p _ ih => exact (ih inTime).congr rfl rfl rfl
  | goes course performs ih =>
    have before := performs.inTime course.staffed course.books.custody inTime
    exact (ih before).performs course.staffed performs before inTime
  | cut _ ih => exact (ih inTime).congr rfl rfl rfl
  | waits spent course performs idle ih =>
    have before := performs.inTime course.staffed course.books.custody inTime
    exact ((ih before).performs course.staffed performs before inTime).congr rfl rfl rfl
  | ends course performs ih =>
    have before := performs.inTime course.staffed course.books.custody inTime
    exact ((ih before).performs course.staffed performs before inTime).congr rfl rfl rfl
  | stops p _ process _ _ _ ih =>
    obtain ⟨y, hy, -⟩ := process
    exact ((ih inTime).stops (program?_of_some hy) none).congr rfl rfl rfl

end GraphServer
