import GraphServer.Proofs.Server.Orderly
import GraphServer.Proofs.System.Outcomes

/-!
The processes of a session keep its order.

* `System.Orderly.stepRun`, `System.Orderly.stepSingle`, `System.Orderly.stepWorker`: the one that executes its tasks,
  which may start a handler;
* `System.Orderly.stepTimeout`: those that end its time or that of its task;
* `System.Orderly.kill`: the end of the session with its channel.
-/

namespace GraphServer.System

variable {own : ProcessId → Prop} {s s' : System} {i : SessionId} {r : ProcessId}

/-- The handlers that were started for a session, and the processes that were started since. -/
def Since (own : ProcessId → Prop) (s s' : System) (p : ProcessId) : Prop :=
  own p ∨ s.processes.length ≤ p ∧ p < s'.processes.length

lemma isFinished_of_attends {program : Program} (h : program.attends i = true) : program.isFinished = false := by
  cases program <;> first | rfl | cases h

lemma isActive_of_finished {p : ProcessId} {result : Option (Except Error Unit)}
    (h : s.program? p = some (.finished result)) : s.isActive p = false := by
  rw [program?, Option.map_eq_some_iff] at h
  obtain ⟨x, hx, hprogram⟩ := h
  rw [isActive, hx, Option.any_some, hprogram]
  rfl

/-- Interrupting the task in flight ends nothing and starts nothing. -/
lemma interrupt_calm (s : System) (p : ProcessId) (i : SessionId) (elapsed : Nat) (ofSession : Bool) :
    (s.interrupt p i elapsed ofSession).1.processes.length = s.processes.length ∧
      ∀ x x', s.sessions[i]? = some x → (s.interrupt p i elapsed ofSession).1.sessions[i]? = some x' →
        (x'.isOver = true → x.isOver = true) ∧ (x'.terminated = true → x.terminated = true) := by
  have hsame (x x' : Session) (hx : s.sessions[i]? = some x) (hx' : s.sessions[i]? = some x') :
      (x'.isOver = true → x.isOver = true) ∧ (x'.terminated = true → x.terminated = true) := by
    cases hx.symm.trans hx'
    exact ⟨id, id⟩
  have outcome := s.interrupt_outcome p i elapsed ofSession
  generalize s.interrupt p i elapsed ofSession = z at outcome ⊢
  cases outcome with
  | rests => exact ⟨rfl, hsame⟩
  | @stops _ f =>
    have hstill := Still.replyTimeout ((s.onSession i fun x => { x with inFlight := none }).abort f.handler) p
      f.context elapsed ofSession
    refine ⟨(congrArg _ hstill.processes).trans (length_abort _ _), fun x x' hx hx' => ?_⟩
    rw [hstill.sessions, abort_sessions, onSession, List.getElem?_modify_eq, hx] at hx'
    cases hx'
    exact ⟨id, id⟩

lemma length_spawn (s : System) (program : Program) :
    (s.spawn program).1.processes.length = s.processes.length + 1 := by
  have hquiet := Quiet.wake (s.addProcess program).1 (s.addProcess program).2
  change ((s.addProcess program).1.wake (s.addProcess program).2).processes.length = _
  rw [hquiet.processes]
  exact List.length_append ..

namespace Orderly

/-! ### Silence -/

lemma known_since (h : Orderly own s i) (grows : s.processes.length ≤ s'.processes.length) {p : ProcessId}
    (hp : Since own s s' p) : p < s'.processes.length :=
  hp.elim (fun hold => (h.known p hold).trans_le grows) And.right

/-- A handler that can take steps is in flight. -/
def Grasps (own : ProcessId → Prop) (s : System) (i : SessionId) : Prop :=
  ∀ p, own p → s.isActive p = true → ∃ x f, s.sessions[i]? = some x ∧ x.inFlight = some f ∧ f.handler = p

lemma grasps (h : Orderly own s i) : Grasps own s i := fun p hp ha => (h.held p hp ha).1

/-- Interrupting the task in flight silences the handlers. -/
lemma Grasps.silent_interrupt (h : Grasps own s i) (p : ProcessId) (elapsed : Nat) (ofSession : Bool) :
    (s.interrupt p i elapsed ofSession).1.Silent own := by
  have outcome := s.interrupt_outcome p i elapsed ofSession
  generalize s.interrupt p i elapsed ofSession = z at outcome ⊢
  cases outcome with
  | rests idle =>
    intro q hq
    refine Bool.eq_false_iff.mpr fun ha => ?_
    obtain ⟨y, f, hy, hf, -⟩ := h q hq ha
    rw [hy, Option.bind_some, hf] at idle
    cases idle
  | @stops x f known flies =>
    intro q hq
    have hstill := Still.replyTimeout ((s.onSession i fun x => { x with inFlight := none }).abort f.handler) p
      f.context elapsed ofSession
    rw [isActive_eq hstill.processes, isActive_abort]
    refine Bool.eq_false_iff.mpr fun ha => ?_
    obtain ⟨hactive, hother⟩ := Bool.and_eq_true_iff.mp ha
    obtain ⟨y, f', hy, hf', hq'⟩ := h q hq hactive
    cases known.symm.trans hy
    cases flies.symm.trans hf'
    exact of_decide_eq_true hother hq'

/-- A move of the process that executes the tasks after which no handler can take steps, with which nothing ends. -/
lemma moved_calm (h : Orderly own s i) {P N : Program} (hP : s.program? r = some P) (attends : P.attends i = true)
    (a : Tends i s s') (silent : s'.Silent (Since own s s'))
    (same : ∀ x x', s.sessions[i]? = some x → s'.sessions[i]? = some x' →
      (x'.isOver = true → x.isOver = true) ∧ (x'.terminated = true → x.terminated = true)) :
    Orderly (Since own s s') (s'.setProgram r N) i := by
  obtain ⟨x, hx, -, hdone⟩ := h.exists_session hP attends
  obtain ⟨x', hx', hfollows⟩ := a.follows x hx
  refine h.moved_silent hP attends (isFinished_of_attends attends) a (fun p => h.known_since a.grows) silent
    (fun y hy ho => ?_) fun y hy ht => ?_
  · cases hx'.symm.trans hy
    obtain ⟨haccepting, -⟩ := h.ended x hx ((same x x' hx hx').1 ho)
    exact Bool.eq_false_iff.mpr fun ha => Bool.false_ne_true (haccepting.symm.trans (hfollows.accepting ha))
  · cases hx'.symm.trans hy
    exact .inl (hfollows.killed (hdone ((same x x' hx hx').2 ht)))

/-- The same with a change that leaves all sessions alone. -/
lemma moved_apart_from_sessions (h : Orderly own s i) {P N : Program} (hP : s.program? r = some P)
    (attends : P.attends i = true) (a : Tends i s s') (silent : s'.Silent (Since own s s'))
    (sessions : s'.sessions = s.sessions) : Orderly (Since own s s') (s'.setProgram r N) i :=
  h.moved_calm hP attends a silent fun x x' hx hx' => by
    rw [sessions, hx] at hx'
    cases hx'
    exact ⟨id, id⟩

/-- The same with a change that leaves all processes alone. -/
lemma moved_still (h : Orderly own s i) {P N : Program} (hP : s.program? r = some P) (attends : P.attends i = true)
    (still : s.Still s') (silent : s.Silent own) : Orderly (Since own s s') (s'.setProgram r N) i := by
  refine h.moved_apart_from_sessions hP attends (.of_still still i) (fun p hp => ?_) still.sessions
  rw [isActive_eq still.processes]
  exact hp.elim (silent p) fun hnew => absurd (still.processes ▸ hnew.2) (Nat.not_lt.mpr hnew.1)

/-- The same with a change of the session that leaves all processes alone. -/
lemma moved_onSession (h : Orderly own s i) {P N : Program} (hP : s.program? r = some P) (attends : P.attends i = true)
    (silent : s.Silent own) (still : s.Still s') {f : Session → Session}
    (calm : ∀ x, s.sessions[i]? = some x → x.Calms (f x)) {s'' : System} (still' : (s'.onSession i f).Still s'') :
    Tends i s s'' ∧ Orderly (Since own s s'') (s''.setProgram r N) i := by
  have hset : Tends i s (s'.onSession i f) :=
    (Tends.of_still still i).trans (.onSession s' i f fun x hx => (calm x (still.sessions ▸ hx)).follows)
  have htends := hset.trans (.of_still still' i)
  have hprocesses : s''.processes = s.processes := still'.processes.trans still.processes
  refine ⟨htends, h.moved_calm hP attends htends (fun p hp => ?_) fun x x' hx hx' => ?_⟩
  · rw [isActive_eq hprocesses]
    exact hp.elim (silent p) fun hnew => absurd (hprocesses ▸ hnew.2) (Nat.not_lt.mpr hnew.1)
  · rw [still'.sessions, onSession, List.getElem?_modify_eq, still.sessions, hx] at hx'
    cases hx'
    exact ⟨(calm x hx).isOver, (calm x hx).terminated⟩

/-- A process that waits at the point at which it is. -/
lemma waits (h : Orderly own s i) {P : Program} (hP : s.program? r = some P) :
    Orderly (Since own s s) (s.setProgram r P) i := by
  have hsame : s.Still (s.setProgram r P) := ⟨rfl, rfl, rfl, processes_setProgram_self hP⟩
  exact (h.of_still hsame).mono fun p hp => hp.resolve_right fun hnew => Nat.not_lt.mpr hnew.1 hnew.2

/-! ### One task -/

/-- How the execution of a task stands in the program of a process. -/
structure Wraps (i : SessionId) (wrap : RunPoint → Program) : Prop where
  attends : ∀ point, (wrap point).attends i = true
  joins : ∀ point p, (wrap point).isJoining p = (Program.single i point).isJoining p

variable {wrap : RunPoint → Program}

/-- If the handler of a task is stopped as soon as it is started, none can take steps: no other one could. -/
lemma silent_of_stopped (h : Orderly own s i) (silent : s.Silent own) (t : Task) :
    ((s.launch t).abort s.processes.length).Silent (Since own s ((s.launch t).abort s.processes.length)) := by
  have launched : Tends i s (s.launch t) := .spawn s (fun _ => rfl) i
  intro p hp
  rw [isActive_abort]
  rcases hp with hold | ⟨hle, hlt⟩
  · rw [silent_of_affects silent h.known launched.toAffects p hold]
    rfl
  · rw [length_abort, launch, length_spawn] at hlt
    have hnew : s.processes.length = p := Nat.le_antisymm hle (Nat.le_of_lt_succ hlt)
    rw [decide_eq_false (not_not.mpr hnew), Bool.and_false]

/-- The handler that can take steps is the one that is waited for, unless that has ended. -/
lemma silent_of_ended (h : Orderly own s i) (w : Wraps i wrap) {t : Task} {handler : ProcessId}
    {deadline : Option Deadline} (hP : s.program? r = some (wrap (.joining t handler deadline)))
    {result : Option (Except Error Unit)} (ended : s.program? handler = some (.finished result)) : s.Silent own :=
  fun p hp => Bool.eq_false_iff.mpr fun ha => by
    have hjoins := (w.joins _ p).symm.trans ((h.held p hp ha).2 r _ hP (w.attends _))
    cases beq_iff_eq.mp hjoins
    exact Bool.false_ne_true ((isActive_of_finished ended).symm.trans ha)

/-- A task that begins is in flight then, in a session that is not over, and its new handler is waited for. -/
lemma begins (h : Orderly own s i) (w : Wraps i wrap) {t : Task} (hP : s.program? r = some (wrap (.start t)))
    {x : Session} (hx : s.sessions[i]? = some x) (alive : x.killed = false) (inTime : x.timedOut = none)
    {s' : System} (hs' : (s.launch t).onSession i (fun _ => { x with inFlight := some ⟨t.context, s.processes.length⟩ }) = s')
    (deadline : Option Deadline) :
    Tends i s s' ∧ Orderly (Since own s s') (s'.setProgram r (wrap (.joining t s.processes.length deadline))) i := by
  obtain ⟨y, hy, -, hdone⟩ := h.exists_session hP (w.attends _)
  cases hx.symm.trans hy
  have launched : Tends i s (s.launch t) := .spawn s (fun _ => rfl) i
  have htends : Tends i s s' := hs' ▸ launched.trans (.onSession _ i _ fun y hy => by
    rw [launch_sessions, hx] at hy
    cases hy
    exact .begin (Session.begin_of_inTime alive inTime _))
  have hx' : s'.sessions[i]? = some { x with inFlight := some ⟨t.context, s.processes.length⟩ } := by
    rw [← hs', onSession, List.getElem?_modify_eq, launch_sessions, hx]
    rfl
  have hlives : Session.isOver { x with inFlight := some ⟨t.context, s.processes.length⟩ } = false := by
    rw [Session.isOver, alive, inTime]
    have unterminated : x.terminated ≠ true := fun ht => Bool.false_ne_true (alive.symm.trans (hdone ht))
    exact Bool.eq_false_iff.mpr unterminated
  have hlength : s'.processes.length = s.processes.length + 1 := hs' ▸ length_spawn s _
  refine ⟨htends, h.moved_start hP (w.attends _) (isFinished_of_attends (w.attends _)) (fun p => w.joins _ p) htends
    (Nat.le_refl s.processes.length) (fun p hp => ⟨h.known_since htends.grows hp, hp.imp_right fun hnew => ?_⟩)
    ((w.joins _ _).trans (beq_self_eq_true _)) hx' rfl rfl hlives⟩
  exact Nat.le_antisymm (Nat.le_of_lt_succ (hnew.2.trans_eq hlength)) hnew.1

lemma stepRun (h : Orderly own s i) (w : Wraps i wrap) (point : RunPoint) (hP : s.program? r = some (wrap point)) :
    Tends i s (s.stepRun r i point).1 ∧ Orderly (Since own s (s.stepRun r i point).1)
      ((s.stepRun r i point).1.setProgram r ((s.stepRun r i point).2.map wrap).program) i := by
  have launched (t : Task) : Tends i s ((s.launch t).abort s.processes.length) :=
    .trans (.spawn s (fun _ => rfl) i) (.abort _ _ i)
  have same (t : Task) : ((s.launch t).abort s.processes.length).sessions = s.sessions :=
    (abort_sessions _ _).trans (launch_sessions s t)
  have outcome := s.stepRun_outcome r i point
  generalize s.stepRun r i point = z at outcome ⊢
  cases outcome with
  | strays | leaves =>
    have silent := h.silent_of_not_joining hP (w.attends _) fun p => w.joins _ p
    exact ⟨.refl s i, h.moved_still hP (w.attends _) (.refl s) silent⟩
  | begins known alive inTime => exact h.begins w hP known alive inTime rfl _
  | dies =>
    have silent := h.silent_of_not_joining hP (w.attends _) fun p => w.joins _ p
    exact ⟨launched _, h.moved_apart_from_sessions hP (w.attends _) (launched _) (h.silent_of_stopped silent _) (same _)⟩
  | @refuses t _ elapsed =>
    have silent := h.silent_of_stopped (h.silent_of_not_joining hP (w.attends _) fun p => w.joins _ p) t
    have replies := Still.replyTimeout ((s.launch t).abort s.processes.length) r t.context elapsed true
    rw [lastWords_fst]
    refine ⟨(launched t).trans (.of_still replies i), h.moved_apart_from_sessions hP (w.attends _)
      ((launched t).trans (.of_still replies i)) (fun p hp => ?_) (replies.sessions.trans (same t))⟩
    exact (isActive_eq replies.processes p).trans
      (silent p (hp.imp_right fun hnew => ⟨hnew.1, hnew.2.trans_eq (congrArg _ replies.processes)⟩))
  | stopped ended spent =>
    exact h.moved_onSession hP (w.attends _) (h.silent_of_ended w hP ended) (Quiet.spend? spent).toStill
      (fun x _ => .land x) (.refl _)
  | returned ended spent =>
    rw [lastWords_fst]
    exact h.moved_onSession hP (w.attends _) (h.silent_of_ended w hP ended) (Quiet.spend? spent).toStill
      (fun x _ => .land x) (.tryFinish _ r _ _)
  | @expires _ _ d s' _ spent =>
    have hstill := (Quiet.spendAt? spent).toStill
    have htends := (Tends.of_still hstill i).trans (.interrupt s' r i d.budget false)
    obtain ⟨hlength, hcalm⟩ := interrupt_calm s' r i d.budget false
    rw [lastWords_fst]
    refine ⟨htends, h.moved_calm hP (w.attends _) htends (fun p hp => ?_) fun x x' hx => hcalm x x' (hstill.sessions ▸ hx)⟩
    refine (h.of_still hstill).grasps.silent_interrupt r d.budget false p (hp.resolve_right fun hnew => ?_)
    exact Nat.not_lt.mpr hnew.1 (hnew.2.trans_eq (hlength.trans (congrArg _ hstill.processes)))
  | waits => exact ⟨.refl s i, h.waits hP⟩
  | @resumes hand =>
    have silent := h.silent_of_not_joining hP (w.attends _) fun p => w.joins _ p
    have resumed := (Quiet.resume s r hand).toStill
    rw [lastWords_fst]
    exact ⟨.of_still resumed i, h.moved_still hP (w.attends _) resumed silent⟩

/-! ### The tasks of a session -/

/-- The process that executes the tasks ends the session. -/
lemma finishSession (h : Orderly own s i) {P : Program} (hP : s.program? r = some P) (attends : P.attends i = true)
    (apart : ∀ p, P.isJoining p = false) (result : Except Error Unit) :
    Orderly (Since own s (s.finishSession i)) ((s.finishSession i).setProgram r (.finished (some result))) i := by
  have htends := Tends.finishSession s i
  obtain ⟨x, hx, -⟩ := h.exists_session hP attends
  have hsession (x' : Session) (hx' : (s.finishSession i).sessions[i]? = some x') : x' = x.finish := by
    rw [System.finishSession, disarm, abortAll_sessions, onSession, List.getElem?_modify_eq, hx] at hx'
    exact (Option.some.inj hx').symm
  have hlength : (s.finishSession i).processes.length = s.processes.length := by
    rw [System.finishSession, disarm, length_abortAll]
    rfl
  refine h.moved_silent hP attends (isFinished_of_attends attends) htends (fun p => h.known_since htends.grows)
    (fun p hp => ?_) (fun x' hx' _ => ?_) fun _ _ _ => .inr rfl
  · exact silent_of_affects (h.silent_of_not_joining hP attends apart) h.known htends.toAffects p
      (hp.resolve_right fun hnew => Nat.not_lt.mpr hnew.1 (hnew.2.trans_eq hlength))
  · rw [hsession x' hx']
    rfl

lemma stepSingle (h : Orderly own s i) (point : RunPoint) (hP : s.program? r = some (.single i point)) :
    Tends i s (s.stepSingle r i point).1 ∧ Orderly (Since own s (s.stepSingle r i point).1)
      ((s.stepSingle r i point).1.setProgram r ((s.stepSingle r i point).2.map (.single i)).program) i := by
  have hwraps : Wraps i (.single i) := ⟨fun _ => beq_self_eq_true i, fun _ _ => rfl⟩
  have outcome := s.stepSingle_outcome r i point
  generalize s.stepSingle r i point = z at outcome ⊢
  cases outcome with
  | ends => exact ⟨.finishSession s i, h.finishSession hP (hwraps.attends _) (fun _ => rfl) (.ok ())⟩
  | runs => exact h.stepRun hwraps point hP

lemma stepWorker (h : Orderly own s i) (point : WorkerPoint) (hP : s.program? r = some (.worker i point)) :
    Tends i s (s.stepWorker r i point).1 ∧ Orderly (Since own s (s.stepWorker r i point).1)
      ((s.stepWorker r i point).1.setProgram r ((s.stepWorker r i point).2.map (.worker i)).program) i := by
  have hattends : (Program.worker i point).attends i = true := beq_self_eq_true i
  have silent (apart : ∀ p, (Program.worker i point).isJoining p = false) : s.Silent own :=
    h.silent_of_not_joining hP hattends apart
  have outcome := s.stepWorker_outcome r i point
  generalize s.stepWorker r i point = z at outcome ⊢
  cases outcome with
  | strays | rests | waits | leaves => exact ⟨.refl s i, h.moved_still hP hattends (.refl s) (silent fun _ => rfl)⟩
  | takes known taken =>
    refine h.moved_onSession hP hattends (silent fun _ => rfl) (.refl s) (fun y hy => ?_) (.refl _)
    cases known.symm.trans hy
    exact .dequeue? taken
  | ends => exact ⟨.finishSession s i, h.finishSession hP hattends (fun _ => rfl) (.ok ())⟩
  | hears =>
    exact h.moved_onSession hP hattends (silent fun _ => rfl) (.refl s) (fun x _ => .setNotified x false) (.refl _)
  | @runs point _ =>
    have hwraps : Wraps i fun p => .worker i (.running p) :=
      ⟨fun _ => beq_self_eq_true i, fun point _ => by cases point <;> rfl⟩
    rw [Turn.map_map]
    exact h.stepRun hwraps point hP

/-! ### Changes from elsewhere -/

lemma abortAll (h : Orderly own s i) (ps : List ProcessId) : Orderly own (s.abortAll ps) i := by
  induction ps generalizing s with
  | nil => exact h
  | cons p ps ih =>
    refine ih (h.of_fewer (by rw [abort_sessions]) (length_abort s p).ge (fun q _ hq _ => ?_) fun q _ ha => ?_)
    · exact (program?_abort s p q).symm.trans hq
    · rw [isActive_abort] at ha
      exact (Bool.and_eq_true_iff.mp ha).1

lemma onSession (h : Orderly own s i) {f : Session → Session}
    (calm : ∀ x, s.sessions[i]? = some x → (f x).inFlight = x.inFlight ∧ x.Calms (f x)) :
    Orderly own (s.onSession i f) i :=
  h.of_harmless (.onSession s i f fun x hx => (calm x hx).2.follows) fun x hx =>
    ⟨f x, by rw [System.onSession, List.getElem?_modify_eq, hx]; rfl, calm x hx⟩

lemma notify (h : Orderly own s i) : Orderly own (s.notify i) i := by
  have hset := h.onSession (f := (·.setNotified true)) fun x _ => ⟨rfl, .setNotified x true⟩
  rw [System.notify]
  split
  · exact hset.of_still (Quiet.wakeIf _ _ _).toStill
  · exact hset

lemma disarm (h : Orderly own s i) : Orderly own (s.disarm i) i :=
  h.abortAll _

lemma closeMulti (h : Orderly own s i) : Orderly own (s.closeMulti i) i :=
  (h.onSession (f := Session.stopAccepting) fun x _ => ⟨rfl, .stopAccepting x⟩).notify

/-- The handlers of a session whose time is up, or that is interrupted, are silenced. -/
lemma of_quelled (h : Orderly own s i) (a : Tends i s s') (silent : s'.Silent own)
    (ended : ∀ x', s'.sessions[i]? = some x' → x'.isOver = true → x'.accepting = false)
    (terminated : ∀ x x', s.sessions[i]? = some x → s'.sessions[i]? = some x' → x'.terminated = true →
      x.terminated = true) : Orderly own s' i :=
  h.of_silent a silent ended fun x' hx' ht => by
    obtain ⟨x, hx, hfollows⟩ := a.exists_before hx'
    exact (h.done x hx (terminated x x' hx hx' ht)).imp hfollows.killed fun hu =>
      unattended_of_affects hu a.toAffects a.nobody

lemma interrupt (h : Orderly own s i) (p : ProcessId) (elapsed : Nat) (ofSession : Bool) :
    Orderly own (s.interrupt p i elapsed ofSession).1 i := by
  have htends := Tends.interrupt s p i elapsed ofSession
  obtain ⟨-, hcalm⟩ := interrupt_calm s p i elapsed ofSession
  refine h.of_quelled htends (h.grasps.silent_interrupt p elapsed ofSession) (fun x' hx' ho => ?_)
    fun x x' hx hx' => (hcalm x x' hx hx').2
  obtain ⟨x, hx, hfollows⟩ := htends.exists_before hx'
  obtain ⟨haccepting, -⟩ := h.ended x hx ((hcalm x x' hx hx').1 ho)
  exact Bool.eq_false_iff.mpr fun ha => Bool.false_ne_true (haccepting.symm.trans (hfollows.accepting ha))

/-- The time of the session is up. -/
lemma expire (h : Orderly own s i) (p : ProcessId) {elapsed : Nat} {x x' : Session} (hx : s.sessions[i]? = some x)
    (expired : x.expire? elapsed = some x') :
    Tends i s ((s.onSession i fun _ => x').interrupt p i elapsed true).1 ∧
      Orderly own ((s.onSession i fun _ => x').interrupt p i elapsed true).1 i := by
  have hset : Tends i s (s.onSession i fun _ => x') := .onSession s i _ fun y hy => by
    cases hx.symm.trans hy
    exact .expire? expired
  have hx' : (s.onSession i fun _ => x').sessions[i]? = some x' := by
    rw [System.onSession, List.getElem?_modify_eq, hx]
    rfl
  have hexpired : x'.inFlight = x.inFlight ∧ x'.accepting = false ∧ x'.terminated = x.terminated := by
    obtain ⟨-, rfl⟩ := Session.expire?_eq_some expired
    exact ⟨rfl, rfl, rfl⟩
  have hgrasps : Grasps own (s.onSession i fun _ => x') i := fun q hq ha => by
    obtain ⟨y, f, hy, hf, hflies⟩ := h.grasps q hq ha
    cases hx.symm.trans hy
    exact ⟨x', f, hx', hexpired.1.trans hf, hflies⟩
  have htends := Tends.interrupt (s.onSession i fun _ => x') p i elapsed true
  obtain ⟨-, hcalm⟩ := interrupt_calm (s.onSession i fun _ => x') p i elapsed true
  refine ⟨hset.trans htends, h.of_quelled (hset.trans htends) (hgrasps.silent_interrupt p elapsed true)
    (fun y hy _ => ?_) fun z y hz hy ht => ?_⟩
  · obtain ⟨z, hz, hfollows⟩ := htends.exists_before hy
    cases hx'.symm.trans hz
    exact Bool.eq_false_iff.mpr fun ha => Bool.false_ne_true (hexpired.2.1.symm.trans (hfollows.accepting ha))
  · cases hx.symm.trans hz
    exact hexpired.2.2.symm.trans ((hcalm x' y hx' hy).2 ht)

/-- A session that is killed forgets its tasks, and its handlers are silenced. -/
lemma kill (h : Orderly own s i) : Orderly own (s.kill i) i := by
  have htends := Tends.kill s i
  rw [System.kill] at htends ⊢
  split at htends
  · exact h
  next x hx =>
    have hkilled (y : Session)
        (hy : ((s.onSession i Session.kill).abortAll ((x.inFlight.map (·.handler)).toList ++ x.future.toList ++
          x.cancelFuture.toList)).sessions[i]? = some y) : y = x.kill := by
      rw [abortAll_sessions, System.onSession, List.getElem?_modify_eq, hx] at hy
      exact (Option.some.inj hy).symm
    refine h.of_silent htends (fun p hp => Bool.eq_false_iff.mpr fun ha => ?_) (fun y hy _ => ?_) fun y hy _ => ?_
    · obtain ⟨hactive, hother⟩ := isActive_of_abortAll ha
      obtain ⟨y, f, hy, hf, hflies⟩ := h.grasps p hp hactive
      cases hx.symm.trans hy
      refine hother (List.mem_append_left _ (List.mem_append_left _ ?_))
      rw [hf, ← hflies]
      exact List.mem_singleton_self _
    · rw [hkilled y hy]
      rfl
    · rw [hkilled y hy]
      exact .inl rfl

lemma stepTimeout (h : Orderly own s i) (p : ProcessId) (elapsed : Nat) (ofSession : Bool) (point : TimeoutPoint) :
    Tends i s (s.stepTimeout p i elapsed ofSession point).1 ∧
      Orderly own (s.stepTimeout p i elapsed ofSession point).1 i := by
  have hstill {s' : System} (still : s.Still s') : Tends i s s' ∧ Orderly own s' i :=
    ⟨.of_still still i, h.of_still still⟩
  have outcome := s.stepTimeout_outcome p i elapsed ofSession point
  generalize s.stepTimeout p i elapsed ofSession point = z at outcome ⊢
  cases outcome with
  | late | strays | leaves => exact hstill (.refl s)
  | expires known inTime =>
    rw [answerThen, Transit.turn_fst]
    exact h.expire p known (Session.expire?_of_inTime inTime elapsed)
  | interrupts =>
    rw [answerThen, Transit.turn_fst]
    exact ⟨.interrupt s p i elapsed false, h.interrupt p elapsed false⟩
  | @drains _ x known =>
    have hdrain (y : Session) (hy : s.sessions[i]? = some y) : y.Calms x.drain.2 := by
      cases known.symm.trans hy
      exact .drain x
    refine ⟨.onSession s i _ fun y hy => (hdrain y hy).follows, h.onSession fun y hy => ⟨?_, hdrain y hy⟩⟩
    cases known.symm.trans hy
    rw [Session.drain_snd]
  | answers =>
    rw [answerThen, Transit.turn_fst]
    exact hstill (.replyTimeout s p _ elapsed true)
  | notifies => exact ⟨.notify s i, h.notify⟩
  | closes =>
    rw [answerThen, Transit.turn_fst]
    exact hstill (Quiet.closeChannel s p _).toStill
  | disarms => exact ⟨.disarm s i, h.disarm⟩
  | resumes =>
    rw [answerThen, Transit.turn_fst]
    exact hstill (Quiet.resume s p _).toStill

end Orderly

end GraphServer.System
