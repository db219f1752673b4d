import GraphServer.Proofs.Session.Sequence

/-!
Time limits in virtual time, which passes only when all processes wait.

* `System.MayRing`, `Chronicle.IsTimely`: time does not pass over an alarm;
* `System.Punctual`: whoever executes a task is not behind its time limit, and is awake once it is reached;
* `System.Punctual.run`: a turn of a process, step by step;
* `Opening.play_punctual`: **so it is whenever a process takes a step**, as long as time passes in this way.
-/

namespace GraphServer

open Opening (session channel)

/-! ### Limits -/

/-- The time limit of the task whose handler is waited for. -/
def RunPoint.deadline? : RunPoint → Option Deadline
  | joining _ _ deadline => deadline
  | _ => none

/-- The time limit of the task that a program executes. -/
def Program.deadline? (P : Program) : Option Deadline :=
  P.runPoint?.bind RunPoint.deadline?

lemma Program.deadline?_of_isFresh {P : Program} (fresh : P.isFresh = true) : P.deadline? = none := by
  cases P with
  | single i point => cases point <;> first | rfl | cases fresh
  | worker i point => cases point <;> first | rfl | cases fresh
  | _ => rfl

/-- Whoever waits with a time limit is to be looked at when it is reached. -/
lemma Program.due?_of_deadline? {P : Program} {d : Deadline} (h : P.deadline? = some d) : P.due? = some d.due := by
  cases P with
  | single i point =>
    cases point with
    | joining t handler deadline =>
      cases h
      rfl
    | _ => cases h
  | worker i point =>
    cases point with
    | running point =>
      cases point with
      | joining t handler deadline =>
        cases h
        rfl
      | _ => cases h
    | _ => cases h
  | _ => cases h

namespace System

variable {s s' : System} {p q : ProcessId} {i : SessionId} {P N : Program} {d : Deadline} {turning : Option ProcessId}

/-- A step of the execution of a task keeps its time limit, or sets one that is not over yet. -/
lemma stepRun_deadline {point next : RunPoint} (h : (s.stepRun p i point).2.point? = some next)
    (hd : next.deadline? = some d) : point.deadline? = some d ∨ s.now ≤ d.due := by
  have outcome := s.stepRun_outcome p i point
  generalize s.stepRun p i point = x at outcome h
  cases outcome with
  | strays | dies | stopped =>
    cases h
    cases hd
  | begins =>
    cases h
    obtain ⟨budget, -, rfl⟩ := Option.map_eq_some_iff.mp hd
    exact .inr (Nat.le_add_right _ _)
  | waits =>
    cases h
    exact .inl hd
  | refuses | returned | expires | resumes => obtain rfl | ⟨y, rfl⟩ := lastWords_point? h <;> cases hd
  | leaves => cases h

/-- The execution of a task that goes on waiting for a handler has used up its allowance, or its time limit is not
reached. -/
lemma stepRun_early {point next : RunPoint} (h : s.stepRun p i point = (s', .wait next))
    (hd : next.deadline? = some d) : s'.allowance = 0 ∨ s.now < d.due := by
  have outcome := s.stepRun_outcome p i point
  generalize s.stepRun p i point = x at outcome h
  cases outcome with
  | strays | begins | dies | stopped | leaves => cases h
  | waits rests =>
    cases h
    exact rests.imp_right fun unended => unended.2 d hd
  | refuses | returned | expires | resumes =>
    obtain ⟨y, rfl⟩ := Transit.turn_wait (congrArg Prod.snd h)
    cases hd

/-- What a process does that executes a task. -/
lemma step_eq_stepRun {w : RunPoint → Program} (hw : Executes i w) {point : RunPoint} (goes : point ≠ .over) :
    s.step p (w point) = liftTurn (s.stepRun p i point) w := by
  obtain rfl | rfl := hw
  · exact congrArg (liftTurn · (.single i)) (stepSingle_eq goes)
  · refine (congrArg (liftTurn · (.worker i)) (stepWorker_eq goes)).trans ?_
    exact congrArg (Prod.mk _) (Turn.map_map ..)

/-- Only the execution of a task leads to a time limit. -/
lemma executes_of_deadline {turn : Turn Program} (h : s.step p P = (s', turn)) (hd : turn.program.deadline? = some d) :
    ∃ i w point, Executes i w ∧ P = w point ∧ point ≠ .over := by
  have lifted {α : Type} {x : System × Turn α} {f : α → Program} (hx : liftTurn x f = (s', turn)) :
      ∃ turn', x = (s', turn') ∧ turn = turn'.map f := by
    obtain ⟨s₀, turn'⟩ := x
    cases hx
    exact ⟨turn', rfl, rfl⟩
  cases P with
  | single i point =>
    refine ⟨i, _, point, .inl rfl, rfl, ?_⟩
    rintro rfl
    cases h
    cases hd
  | worker i point =>
    cases point with
    | running point =>
      refine ⟨i, _, point, .inr rfl, rfl, ?_⟩
      rintro rfl
      cases h
      cases hd
    | choosing | resting =>
      obtain ⟨turn', hstep, rfl⟩ := lifted h
      have outcome := hstep ▸ s.stepWorker_outcome p i _
      cases outcome <;> cases hd
  | lifetime i milliseconds due =>
    have outcome := s.stepLifetime_outcome i milliseconds due
    rw [show s.stepLifetime i milliseconds due = _ from h] at outcome
    cases outcome <;> cases hd
  | finished result =>
    cases h
    cases hd
  | _ =>
    obtain ⟨turn', -, rfl⟩ := lifted h
    cases turn' <;> cases hd

/-- A step keeps the time limit of its process, or sets one that is not over yet; a process that waits has used up its
allowance, or the time limit is not reached. -/
lemma step_deadline {turn : Turn Program} (h : s.step p P = (s', turn)) (hd : turn.program.deadline? = some d) :
    (P.deadline? = some d ∨ s.now ≤ d.due) ∧ ∀ N, turn = .wait N → s'.allowance = 0 ∨ s.now < d.due := by
  obtain ⟨i, w, point, hw, rfl, goes⟩ := executes_of_deadline h hd
  have limit (point : RunPoint) : (w point).deadline? = point.deadline? := by
    rw [Program.deadline?, hw.runPoint, Option.bind_some]
  rw [step_eq_stepRun hw goes] at h
  generalize hrun : s.stepRun p i point = x at h
  obtain ⟨s₀, turn'⟩ := x
  cases h
  rw [limit]
  cases turn' with
  | go next =>
    refine ⟨stepRun_deadline (congrArg (·.2.point?) hrun) ((limit next).symm.trans hd), fun N hN => ?_⟩
    cases hN
  | wait next =>
    have hnext := (limit next).symm.trans hd
    exact ⟨stepRun_deadline (congrArg (·.2.point?) hrun) hnext, fun _ _ => stepRun_early hrun hnext⟩
  | done result => cases hd

/-! ### Punctuality -/

/-- Whoever executes a task is not behind its time limit, and has its turn or is awake once that is reached. -/
def Punctual (turning : Option ProcessId) (s : System) : Prop :=
  ∀ p y d, s.processes[p]? = some y → y.program.deadline? = some d →
    s.now ≤ d.due ∧ (s.now < d.due ∨ turning = some p ∨ s.isAwake p = true)

namespace Punctual

lemma change (h : Punctual turning s) (c : s.Change s') : Punctual turning s' := by
  intro p y' d hy' hd
  obtain ⟨y, hy, program, -⟩ | ⟨fresh, -⟩ := c.process hy'
  · rw [program] at hd
    rw [c.now]
    exact (h p y d hy hd).imp_right (.imp_right (.imp_right c.isAwake))
  · cases (Program.deadline?_of_isFresh fresh).symm.trans hd

lemma changes (h : Punctual turning s) (c : s.Changes s') : Punctual turning s' :=
  c.keeps (fun _ _ h c => h.change c) h

/-- Nothing is missed while nobody moves and no time passes. -/
lemma frame (h : Punctual turning s) (processes : s'.processes = s.processes) (now : s'.now = s.now)
    (awake : ∀ p, s.isAwake p = true → s'.isAwake p = true) : Punctual turning s' := by
  intro p y d hy hd
  rw [now]
  exact (h p y d (processes ▸ hy) hd).imp_right (.imp_right (.imp_right (awake p)))

lemma begins (h : Punctual none s) (p : ProcessId) (allowance : Nat) :
    Punctual (some p) { s with ready := s.ready.erase p, allowance } := by
  intro q y d hy hd
  obtain ⟨notLate, early | turning | awake⟩ := h q y d hy hd
  · exact ⟨notLate, .inl early⟩
  · cases turning
  · refine ⟨notLate, .inr ?_⟩
    by_cases hq : p = q
    · exact .inl (congrArg some hq)
    · rw [isAwake_iff] at awake ⊢
      exact .inr (awake.imp_left (List.mem_erase_of_ne (Ne.symm hq)).mpr)

/-- The process moves on, and what happens to it when its turn ends does not matter to the others. -/
lemma turned (h : Punctual (some p) s) (notLate : ∀ d, N.deadline? = some d → s.now ≤ d.due)
    (processes : ∀ q z, s'.processes[q]? = some z → q = p ∧ z.program = N ∨ q ≠ p ∧ s.processes[q]? = some z)
    (now : s'.now = s.now) (awake : ∀ q, q ≠ p → s.isAwake q = true → s'.isAwake q = true)
    (own : ∀ d, N.deadline? = some d → s.now < d.due ∨ turning = some p ∨ s'.isAwake p = true) :
    Punctual turning s' := by
  intro q z d hz hd
  rw [now]
  obtain ⟨rfl, rfl⟩ | ⟨other, hz⟩ := processes q z hz
  · exact ⟨notLate d hd, own d hd⟩
  · obtain ⟨notLate, early | same | hawake⟩ := h q z d hz hd
    · exact ⟨notLate, .inl early⟩
    · cases same
      exact absurd rfl other
    · exact ⟨notLate, .inr (.inr (awake q other hawake))⟩

lemma mem_setProgram {y : Process} (h : (s.setProgram p N).processes[q]? = some y) :
    q = p ∧ y.program = N ∨ q ≠ p ∧ s.processes[q]? = some y := by
  rw [System.setProgram, System.onProcess] at h
  by_cases hq : q = p
  · subst hq
    rw [List.getElem?_modify_eq] at h
    obtain ⟨z, -, rfl⟩ := Option.map_eq_some_iff.mp h
    exact .inl ⟨rfl, rfl⟩
  · rw [List.getElem?_modify_ne _ _ (Ne.symm hq)] at h
    exact .inr ⟨hq, h⟩

/-- A step of the process: wherever it leads, it is not behind its time limit there. -/
lemma stepped {turn : Turn Program} (h : Punctual (some p) s) (hP : s.program? p = some P)
    (hstep : s.step p P = (s', turn)) :
    Punctual (some p) s' ∧ ∀ d, turn.program.deadline? = some d → s'.now ≤ d.due := by
  have c := Changes.step s p P
  rw [hstep] at c
  refine ⟨h.changes c, fun d hd => ?_⟩
  obtain ⟨y, hy, rfl⟩ := Option.map_eq_some_iff.mp hP
  rw [c.now]
  exact (step_deadline hstep hd).1.elim (fun same => (h p y d hy same).1) id

lemma goes (h : Punctual (some p) s) (notLate : ∀ d, N.deadline? = some d → s.now ≤ d.due) :
    Punctual (some p) (s.setProgram p N) :=
  h.turned notLate (fun _ _ => mem_setProgram) rfl (fun _ _ => id) fun _ _ => .inr (.inl rfl)

/-- The process waits, or is set aside. -/
lemma suspends (h : Punctual (some p) s) (notLate : ∀ d, N.deadline? = some d → s.now ≤ d.due)
    (early : ∀ d, N.deadline? = some d → s.allowance = 0 ∨ s.now < d.due) : Punctual none (s.suspend p N) := by
  rw [suspend]
  split
  next spent =>
    refine h.turned notLate (fun _ _ => mem_setProgram) rfl (fun q _ awake => ?_) fun _ _ => .inr (.inr ?_)
    · rw [isAwake_iff] at awake ⊢
      exact awake.imp_right (List.mem_cons_of_mem p)
    · exact isAwake_iff.mpr (.inr List.mem_cons_self)
  next left =>
    have r : (s.setProgram p N).Rouses (s.park p N) := .setAlarms _ p _
    have now : (s.park p N).now = s.now := by
      rw [park]
      cases N.due? with
      | none => rfl
      | some due =>
        change ((s.setProgram p N).setAlarm p due).now = s.now
        rw [setAlarm]
        split <;> rfl
    refine h.turned notLate (fun q z hz => mem_setProgram (r.processes ▸ hz)) now (fun q _ => r.awake q) fun d hd => ?_
    exact .inl ((early d hd).resolve_left left)

/-- The process ends. -/
lemma ends (h : Punctual (some p) s) (result : Option (Except Error Unit)) : Punctual none (s.finish p result) := by
  rw [finish]
  generalize hset : s.onProcess p (fun x => { x with program := .finished result }) = s₁
  have r := Rouses.wakeAll (s₁.forget p) ((s₁.forget p).joining p)
  have ended (d : Deadline) : (Program.finished result).deadline? ≠ some d := fun hd => by cases hd
  refine h.turned (N := .finished result) (fun d hd => absurd hd (ended d)) (fun q z hz => ?_) ?_
    (fun q other awake => r.awake q ?_) fun d hd => absurd hd (ended d)
  · rw [r.processes] at hz
    subst hset
    exact mem_setProgram (N := .finished result) hz
  · rw [Changes.now (Changes.wakeAll _ _)]
    subst hset
    rfl
  · subst hset
    rw [isAwake_iff] at awake ⊢
    exact awake.imp (fun hq => List.mem_filter.mpr ⟨hq, decide_eq_true other⟩)
      fun hq => List.mem_filter.mpr ⟨hq, decide_eq_true other⟩

/-- The turn of the process is cut short. -/
lemma cut (h : Punctual (some p) s) : Punctual none (s.wake p) := by
  have c : s.Change (s.wake p) := .wakes p
  intro q y d hy hd
  obtain ⟨notLate, early | same | awake⟩ := h.change c q y d hy hd
  · exact ⟨notLate, .inl early⟩
  · cases same
    exact ⟨notLate, .inr (.inr (isAwake_wake s p))⟩
  · exact ⟨notLate, .inr (.inr awake)⟩

/-- A process that is not there or has ended misses its turn. -/
lemma misses (h : Punctual (some p) s) (ended : ∀ y, s.processes[p]? = some y → y.program.isFinished = true) :
    Punctual none s := by
  intro q y d hy hd
  obtain ⟨notLate, early | same | awake⟩ := h q y d hy hd
  · exact ⟨notLate, .inl early⟩
  · cases same
    obtain ⟨P, cancelled⟩ := y
    have finished := ended _ hy
    cases P with
    | finished result => cases hd
    | _ => cases finished
  · exact ⟨notLate, .inr (.inr awake)⟩

/-- **A process runs** until it waits, ends or is cut short, and nobody gets behind a time limit. -/
theorem run (h : Punctual (some p) s) (n : Nat) : Punctual none (System.run p n s) := by
  induction n generalizing s with
  | zero => exact h.cut
  | succ n ih =>
    rw [System.run]
    split
    next unknown =>
      refine h.misses fun y hy => ?_
      rw [System.program?, hy] at unknown
      cases unknown
    next P hP =>
      generalize hstep : s.step p P = x
      obtain ⟨s', turn⟩ := x
      obtain ⟨after, notLate⟩ := h.stepped hP hstep
      have c := Changes.step s p P
      rw [hstep] at c
      cases turn with
      | go N => exact ih (after.goes notLate)
      | wait N => exact after.suspends notLate fun d hd => c.now ▸ (step_deadline hstep hd).2 N rfl
      | done result => exact after.ends (some result)

/-- It is so at each step of a turn and after it. -/
lemma turn (h : Punctual none s) (p : ProcessId) (allowance n : Nat) :
    Punctual none ({ s with ready := s.ready.erase p }.turn p allowance n).1 ∧
      ∀ x ∈ ({ s with ready := s.ready.erase p }.turn p allowance n).2, Punctual (some p) x.before := by
  have begun := h.begins p s.allowance
  have goes (allowance : Nat) := h.begins p allowance
  have idle {s₁ : System} (h : Punctual (some p) s₁)
      (ended : ∀ y, s₁.processes[p]? = some y → y.program.isFinished = true) :
      Punctual none s₁ ∧ ∀ x ∈ ([] : List Step), Punctual (some p) x.before :=
    ⟨h.misses ended, fun x hx => absurd hx List.not_mem_nil⟩
  rw [System.turn]
  split
  next unknown =>
    refine idle begun fun y hy => ?_
    cases unknown.symm.trans hy
  next y hy =>
    split_ifs with finished cancelled
    · refine idle begun fun z hz => ?_
      cases hy.symm.trans hz
      exact finished
    · refine ⟨?_, fun x hx => ?_⟩
      · rw [System.cancel]
        cases y.program.handover? with
        | none => exact begun.ends none
        | some w => exact (begun.changes (Changes.giveUp _ p w)).ends none
      · cases List.mem_singleton.mp hx
        exact begun
    · refine ⟨(goes allowance).run n, fun x hx => ?_⟩
      exact (of_mem_stepsOf (Q := Punctual (some p)) (fun _ _ _ _ h hP hstep =>
        (h.stepped hP hstep).1.goes (h.stepped hP hstep).2) (goes allowance) hx).1

end Punctual

/-! ### The passage of time -/

/-- Whether the timers may reach a time: all processes wait, and no alarm is passed over. -/
def MayRing (s : System) (now : Nat) : Prop :=
  s.isIdle = true ∧ s.now ≤ now ∧ ∀ a ∈ s.alarms, now ≤ max s.now a.1

instance (s : System) (now : Nat) : Decidable (s.MayRing now) :=
  inferInstanceAs (Decidable (_ ∧ _ ∧ _))

/-- Nobody is awake while all processes wait. -/
lemma not_isAwake_of_isIdle (idle : s.isIdle = true) (p : ProcessId) : s.isAwake p = false := by
  obtain ⟨ready, aside⟩ := Bool.and_eq_true_iff.mp idle
  rw [Bool.eq_false_iff, ne_eq, isAwake_iff, List.isEmpty_iff.mp ready, List.isEmpty_iff.mp aside]
  exact not_or.mpr ⟨List.not_mem_nil, List.not_mem_nil⟩

/-- While all processes wait, no time limit is reached. -/
lemma Punctual.early {y : Process} (h : Punctual none s) (idle : s.isIdle = true) (hy : s.processes[p]? = some y)
    (hd : y.program.deadline? = some d) : s.now < d.due := by
  obtain ⟨-, early | turning | awake⟩ := h p y d hy hd
  · exact early
  · cases turning
  · cases (not_isAwake_of_isIdle idle p).symm.trans awake

/-- Who waits with a time limit is woken when it is reached. -/
lemma Punctual.ring (h : Punctual none s) (vigilant : Vigilant none s) {now : Nat} (may : s.MayRing now) :
    Punctual none (s.ring now) := by
  obtain ⟨idle, -, alarms⟩ := may
  have r := Rouses.ring s now
  have rung : (s.ring now).now = now := by
    rw [System.ring]
    exact Changes.now (Changes.wakeAll _ _)
  intro p y d hy hd
  rw [r.processes] at hy
  have early := h.early idle hy hd
  have alarm : (d.due, p) ∈ s.alarms := by
    refine ((vigilant p y hy fun h => by cases h).timed d.due (Program.due?_of_deadline? hd)).resolve_left fun awake => ?_
    cases (not_isAwake_of_isIdle idle p).symm.trans awake
  have notLate : now ≤ d.due := (alarms _ alarm).trans (max_le early.le le_rfl)
  rw [rung]
  refine ⟨notLate, (lt_or_eq_of_le notLate).imp_right fun reached => .inr ?_⟩
  rw [System.ring]
  refine isAwake_wakeAll (List.mem_map.mpr ⟨(d.due, p), ?_, rfl⟩) _
  rw [List.mem_mergeSort, List.mem_filter]
  exact ⟨alarm, decide_eq_true reached.ge⟩

end System

/-- Whether a move lets no more time pass than may. -/
def Move.IsTimely (s : System) : Move → Prop
  | ring now => s.MayRing now
  | _ => True

instance (s : System) (m : Move) : Decidable (m.IsTimely s) := by
  cases m with
  | ring now => exact inferInstanceAs (Decidable (s.MayRing now))
  | _ => exact .isTrue trivial

namespace Chronicle

/-- Whether time passes only when all processes wait, and never over an alarm. -/
def IsTimely : Chronicle → List Move → Prop
  | _, [] => True
  | h, m :: moves => m.IsTimely h.system ∧ IsTimely (h.next m) moves

instance decidableIsTimely : (h : Chronicle) → (moves : List Move) → Decidable (h.IsTimely moves)
  | _, [] => .isTrue trivial
  | h, m :: moves => @instDecidableAnd _ _ _ (decidableIsTimely (h.next m) moves)

/-- Nobody gets behind a time limit, now or in any of the steps taken. -/
structure IsPunctual (h : Chronicle) : Prop where
  now : System.Punctual none h.system
  steps : ∀ x ∈ h.steps, ∃ p, System.Punctual (some p) x.before

lemma IsPunctual.next {h : Chronicle} (punctual : h.IsPunctual) (vigilant : System.Vigilant none h.system) (m : Move)
    (timely : m.IsTimely h.system) : (h.next m).IsPunctual := by
  have «from» {h' : Chronicle} (changes : h.system.Changes h'.system) (steps : h'.steps = h.steps) : h'.IsPunctual :=
    ⟨punctual.now.changes changes, steps ▸ punctual.steps⟩
  cases m with
  | submit r => exact «from» (h.submit_changes r) ((h.incur_cases (.move (.submit r))).resolve_left (by simp)).1
  | timeout elapsed ofSession => exact «from» (.of_change (.starts rfl)) rfl
  | close => exact «from» (.closeMulti _ _) rfl
  | turn p allowance more =>
    obtain ⟨now, taken⟩ := punctual.now.turn p allowance (more + 1)
    refine ⟨now, fun x hx => ?_⟩
    exact (List.mem_append.mp hx).elim (punctual.steps x) fun hx => ⟨p, taken x hx⟩
  | bringBack =>
    have r := System.Rouses.bringBack h.system
    have now := (System.Changes.wakeAll { h.system with aside := [] } h.system.aside).now
    exact ⟨punctual.now.frame r.processes now r.awake, punctual.steps⟩
  | ring now => exact ⟨punctual.now.ring vigilant timely, punctual.steps⟩
  | wait wall => exact ⟨punctual.now.frame rfl rfl fun _ => id, punctual.steps⟩
  | traffic f => exact «from» (.of_change (.starts rfl)) rfl
  | transport f => exact «from» ((System.Changes.of_change (.channel channel _)).trans (.wakeAll _ _)) rfl

lemma IsPunctual.play {h : Chronicle} (punctual : h.IsPunctual) (vigilant : System.Vigilant none h.system)
    (moves : List Move) (timely : h.IsTimely moves) : (h.play moves).IsPunctual := by
  induction moves generalizing h with
  | nil => exact punctual
  | cons m moves ih =>
    exact ih (punctual.next vigilant m timely.1) ((h.incur_evolves (.move m)).vigilant vigilant) timely.2

end Chronicle

/-- **Nobody gets behind a time limit** as long as time passes only when all processes wait. -/
theorem Opening.play_punctual (service : Service) (transport : Transport) (o : Opening) (moves : List Move)
    (timely : Chronicle.IsTimely { system := o.start service transport } moves) :
    (o.play service transport moves).IsPunctual := by
  have opened := o.start_changes service transport
  refine Chronicle.IsPunctual.play ⟨?_, fun x hx => by cases hx⟩ ?_ moves timely
  · exact System.Punctual.changes (fun p y d hy => by cases hy) opened
  · exact System.Vigilant.changes (fun p y hy => by cases hy) opened

end GraphServer
