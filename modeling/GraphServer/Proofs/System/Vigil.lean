import GraphServer.Proofs.System.Changes
import GraphServer.Proofs.System.Rousing

/-!
No process sleeps that could go on.

* `Program.isWaiting`: the points at which a process waits for something;
* `System.Heeded`: a process is sure to have a turn when it was stopped and when it waits for nothing, and its alarm is
  set when it waits for a time;
* `System.Vigilant`: this is so for every process, but for the one that has its turn;
* `System.Vigilant.run`: **it is so again after the turn, however it ends**.
-/

namespace GraphServer

/-- Whether a program waits for something at its point; one that has ended waits for ever. -/
def Program.isWaiting : Program → Bool
  | handler _ (.ready _) | single _ (.start _) | single _ .over => false
  | worker _ .choosing | worker _ (.running (.start _)) | worker _ (.running .over) => false
  | lifetime _ _ none => false
  | timeout _ _ _ (.sending ..) => true
  | timeout .. | connection _ .start | connection _ (.handling _) | connection _ (.ending _) | delivery _ _ .start => false
  | _ => true

namespace System

variable {s s' s'' : System} {p q : ProcessId} {y y' : Process} {P N : Program} {turning : Option ProcessId}

/-! ### Where processes wait -/

lemma liftTurn_snd {α : Type} {x : System × Turn α} {program : α → Program} (h : (liftTurn x program).2 = .wait N) :
    ∃ a, x.2 = .wait a ∧ N = program a := by
  obtain ⟨s, turn⟩ := x
  cases turn with
  | wait a =>
    cases h
    exact ⟨a, rfl, rfl⟩
  | _ => cases h

/-- The execution of a task waits for its handler or for the queue. -/
lemma stepRun_wait {i : SessionId} {point next : RunPoint} (h : (s.stepRun p i point).2 = .wait next) :
    (∃ t handler deadline, next = .joining t handler deadline) ∨ ∃ y, next = .sending y := by
  have outcome := s.stepRun_outcome p i point
  generalize s.stepRun p i point = x at outcome h
  cases outcome with
  | strays | begins | dies | stopped | leaves => cases h
  | waits =>
    cases h
    exact .inl ⟨_, _, _, rfl⟩
  | refuses | returned | expires | resumes => exact .inr (Transit.turn_wait h)

lemma stepConnection_wait {n : ConnectionId} {point next : ConnectionPoint}
    (h : (s.stepConnection p n point).2 = .wait next) : (Program.connection n next).isWaiting = true := by
  have outcome := s.stepConnection_outcome p n point
  generalize s.stepConnection p n point = x at outcome h
  cases outcome with
  | strays | starts | handled => cases h
  | @reads y =>
    have outcome := s.read_outcome n y
    generalize s.read n y = x at outcome h
    cases outcome with
    | waits =>
      cases h
      rfl
    | ends | cuts | jams => cases h
  | @handles y frame rest =>
    have outcome := s.handle_outcome p n y frame rest
    generalize s.handle p n y frame rest = x at outcome h
    cases outcome with
    | accepts => cases h
    | unopened | undecoded | replies =>
      obtain ⟨z, rfl⟩ := Transit.turn_wait h
      rfl
  | replies | excuses =>
    obtain ⟨z, rfl⟩ := Transit.turn_wait h
    rfl
  | ends | closes =>
    obtain ⟨z, result, rfl⟩ := hangUp_wait h
    rfl

lemma stepHandler_wait {k : ContextId} {point next : HandlerPoint} (h : (s.stepHandler p k point).2 = .wait next) :
    (Program.handler k next).isWaiting = true := by
  have outcome := s.stepHandler_outcome p k point
  generalize s.stepHandler p k point = x at outcome h
  cases outcome with
  | returns | sleeps | wakes => cases h
  | calls | resumes =>
    obtain ⟨y, rfl⟩ := Transit.turn_wait h
    rfl
  | waits =>
    cases h
    rfl

lemma stepSingle_wait {i : SessionId} {point next : RunPoint} (h : (s.stepSingle p i point).2 = .wait next) :
    (Program.single i next).isWaiting = true := by
  have outcome := s.stepSingle_outcome p i point
  generalize s.stepSingle p i point = x at outcome h
  cases outcome with
  | ends => cases h
  | runs => obtain ⟨t, z, d, rfl⟩ | ⟨y, rfl⟩ := stepRun_wait h <;> rfl

lemma stepWorker_wait {i : SessionId} {point next : WorkerPoint} (h : (s.stepWorker p i point).2 = .wait next) :
    (Program.worker i next).isWaiting = true := by
  have outcome := s.stepWorker_outcome p i point
  generalize s.stepWorker p i point = x at outcome h
  cases outcome with
  | strays | takes | rests | ends | hears | leaves => cases h
  | waits =>
    cases h
    rfl
  | runs =>
    obtain ⟨next, hrun, rfl⟩ := Turn.map_eq_wait h
    obtain ⟨t, z, d, rfl⟩ | ⟨y, rfl⟩ := stepRun_wait hrun <;> rfl

/-- The end of a time waits for the queue only. -/
lemma stepTimeout_wait {i : SessionId} {elapsed : Nat} {ofSession : Bool} {point next : TimeoutPoint}
    (h : (s.stepTimeout p i elapsed ofSession point).2 = .wait next) :
    (Program.timeout i elapsed ofSession next).isWaiting = true := by
  have outcome := s.stepTimeout_outcome p i elapsed ofSession point
  generalize s.stepTimeout p i elapsed ofSession point = x at outcome h
  cases outcome with
  | late | strays | drains | notifies | disarms | leaves => cases h
  | expires | interrupts | answers | closes | resumes =>
    obtain ⟨y, rfl⟩ := Transit.turn_wait h
    rfl

/-- Where a process waits after a step, it waits for something. -/
lemma step_wait (h : (s.step p P).2 = .wait N) : N.isWaiting = true := by
  cases P with
  | handler k point =>
    obtain ⟨next, hstep, rfl⟩ := liftTurn_snd h
    exact stepHandler_wait hstep
  | single i point =>
    obtain ⟨next, hstep, rfl⟩ := liftTurn_snd h
    exact stepSingle_wait hstep
  | worker i point =>
    obtain ⟨next, hstep, rfl⟩ := liftTurn_snd h
    exact stepWorker_wait hstep
  | lifetime i milliseconds due =>
    have outcome := s.stepLifetime_outcome i milliseconds due
    rw [step] at h
    generalize s.stepLifetime i milliseconds due = x at outcome h
    cases outcome with
    | sets | rings => cases h
    | waits =>
      cases h
      rfl
  | timeout i elapsed ofSession point =>
    obtain ⟨next, hstep, rfl⟩ := liftTurn_snd h
    exact stepTimeout_wait hstep
  | writer c =>
    obtain ⟨next, -, rfl⟩ := liftTurn_snd h
    rfl
  | connection n point =>
    obtain ⟨next, hstep, rfl⟩ := liftTurn_snd h
    exact stepConnection_wait hstep
  | delivery c d point =>
    obtain ⟨next, hstep, rfl⟩ := liftTurn_snd h
    rw [stepDelivery.eq_def] at hstep
    dsimp only at hstep
    split at hstep <;> cases hstep
    rfl
  | finished result =>
    cases h
    rfl

/-! ### What is kept by every change -/

namespace Change

lemma now (c : s.Change s') : s'.now = s.now := by
  have wakes (s : System) (p : ProcessId) : (s.wake p).now = s.now := by
    rw [wake]
    split <;> rfl
  cases c with
  | wakes p => exact wakes s p
  | starts fresh => exact wakes _ _
  | stops p =>
    have outcome := s.abort_outcome p
    generalize s.abort p = s' at outcome ⊢
    cases outcome with
    | spares => rfl
    | stops => exact wakes _ p
  | _ => rfl

lemma alarms (c : s.Change s') : s'.alarms = s.alarms := by
  have wakes (s : System) (p : ProcessId) : (s.wake p).alarms = s.alarms := by
    rw [wake]
    split <;> rfl
  cases c with
  | wakes p => exact wakes s p
  | starts fresh => exact wakes _ _
  | stops p =>
    have outcome := s.abort_outcome p
    generalize s.abort p = s' at outcome ⊢
    cases outcome with
    | spares => rfl
    | stops => exact wakes _ p
  | _ => rfl

lemma isAwake (c : s.Change s') (h : s.isAwake p = true) : s'.isAwake p = true := by
  cases c with
  | wakes q => exact (Rouses.wake s q).awake p h
  | starts fresh => exact (Rouses.wake _ _).awake p h
  | stops q =>
    have outcome := s.abort_outcome q
    generalize s.abort q = s' at outcome ⊢
    cases outcome with
    | spares => exact h
    | stops => exact (Rouses.wake _ q).awake p h
  | _ => exact h

/-- A process was there, and is awake if it was stopped since; or it is new and awake. -/
lemma process (c : s.Change s') (hy' : s'.processes[p]? = some y') :
    (∃ y, s.processes[p]? = some y ∧ y'.program = y.program ∧
      (y'.cancelled = true → y.cancelled = true ∨ s'.isAwake p = true)) ∨
    y'.program.isFresh = true ∧ s'.isAwake p = true := by
  have kept (same : s'.processes = s.processes) : ∃ y, s.processes[p]? = some y ∧ y'.program = y.program ∧
      (y'.cancelled = true → y.cancelled = true ∨ s'.isAwake p = true) :=
    ⟨y', same ▸ hy', rfl, .inl⟩
  cases c with
  | wakes q => exact .inl (kept (Quiet.wake s q).processes)
  | @starts P fresh =>
    have hprocesses : (s.spawn P).1.processes = s.processes ++ [{ program := P }] := (Quiet.wake (s.addProcess P).1 _).processes
    rw [hprocesses] at hy'
    rcases lt_or_ge p s.processes.length with hp | hp
    · rw [List.getElem?_append_left hp] at hy'
      exact .inl ⟨y', hy', rfl, .inl⟩
    · rw [List.getElem?_append_right hp, List.getElem?_singleton] at hy'
      split at hy'
      next last =>
        cases hy'
        obtain rfl : p = s.processes.length := le_antisymm (Nat.sub_eq_zero_iff_le.mp last) hp
        exact .inr ⟨fresh, isAwake_wake _ _⟩
      next => cases hy'
  | stops q =>
    have outcome := s.abort_outcome q
    generalize s.abort q = s' at outcome hy' ⊢
    cases outcome with
    | spares => exact .inl ⟨y', hy', rfl, .inl⟩
    | stops =>
      rw [(Quiet.wake _ q).processes, System.onProcess] at hy'
      by_cases hp : p = q
      · subst hp
        rw [List.getElem?_modify_eq] at hy'
        obtain ⟨y, hy, rfl⟩ := Option.map_eq_some_iff.mp hy'
        exact .inl ⟨y, hy, rfl, fun _ => .inr (isAwake_wake _ _)⟩
      · rw [List.getElem?_modify_ne _ _ (Ne.symm hp)] at hy'
        exact .inl ⟨y', hy', rfl, .inl⟩
  | _ => exact .inl (kept rfl)

end Change

namespace Changes

lemma now (c : s.Changes s') : s'.now = s.now :=
  c.keeps (P := fun s' => s'.now = s.now) (fun _ _ same c => c.now.trans same) rfl

lemma alarms (c : s.Changes s') : s'.alarms = s.alarms :=
  c.keeps (P := fun s' => s'.alarms = s.alarms) (fun _ _ same c => c.alarms.trans same) rfl

end Changes

/-! ### Vigilance -/

/-- A process is sure to have a turn if it could go on, and to be woken in time. -/
structure Heeded (s : System) (p : ProcessId) (y : Process) : Prop where
  stopped : y.program.isFinished = false → y.cancelled = true → s.isAwake p = true
  acts : y.program.isWaiting = false → s.isAwake p = true
  timed : ∀ due, y.program.due? = some due → s.isAwake p = true ∨ (due, p) ∈ s.alarms

/-- Every process is heeded, but for the one that has its turn. -/
def Vigilant (turning : Option ProcessId) (s : System) : Prop :=
  ∀ p y, s.processes[p]? = some y → turning ≠ some p → s.Heeded p y

/-- The process that has its turn is sure to have another one if it was stopped in the meantime. -/
def Spared (p : ProcessId) (s : System) : Prop :=
  ∀ y, s.processes[p]? = some y → y.cancelled = true → s.isAwake p = true

namespace Heeded

lemma of_isAwake (awake : s.isAwake p = true) : s.Heeded p y :=
  ⟨fun _ _ => awake, fun _ => awake, fun _ _ => .inl awake⟩

lemma mono (h : s.Heeded p y) (program : y'.program = y.program)
    (cancelled : y'.cancelled = true → y.cancelled = true ∨ s'.isAwake p = true)
    (awake : s.isAwake p = true → s'.isAwake p = true)
    (alarms : ∀ due, (due, p) ∈ s.alarms → s'.isAwake p = true ∨ (due, p) ∈ s'.alarms) : s'.Heeded p y' where
  stopped unfinished hc := (cancelled hc).elim (fun hc => awake (h.stopped (program ▸ unfinished) hc)) id
  acts hacts := awake (h.acts (program ▸ hacts))
  timed due hdue := (h.timed due (program ▸ hdue)).elim (fun ha => .inl (awake ha)) (alarms due)

end Heeded

namespace Spared

lemma change (h : Spared p s) (c : s.Change s') : Spared p s' := by
  intro y' hy' hc
  obtain ⟨y, hy, -, cancelled⟩ | ⟨-, awake⟩ := c.process hy'
  · exact (cancelled hc).elim (fun hc => c.isAwake (h y hy hc)) id
  · exact awake

lemma changes (h : Spared p s) (c : s.Changes s') : Spared p s' :=
  c.keeps (fun _ _ h c => h.change c) h

lemma goes (h : Spared p s) (N : Program) : Spared p (s.setProgram p N) := by
  intro z hz hc
  rw [System.setProgram, System.onProcess, List.getElem?_modify_eq] at hz
  obtain ⟨y, hy, rfl⟩ := Option.map_eq_some_iff.mp hz
  exact h y hy hc

end Spared

namespace Vigilant

/-- Every change leaves the server vigilant. -/
lemma change (h : Vigilant turning s) (c : s.Change s') : Vigilant turning s' := by
  intro p y' hy' other
  obtain ⟨y, hy, program, cancelled⟩ | ⟨-, awake⟩ := c.process hy'
  · exact (h p y hy other).mono program cancelled c.isAwake fun due hdue => .inr (c.alarms ▸ hdue)
  · exact .of_isAwake awake

lemma changes (h : Vigilant turning s) (c : s.Changes s') : Vigilant turning s' :=
  c.keeps (fun _ _ h c => h.change c) h

/-- Nothing is forgotten while nobody moves. -/
lemma frame (h : Vigilant turning s) (processes : s'.processes = s.processes)
    (awake : ∀ p, s.isAwake p = true → s'.isAwake p = true)
    (alarms : ∀ due p, (due, p) ∈ s.alarms → s'.isAwake p = true ∨ (due, p) ∈ s'.alarms) : Vigilant turning s' :=
  fun p y hy other => (h p y (processes ▸ hy) other).mono rfl .inl (awake p) fun due => alarms due p

lemma ring (h : Vigilant none s) (now : Nat) : Vigilant none (s.ring now) := by
  have r := Rouses.ring s now
  refine h.frame r.processes r.awake fun due p hdue => ?_
  by_cases hlate : due ≤ now
  · refine .inl ?_
    rw [System.ring]
    refine isAwake_wakeAll (List.mem_map.mpr ⟨(due, p), ?_, rfl⟩) _
    rw [List.mem_mergeSort, List.mem_filter]
    exact ⟨hdue, decide_eq_true hlate⟩
  · refine .inr ?_
    rw [System.ring, Changes.alarms (Changes.wakeAll _ _)]
    exact List.mem_filter.mpr ⟨hdue, decide_eq_true (not_le.mp hlate)⟩

lemma bringBack (h : Vigilant none s) : Vigilant none s.bringBack := by
  have r := Rouses.bringBack s
  refine h.frame r.processes r.awake fun due p hdue => .inr ?_
  rwa [System.bringBack, Changes.alarms (Changes.wakeAll _ _)]

/-! ### Turns -/

/-- A process begins its turn. -/
lemma begins (h : Vigilant none s) (p : ProcessId) : Vigilant (some p) { s with ready := s.ready.erase p } := by
  intro q z hz other
  refine (h q z hz nofun).mono rfl .inl (fun awake => ?_) fun _ => .inr
  have hne : q ≠ p := fun hq => other (by rw [hq])
  rw [isAwake_iff] at awake ⊢
  exact awake.imp_left (List.mem_erase_of_ne hne).mpr

/-- The process goes on at another point. -/
lemma goes (h : Vigilant (some p) s) (N : Program) : Vigilant (some p) (s.setProgram p N) := by
  intro q z hz other
  have hne : q ≠ p := fun hq => other (by rw [hq])
  rw [System.setProgram, System.onProcess, List.getElem?_modify_ne _ _ (Ne.symm hne)] at hz
  exact (h q z hz other).mono rfl .inl id fun _ => .inr

/-- The turn of the process ends, and it is heeded like the others. -/
lemma turned (h : Vigilant (some p) s) (processes : ∀ q, q ≠ p → s'.processes[q]? = s.processes[q]?)
    (awake : ∀ q, q ≠ p → s.isAwake q = true → s'.isAwake q = true)
    (alarms : ∀ due q, q ≠ p → (due, q) ∈ s.alarms → (due, q) ∈ s'.alarms)
    (own : ∀ y, s'.processes[p]? = some y → s'.Heeded p y) : Vigilant none s' := by
  intro q z hz _
  by_cases hq : q = p
  · subst hq
    exact own z hz
  · have hz' := (processes q hq).symm.trans hz
    exact (h q z hz' fun same => hq (Option.some.inj same).symm).mono rfl .inl (awake q hq) fun due hdue =>
      .inr (alarms due q hq hdue)

/-- A process that is not there or has ended misses its turn. -/
lemma misses (h : Vigilant (some p) s) (ended : ∀ y, s.processes[p]? = some y → y.program.isFinished = true) :
    Vigilant none s := by
  refine h.turned (fun _ _ => rfl) (fun _ _ => id) (fun _ _ _ => id) fun y hy => ?_
  have finished := ended y hy
  obtain ⟨P, cancelled⟩ := y
  cases P with
  | finished result => exact ⟨nofun, nofun, nofun⟩
  | _ => cases finished

/-- The turn of the process is cut short. -/
lemma cut (h : Vigilant (some p) s) : Vigilant none (s.wake p) := by
  have c : s.Change (s.wake p) := .wakes p
  refine h.turned (fun q _ => ?_) (fun q _ => c.isAwake) (fun due q _ hdue => c.alarms ▸ hdue) fun y hy => ?_
  · rw [(Quiet.wake s p).processes]
  · exact .of_isAwake (isAwake_wake s p)

lemma mem_setAlarms (s : System) (p : ProcessId) (dues : List Nat) :
    (∀ e ∈ s.alarms, e ∈ (dues.foldl (fun s due => s.setAlarm p due) s).alarms) ∧
      ∀ due ∈ dues, (due, p) ∈ (dues.foldl (fun s due => s.setAlarm p due) s).alarms := by
  induction dues generalizing s with
  | nil => exact ⟨fun _ => id, fun _ h => absurd h List.not_mem_nil⟩
  | cons due dues ih =>
    obtain ⟨kept, set⟩ := ih (s.setAlarm p due)
    have first : (∀ e ∈ s.alarms, e ∈ (s.setAlarm p due).alarms) ∧ (due, p) ∈ (s.setAlarm p due).alarms := by
      rw [setAlarm]
      split
      next there => exact ⟨fun _ => id, there⟩
      next => exact ⟨fun _ => List.mem_append_left _, List.mem_append_right _ List.mem_cons_self⟩
    refine ⟨fun e he => kept e (first.1 e he), fun d hd => ?_⟩
    obtain rfl | hd := List.mem_cons.mp hd
    · exact kept _ first.2
    · exact set d hd

/-- The process waits for something, or is set aside. -/
lemma suspends (h : Vigilant (some p) s) (spared : Spared p s) (waits : N.isWaiting = true) :
    Vigilant none (s.suspend p N) := by
  have gone := h.goes N
  rw [suspend]
  split
  next spent =>
    refine gone.turned (fun _ _ => rfl) (fun q _ awake => ?_) (fun _ _ _ => id) fun y _ => ?_
    · rw [isAwake_iff] at awake ⊢
      exact awake.imp_right (List.mem_cons_of_mem p)
    · exact .of_isAwake (isAwake_iff.mpr (.inr List.mem_cons_self))
  next =>
    have r : (s.setProgram p N).Rouses (s.park p N) := .setAlarms _ p _
    obtain ⟨kept, set⟩ := mem_setAlarms (s.setProgram p N) p N.due?.toList
    refine gone.turned (fun q _ => by rw [r.processes]) (fun q _ => r.awake q) (fun due q _ => kept (due, q)) fun y hy => ?_
    rw [r.processes] at hy
    have hprogram : y.program = N := by
      rw [System.setProgram, System.onProcess, List.getElem?_modify_eq] at hy
      obtain ⟨z, -, rfl⟩ := Option.map_eq_some_iff.mp hy
      rfl
    refine ⟨fun _ hc => r.awake p (spared.goes N y hy hc), fun acts => ?_, fun due hdue => .inr (set due ?_)⟩
    · rw [hprogram, waits] at acts
      cases acts
    · rw [← hprogram]
      exact Option.mem_toList.mpr hdue

/-- The process ends. -/
lemma ends (h : Vigilant (some p) s) (result : Option (Except Error Unit)) : Vigilant none (s.finish p result) := by
  rw [finish]
  generalize hset : s.onProcess p (fun x => { x with program := .finished result }) = s₁
  have gone : Vigilant (some p) s₁ := hset ▸ h.goes (.finished result)
  have r := Rouses.wakeAll (s₁.forget p) ((s₁.forget p).joining p)
  refine gone.turned (fun q _ => by rw [r.processes]; rfl) (fun q other awake => r.awake q ?_) (fun due q other hdue => ?_)
    fun y hy => ?_
  · rw [isAwake_iff] at awake ⊢
    exact awake.imp (fun hq => List.mem_filter.mpr ⟨hq, decide_eq_true other⟩)
      fun hq => List.mem_filter.mpr ⟨hq, decide_eq_true other⟩
  · rw [Changes.alarms (Changes.wakeAll _ _)]
    exact List.mem_filter.mpr ⟨hdue, decide_eq_true other⟩
  · rw [r.processes] at hy
    change s₁.processes[p]? = some y at hy
    rw [← hset, System.onProcess, List.getElem?_modify_eq] at hy
    obtain ⟨z, -, rfl⟩ := Option.map_eq_some_iff.mp hy
    exact ⟨nofun, nofun, nofun⟩

/-- **A process runs** until it waits, ends or is cut short, and no process sleeps that could go on. -/
theorem run (h : Vigilant (some p) s) (spared : Spared p s) (n : Nat) : Vigilant none (System.run p n s) := by
  induction n generalizing s with
  | zero => exact h.cut
  | succ n ih =>
    rw [System.run]
    split
    next unknown =>
      refine h.misses fun y hy => ?_
      rw [System.program?, hy] at unknown
      cases unknown
    next P hP =>
      have stepped := h.changes (Changes.step s p P)
      have sparing := spared.changes (Changes.step s p P)
      have waits (N : Program) := step_wait (s := s) (p := p) (P := P) (N := N)
      generalize s.step p P = x at stepped sparing waits
      obtain ⟨s', turn⟩ := x
      cases turn with
      | go N => exact ih (stepped.goes N) (sparing.goes N)
      | wait N => exact stepped.suspends sparing (waits N rfl)
      | done result => exact stepped.ends (some result)

/-- A process that was stopped ends at its turn. -/
lemma cancel (h : Vigilant (some p) s) (P : Program) : Vigilant none (s.cancel p P) := by
  have gaveUp : ∀ y, Vigilant (some p) (s.giveUp p y) := fun y => h.changes (Changes.giveUp s p y)
  rw [System.cancel]
  cases P.handover? with
  | none => exact h.ends none
  | some y => exact (gaveUp y).ends none

end Vigilant

end System

end GraphServer
