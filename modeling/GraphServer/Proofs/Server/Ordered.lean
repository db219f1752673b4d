import GraphServer.Proofs.Server.Managing
import GraphServer.Proofs.Server.Operations
import GraphServer.System.Event

/-!
Every step of every process keeps all sessions in order, however they were opened.

* `System.Preserves`: between two states of a server sessions only went on, and they are in order if they were before;
  so does all that the manager does, and all that is done to a session past the manager;
* `System.Ordered`: all sessions are in order, and only handlers count as handlers of a session;
* `Step.Starts`: a step starts a handler for a session;
* `System.Ordered.step`: **a step keeps the sessions in order**, where the handlers that it starts are counted.
-/

namespace GraphServer

/-- Whether a program is that of a handler, or has ended. -/
def Program.isHandler : Program → Bool
  | handler .. | finished _ => true
  | _ => false

/-- A step starts a process as a handler for a session. -/
def Step.Starts (x : Step) (i : SessionId) (p : ProcessId) : Prop :=
  x.program.attends i = true ∧ ∃ k, (p, k) ∈ x.started

namespace System

/-- The handlers of a session, with those that some steps started. -/
def With (own : SessionId → ProcessId → Prop) (taken : List Step) (i : SessionId) (p : ProcessId) : Prop :=
  own i p ∨ ∃ x ∈ taken, x.Starts i p

variable {own own' : SessionId → ProcessId → Prop} {s s' s'' : System} {i j : SessionId} {r : ProcessId}
  {P N : Program}

lemma with_nil {p : ProcessId} : With own [] i p ↔ own i p :=
  or_iff_left fun ⟨_, hmem, _⟩ => absurd hmem List.not_mem_nil

lemma with_singleton {x : Step} {p : ProcessId} : With own [x] i p ↔ own i p ∨ x.Starts i p := by
  rw [With]
  simp only [List.mem_singleton, exists_eq_left]

lemma with_append (xs ys : List Step) {p : ProcessId} : With own (xs ++ ys) i p ↔ With (With own xs) ys i p := by
  simp only [With, List.mem_append, or_and_right, exists_or, or_assoc]

lemma attends_program_map {α : Type} {f : α → Program} (turn : Turn α) (apart : ∀ x, (f x).attends i = false) :
    (turn.map f).program.attends i = false := by
  cases turn with
  | go x => exact apart x
  | wait x => exact apart x
  | done result => rfl

/-- A handler stays one, and its steps concern no session. -/
lemma step_of_isHandler (s : System) (r : ProcessId) (handles : P.isHandler = true) :
    s.Still (s.step r P).1 ∧ (s.step r P).2.program.isHandler = true := by
  cases P with
  | handler k point =>
    have hhandles (turn : Turn HandlerPoint) : (turn.map (Program.handler k)).program.isHandler = true := by
      cases turn <;> rfl
    exact ⟨.stepHandler s r k point, hhandles _⟩
  | finished result => exact ⟨.refl s, rfl⟩
  | _ => cases handles

/-- What a step starts for a session are new processes, and handlers. -/
lemma new_of_starts {x : Step} {p : ProcessId} (h : x.Starts i p) :
    (x.before.processes.length ≤ p ∧ p < x.after.processes.length) ∧
      (x.after.program? p).any Program.isHandler = true := by
  obtain ⟨-, k, hk⟩ := h
  obtain ⟨⟨y, q⟩, hmem, hq⟩ := List.mem_filterMap.mp hk
  obtain ⟨m, hm, hget⟩ := List.mem_drop_iff_getElem.mp hmem
  have hnth := (List.getElem?_eq_getElem (Nat.add_comm .. ▸ hm)).trans (congrArg some hget)
  rw [List.getElem?_zipIdx, Option.map_eq_some_iff] at hnth
  obtain ⟨z, hz, heq⟩ := hnth
  obtain ⟨rfl, rfl⟩ := Prod.mk.inj heq
  dsimp only at hq
  split at hq
  next program hprogram =>
    obtain ⟨rfl, rfl⟩ := Prod.mk.inj (Option.some.inj hq)
    rw [Nat.zero_add]
    refine ⟨⟨Nat.le_add_right _ _, (List.getElem?_eq_some_iff.mp hz).1⟩, ?_⟩
    rw [program?, hz, Option.map_some, Option.any_some, hprogram]
    rfl
  next => cases hq

/-! ### What does not disturb the order -/

/-- Between two states of a server sessions only went on, and if all were kept in order they still are. -/
structure Preserves (s s' : System) : Prop where
  onward : s.Onward s'
  orderly : ∀ own : SessionId → ProcessId → Prop, (∀ i, Orderly (own i) s i) → ∀ i, Orderly (own i) s' i

namespace Preserves

lemma of_still (h : s.Still s') : s.Preserves s' where
  onward := .of_still h
  orderly _ ho i := (ho i).of_still h

lemma trans (h : s.Preserves s') (h' : s'.Preserves s'') : s.Preserves s'' where
  onward := h.onward.trans h'.onward
  orderly own ho := h'.orderly own (h.orderly own ho)

/-- What concerns one session only and keeps it in order. -/
lemma of_affects (a : Affects j s s') (orderly : ∀ mine, Orderly mine s j → Orderly mine s' j) : s.Preserves s' where
  onward := a.onward
  orderly own ho i := by
    by_cases hi : i = j
    · exact hi ▸ orderly (own j) (ho j)
    · exact (ho i).of_affects a hi

lemma retable (s : System) (t : SessionTable) : s.Preserves { s with table := t } where
  onward := Sound.onward_retable s t
  orderly _ ho i := (ho i).of_fewer rfl le_rfl (fun _ _ hp _ => hp) fun _ _ => id

lemma spawn (s : System) {program : Program} (idle : ∀ i, program.attends i = false) :
    s.Preserves (s.spawn program).1 :=
  have haffects (j : SessionId) : Affects j s (s.spawn program).1 := .spawn s fun i _ => idle i
  ⟨(haffects 0).onward, fun _ ho i => (ho i).of_affects (haffects (i + 1)) (Nat.ne_of_lt (Nat.lt_succ_self i))⟩

lemma abortAll (s : System) (ps : List ProcessId) : s.Preserves (s.abortAll ps) where
  onward := (Tends.abortAll s ps 0).onward
  orderly _ ho i := (ho i).abortAll ps

/-! ### Sessions -/

/-- A session is opened, in order from the start. -/
lemma opened {x : Session} (a : Affects s.sessions.length (s.addSession x).1 s')
    (orderly : ∀ mine, Orderly mine s s.sessions.length → Orderly mine s' s.sessions.length) : s.Preserves s' where
  onward := (Sound.onward_addSession s x).trans a.onward
  orderly own ho i := by
    by_cases hi : i = s.sessions.length
    · exact hi ▸ orderly _ (ho _)
    · exact ((ho i).addSession x hi).of_affects a hi

lemma openSingle (s : System) (name : String) (c : ChannelId) : s.Preserves (s.openSingle name c).1 :=
  opened (Affects.refl _ _) fun _ ho => ho.openSingle name c

lemma openMulti (s : System) (name : String) (c : ChannelId) (limit : Nat) : s.Preserves (s.openMulti name c limit).1 :=
  opened (Orderly.openMulti_affects s name c limit) fun _ ho => ho.openMulti name c limit

lemma submitTask (s : System) (i : SessionId) (t : Task) : s.Preserves (s.submitTask i t).1 :=
  of_affects (.submitTask s i t) fun _ ho => ho.submitTask t

lemma closeMulti (s : System) (i : SessionId) : s.Preserves (s.closeMulti i) :=
  of_affects (Tends.closeMulti s i).toAffects fun _ ho => ho.closeMulti

lemma kill (s : System) (i : SessionId) : s.Preserves (s.kill i) :=
  of_affects (Tends.kill s i).toAffects fun _ ho => ho.kill

lemma armLifetime (s : System) (i : SessionId) : s.Preserves (s.armLifetime i) :=
  of_affects (Tends.armLifetime s i).toAffects fun _ ho => ho.armLifetime

/-- A session is changed without coming to its end, and the task in flight is left alone. -/
lemma onSession (s : System) (i : SessionId) (f : Session → Session)
    (calm : ∀ x, s.sessions[i]? = some x → (f x).inFlight = x.inFlight ∧ x.Calms (f x)) :
    s.Preserves (s.onSession i f) :=
  of_affects (Affects.onSession s i f fun x hx => (calm x hx).2.follows) fun _ ho => ho.onSession calm

lemma fillHook (s : System) (i : SessionId) (hook : SessionHook) : s.Preserves (s.fillHook i hook).1 := by
  have hadd : s.Preserves (s.addProcess (.finished none)).1 := by
    have hwake := Quiet.wake (s.addProcess (.finished none)).1 s.processes.length
    exact (spawn s fun _ => rfl).trans
      (of_still ⟨hwake.service.symm, hwake.sessions.symm, hwake.table.symm, hwake.processes.symm⟩)
  rw [System.fillHook]
  dsimp only
  split
  · exact hadd
  next x hx =>
    split
    next x' hset =>
      refine hadd.trans (onSession _ i _ fun y hy => ?_)
      cases hx.symm.trans hy
      have hcalms := Session.Calms.setHook x hook s.processes.length
      rw [show x.setHook hook s.processes.length = .ok x' from hset] at hcalms
      obtain ⟨future, cancelFuture, rfl⟩ := Session.setHook_eq_ok hset
      exact ⟨rfl, hcalms⟩
    next => exact hadd

lemma addContext (s : System) (c : TaskContext) : s.Preserves (s.addContext c).1 :=
  of_still ⟨rfl, rfl, rfl, rfl⟩

lemma trySend (s : System) (c : ChannelId) (f : OutboundFrame) : s.Preserves (s.trySend c f).1 := by
  rw [System.trySend]
  split
  · exact of_still (.refl s)
  · split
    · exact of_still (.refl s)
    · exact of_still ((Quiet.onChannel s c _).trans (.wakeReceiver _ c)).toStill

/-! ### The manager -/

lemma submit (s : System) (c : ChannelId) (i : SessionId) (r : Request) : s.Preserves (s.submit c i r).1 := by
  rw [submit_fst]
  exact (addContext s _).trans (submitTask _ i _)

lemma getOrCreate (s : System) (name : String) (c : ChannelId) : s.Preserves (s.getOrCreate name c).1 := by
  have hprune : s.Preserves s.prune := retable s _
  have outcome := s.getOrCreate_outcome name c
  generalize s.getOrCreate name c = x at outcome ⊢
  cases outcome with
  | finds | elsewhere | full => exact hprune
  | opens => exact ((hprune.trans (openMulti s.prune name c _)).trans (armLifetime _ _)).trans (retable _ _)

lemma single (s : System) (c : ChannelId) : s.Preserves (s.single c).1 :=
  ((openSingle s "" c).trans (retable _ _)).trans (retable _ _)

lemma closeSession (s : System) (name : String) : s.Preserves (s.closeSession name).1 := by
  rw [System.closeSession]
  split
  · exact of_still (.refl s)
  · exact (retable s _).trans (closeMulti _ _)

lemma killAll (s : System) (is : List SessionId) : s.Preserves (is.foldl System.kill s) := by
  induction is generalizing s with
  | nil => exact of_still (.refl s)
  | cons i is ih => exact (kill s i).trans (ih (s.kill i))

lemma closeBoundTo (s : System) (c : ChannelId) : s.Preserves (s.closeBoundTo c) :=
  (killAll s _).trans (retable _ _)

/-- Whatever the manager does preserves the order. -/
lemma comprises : Comprises Preserves :=
  { still := of_still, trans, spawn, submit, getOrCreate, single, closeMulti, closeSession, closeBoundTo
    sessionCount := fun s => retable s _
    runningSingles := fun s => retable s _ }

end Preserves

/-! ### Steps -/

/-- All sessions are kept in order, and only handlers were started for sessions. -/
structure Ordered (own : SessionId → ProcessId → Prop) (s : System) : Prop where
  orderly : ∀ i, Orderly (own i) s i
  staffed : ∀ i p, own i p → (s.program? p).any Program.isHandler = true

namespace Ordered

lemma mono (h : Ordered own s) (fewer : ∀ i p, own' i p → own i p) : Ordered own' s where
  orderly i := (h.orderly i).mono (fewer i)
  staffed i p hp := h.staffed i p (fewer i p hp)

lemma of_preserves (h : Ordered own s) (kept : s.Preserves s') : Ordered own s' where
  orderly := kept.orderly own h.orderly
  staffed i p hp := by
    obtain ⟨program, hprogram, hhandler⟩ := (Option.any_eq_true _ _).mp (h.staffed i p hp)
    rw [kept.onward.program? hprogram]
    exact hhandler

/-- A handler that can take steps is one of a session that is not over. -/
lemma lives (h : Ordered own s) {p : ProcessId} (hp : own i p) (hactive : s.isActive p = true) {x : Session}
    (hx : s.sessions[i]? = some x) : x.isOver = false :=
  Bool.eq_false_iff.mpr fun ho =>
    Bool.false_ne_true ((((h.orderly i).ended x hx ho).2 p hp).symm.trans hactive)

lemma setProgram_finished (h : Ordered own s) (p : ProcessId) (result : Option (Except Error Unit)) :
    Ordered own (s.setProgram p (.finished result)) where
  orderly i := (h.orderly i).moved_out p result
  staffed i q hq := by
    rw [program?_setProgram]
    obtain ⟨program, hprogram, hhandler⟩ := (Option.any_eq_true _ _).mp (h.staffed i q hq)
    rw [hprogram]
    split
    · rfl
    · exact hhandler

lemma staffed_of_moved (h : Ordered own s) (hP : s.program? r = some P) (onward : s.Onward s')
    (handles : P.isHandler = true → N.isHandler = true) {x : Step} (before : x.before = s) (after : x.after = s')
    (p : ProcessId) (hp : With own [x] i p) :
    ((s'.setProgram r N).program? p).any Program.isHandler = true := by
  subst before after
  rw [program?_setProgram]
  rcases with_singleton.mp hp with hold | hnew
  · have hstaffed := h.staffed i p hold
    obtain ⟨program, hprogram, hhandler⟩ := (Option.any_eq_true _ _).mp hstaffed
    rw [onward.program? hprogram]
    split
    next hrp =>
      subst hrp
      cases hP.symm.trans hprogram
      exact handles hhandler
    next => exact hhandler
  · obtain ⟨⟨hle, -⟩, hhandler⟩ := new_of_starts hnew
    have hother : r ≠ p := fun hrp => Nat.not_lt.mpr hle (hrp ▸ lt_of_program? hP)
    rw [if_neg hother]
    exact hhandler

/-- A step of a process that executes no tasks. -/
lemma step_apart (h : Ordered own s) (hP : s.program? r = some P) (unfinished : P.isFinished = false)
    (idle : ∀ i, P.attends i = false) (kept : s.Preserves s') (apart : ∀ i, N.attends i = false)
    (handles : P.isHandler = true → N.isHandler = true) {turn : Option (Turn Program)} :
    Ordered (With own [⟨s, P, s', turn⟩]) (s'.setProgram r N) ∧ s.Onward s' := by
  refine ⟨⟨fun i => ?_, fun i => h.staffed_of_moved hP kept.onward handles rfl rfl⟩, kept.onward⟩
  have hmoved := (kept.orderly own h.orderly i).moved_apart (kept.onward.program? hP) unfinished (apart i)
  exact hmoved.mono fun p hp => (with_singleton.mp hp).resolve_right fun hnew =>
    Bool.false_ne_true ((idle i).symm.trans hnew.1)

/-- A step of the process that executes the tasks of a session. -/
lemma step_attending (h : Ordered own s) (hP : s.program? r = some P) (attends : ∀ i, P.attends i = (j == i))
    (kept : Tends j s s' ∧ Orderly (Since (own j) s s') (s'.setProgram r N) j)
    (apart : ∀ i, i ≠ j → N.attends i = false) {turn : Option (Turn Program)} :
    Ordered (With own [⟨s, P, s', turn⟩]) (s'.setProgram r N) ∧ s.Onward s' := by
  have hattends := (attends j).trans (beq_self_eq_true j)
  have hunfinished := isFinished_of_attends hattends
  refine ⟨⟨fun i => ?_, fun i => h.staffed_of_moved hP kept.1.onward (fun hhandler => ?_) rfl rfl⟩, kept.1.onward⟩
  · by_cases hi : i = j
    · subst hi
      exact kept.2.mono fun p hp => (with_singleton.mp hp).imp_right fun hnew => (new_of_starts hnew).1
    · have hmoved := ((h.orderly i).of_affects kept.1.toAffects hi).moved_apart (kept.1.onward.program? hP) hunfinished
        (apart i hi)
      refine hmoved.mono fun p hp => (with_singleton.mp hp).resolve_right fun hnew => ?_
      have hself := (attends i).symm.trans hnew.1
      exact hi (beq_iff_eq.mp hself).symm
  · cases P <;> cases hhandler <;> cases hattends

/-- **Every step of every process keeps the sessions in order.** -/
theorem step (h : Ordered own s) (hP : s.program? r = some P) :
    Ordered (With own [⟨s, P, (s.step r P).1, some (s.step r P).2⟩])
      ((s.step r P).1.setProgram r (s.step r P).2.program) ∧ s.Onward (s.step r P).1 := by
  cases P with
  | handler k point =>
    obtain ⟨hstill, hhandles⟩ := step_of_isHandler s r (P := .handler k point) rfl
    exact h.step_apart hP rfl (fun _ => rfl) (.of_still hstill) (fun i => attends_program_map _ fun _ => rfl)
      fun _ => hhandles
  | single j point =>
    exact h.step_attending hP (fun _ => rfl) ((h.orderly j).stepSingle point hP) fun i hi =>
      attends_program_map _ fun _ => beq_eq_false_iff_ne.mpr (Ne.symm hi)
  | worker j point =>
    exact h.step_attending hP (fun _ => rfl) ((h.orderly j).stepWorker point hP) fun i hi =>
      attends_program_map _ fun _ => beq_eq_false_iff_ne.mpr (Ne.symm hi)
  | lifetime j milliseconds due =>
    refine h.step_apart hP rfl (fun _ => rfl) (.of_still (.stepLifetime s j milliseconds due)) (fun i => ?_)
      (absurd · Bool.false_ne_true)
    have outcome := s.stepLifetime_outcome j milliseconds due
    rw [System.step]
    generalize s.stepLifetime j milliseconds due = z at outcome ⊢
    cases outcome <;> rfl
  | timeout j elapsed ofSession point =>
    have htends := ((h.orderly j).stepTimeout r elapsed ofSession point).1
    exact h.step_apart hP rfl (fun _ => rfl)
      (.of_affects htends.toAffects fun _ ho => (ho.stepTimeout r elapsed ofSession point).2)
      (fun i => attends_program_map _ fun _ => rfl) (absurd · Bool.false_ne_true)
  | writer c =>
    exact h.step_apart hP rfl (fun _ => rfl) (.of_still (.stepWriter s c)) (fun i => attends_program_map _ fun _ => rfl)
      (absurd · Bool.false_ne_true)
  | connection n point =>
    exact h.step_apart hP rfl (fun _ => rfl) (Preserves.comprises.stepConnection s r n point)
      (fun i => attends_program_map _ fun _ => rfl) (absurd · Bool.false_ne_true)
  | delivery c d point =>
    exact h.step_apart hP rfl (fun _ => rfl) (.of_still (.stepDelivery s r c d point))
      (fun i => attends_program_map _ fun _ => rfl) (absurd · Bool.false_ne_true)
  | finished result =>
    have hself : s.Still (s.setProgram r (.finished result)) := ⟨rfl, rfl, rfl, processes_setProgram_self hP⟩
    exact ⟨(h.of_preserves (.of_still hself)).mono fun i p hp => (with_singleton.mp hp).resolve_right fun hstarts =>
      absurd hstarts.1 Bool.false_ne_true, .refl s⟩

end Ordered

end System

end GraphServer
