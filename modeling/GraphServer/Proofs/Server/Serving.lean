import GraphServer.Proofs.Server.Ordered

/-!
Every step of every process keeps the server sound.

* `System.Managed`: the server is sound, and only handlers count as handlers of a session;
* `System.Managed.step`, `System.Managed.turn`: a step and a whole turn keep the server managed, where the handlers that
  they start are counted;
* `System.Endures.turn`: **what every step keeps, a whole turn keeps**, and each step finds a later state than the one
  before it left.
-/

namespace GraphServer

namespace System

variable {own own' : SessionId → ProcessId → Prop} {s s' : System} {i j : SessionId} {r : ProcessId} {P N : Program}

/-- The server is sound, and only handlers were started for sessions. -/
structure Managed (own : SessionId → ProcessId → Prop) (s : System) : Prop extends Sound own s where
  staffed : ∀ i p, own i p → (s.program? p).any Program.isHandler = true

namespace Sound

lemma still (h : Sound own s) (still : s.Still s') : Sound own s' ∧ s.Onward s' :=
  ⟨h.of_still still, .of_still still⟩

/-- The server stays sound whatever the manager does. -/
lemma comprises (own : SessionId → ProcessId → Prop) : Comprises fun s s' => Sound own s → Sound own s' ∧ s.Onward s' where
  still hstill h := h.still hstill
  trans hfirst hthen h := (hthen (hfirst h).1).imp_right (hfirst h).2.trans
  spawn s _ idle h := ⟨h.spawn idle, (Tends.spawn s idle 0).onward⟩
  submit _ c i r h := h.submit c i r
  getOrCreate _ name c h := h.getOrCreate name c
  single _ c h := h.single c
  closeMulti _ i h := h.closeMulti i
  closeSession _ name h := h.closeSession name
  closeBoundTo _ c h := h.closeBoundTo c
  sessionCount _ h := h.sessionCount
  runningSingles _ h := h.runningSingles

end Sound

namespace Managed

lemma mono (h : Managed own s) (fewer : ∀ i p, own' i p → own i p) : Managed own' s where
  toSound := ⟨fun i => (h.orderly i).mono (fewer i), h.listed⟩
  staffed i p hp := h.staffed i p (fewer i p hp)

lemma of_onward (h : Managed own s) (kept : Sound own s' ∧ s.Onward s') : Managed own s' where
  toSound := kept.1
  staffed i p hp := by
    obtain ⟨program, hprogram, hhandler⟩ := (Option.any_eq_true _ _).mp (h.staffed i p hp)
    rw [kept.2.program? hprogram]
    exact hhandler

lemma of_still (h : Managed own s) (still : s.Still s') : Managed own s' :=
  h.of_onward (h.toSound.still still)

lemma ordered (h : Managed own s) : Ordered own s := ⟨h.orderly, h.staffed⟩

/-- Every step of every process keeps the server managed. -/
lemma step (h : Managed own s) (hP : s.program? r = some P) :
    Managed (With own [⟨s, P, (s.step r P).1, some (s.step r P).2⟩])
      ((s.step r P).1.setProgram r (s.step r P).2.program) ∧ s.Onward (s.step r P).1 := by
  obtain ⟨hordered, honward⟩ := h.ordered.step hP
  have hstill {s' : System} (still : s.Still s') : s'.Listed := (h.toSound.of_still still).listed
  have hlisted : (s.step r P).1.Listed := by
    cases P with
    | handler k point => exact hstill (.stepHandler s r k point)
    | single j point => exact h.listed.of_affects ((h.orderly j).stepSingle point hP).1.toAffects
    | worker j point => exact h.listed.of_affects ((h.orderly j).stepWorker point hP).1.toAffects
    | lifetime j milliseconds due => exact hstill (.stepLifetime s j milliseconds due)
    | timeout j elapsed ofSession point =>
      exact h.listed.of_affects ((h.orderly j).stepTimeout r elapsed ofSession point).1.toAffects
    | writer c => exact hstill (.stepWriter s c)
    | connection n point => exact ((Sound.comprises own).stepConnection s r n point h.toSound).1.listed
    | delivery c d point => exact hstill (.stepDelivery s r c d point)
    | finished result => exact h.listed
  exact ⟨⟨⟨hordered.orderly, hlisted.of_same rfl rfl rfl⟩, hordered.staffed⟩, honward⟩

end Managed

/-! ### Turns -/

/-- A later state of a server: the sessions went on, and no process went away. -/
structure Later (s s' : System) : Prop where
  service : s'.service = s.service
  follows : ∀ (i : SessionId) (x : Session), s.sessions[i]? = some x → ∃ x', s'.sessions[i]? = some x' ∧ x.Follows x'
  grows : s.processes.length ≤ s'.processes.length

namespace Later

variable {s'' : System}

lemma refl (s : System) : s.Later s :=
  ⟨rfl, fun _ x hx => ⟨x, hx, .refl x⟩, le_rfl⟩

lemma trans (h : s.Later s') (h' : s'.Later s'') : s.Later s'' where
  service := h'.service.trans h.service
  follows i x hx := by
    obtain ⟨x', hx', hfollows⟩ := h.follows i x hx
    obtain ⟨x'', hx'', hfollows'⟩ := h'.follows i x' hx'
    exact ⟨x'', hx'', hfollows.trans hfollows'⟩
  grows := h.grows.trans h'.grows

lemma of_onward (h : s.Onward s') : s.Later s' :=
  ⟨h.service, h.follows, h.grows⟩

lemma setProgram (s : System) (r : ProcessId) (N : Program) : s.Later (s.setProgram r N) :=
  ⟨rfl, fun _ x hx => ⟨x, hx, .refl x⟩, (length_setProgram s r N).ge⟩

end Later

/-- How a process runs, and the steps that it takes. -/
inductive Runs (p : ProcessId) : System → System → List Step → Prop where
  /-- It has to wait for its next turn. -/
  | pauses (s : System) : Runs p s (s.wake p) []
  | vanished (s : System) (none_ : s.program? p = none) : Runs p s s []
  | goes {s s' s'' : System} {program next : Program} {taken : List Step} (at_ : s.program? p = some program)
      (step : s.step p program = (s', .go next)) (rest : Runs p (s'.setProgram p next) s'' taken) :
      Runs p s s'' (⟨s, program, s', some (.go next)⟩ :: taken)
  | waits {s s' : System} {program next : Program} (at_ : s.program? p = some program)
      (step : s.step p program = (s', .wait next)) :
      Runs p s (s'.suspend p next) [⟨s, program, s', some (.wait next)⟩]
  | ends {s s' : System} {program : Program} {result : Except Error Unit} (at_ : s.program? p = some program)
      (step : s.step p program = (s', .done result)) :
      Runs p s (s'.finish p (some result)) [⟨s, program, s', some (.done result)⟩]

lemma runs (p : ProcessId) (n : Nat) (s : System) : Runs p s (run p n s) (stepsOf p n s) := by
  induction n generalizing s with
  | zero => exact .pauses s
  | succ n ih =>
    rw [run, stepsOf]
    cases hprogram : s.program? p with
    | none => exact .vanished s hprogram
    | some program =>
      dsimp only
      rcases hstep : s.step p program with ⟨s', next | next | result⟩
      · exact .goes hprogram hstep (ih _)
      · exact .waits hprogram hstep
      · exact .ends hprogram hstep

/-- Each step that a process takes is one from the state that it finds. -/
lemma Runs.after_eq {p : ProcessId} {taken : List Step} (runs : Runs p s s' taken) :
    ∀ x ∈ taken, (x.before.step p x.program).1 = x.after := by
  induction runs with
  | pauses s | vanished s => exact fun _ hx => absurd hx List.not_mem_nil
  | goes _ hstep _ ih => exact List.forall_mem_cons.mpr ⟨congrArg Prod.fst hstep, ih⟩
  | waits _ hstep | ends _ hstep => exact List.forall_mem_singleton.mpr (congrArg Prod.fst hstep)

/-- Ending a process is moving it to its end. -/
lemma still_finish (s : System) (p : ProcessId) (result : Option (Except Error Unit)) :
    (s.setProgram p (.finished result)).Still (s.finish p result) := by
  have hforget : (s.setProgram p (.finished result)).Still
      ((s.onProcess p fun x => { x with program := .finished result }).forget p) := ⟨rfl, rfl, rfl, rfl⟩
  exact hforget.trans (Quiet.wakeAll _ _).toStill

lemma still_suspend (s : System) (p : ProcessId) (program : Program) :
    (s.setProgram p program).Still (s.suspend p program) := by
  rw [suspend]
  split
  · exact ⟨rfl, rfl, rfl, rfl⟩
  · exact (Quiet.setAlarms _ p _).toStill

/-! ### What every step keeps -/

/-- Steps that lead from a state of a server to a later one, in order. -/
structure Sequel (s s' : System) (taken : List Step) : Prop where
  later : s.Later s'
  before : ∀ x ∈ taken, s.Later x.before
  after : ∀ x ∈ taken, x.after.Later s'
  ordered : taken.Pairwise fun x y => x.after.Later y.before

namespace Sequel

variable {s'' : System} {xs ys : List Step}

lemma nil (h : s.Later s') : Sequel s s' [] :=
  ⟨h, fun _ hx => absurd hx List.not_mem_nil, fun _ hx => absurd hx List.not_mem_nil, .nil⟩

lemma singleton {x : Step} (h : s.Later s') (before : s.Later x.before) (after : x.after.Later s') : Sequel s s' [x] :=
  ⟨h, List.forall_mem_singleton.mpr before, List.forall_mem_singleton.mpr after, List.pairwise_singleton _ _⟩

lemma append (h : Sequel s s' xs) (h' : Sequel s' s'' ys) : Sequel s s'' (xs ++ ys) where
  later := h.later.trans h'.later
  before x hx := (List.mem_append.mp hx).elim (h.before x) fun hy => h.later.trans (h'.before x hy)
  after x hx := (List.mem_append.mp hx).elim (fun hx => (h.after x hx).trans h'.later) (h'.after x)
  ordered := List.pairwise_append.mpr
    ⟨h.ordered, h'.ordered, fun x hx y hy => (h.after x hx).trans (h'.before y hy)⟩

end Sequel

/-- What is said of a server and the handlers of its sessions endures: it does not depend on anything but processes,
sessions and the table, every step of every process keeps it, and while it holds no handler can take steps whose session
is over. -/
structure Endures (I : (SessionId → ProcessId → Prop) → System → Prop) : Prop where
  mono : ∀ {own own' : SessionId → ProcessId → Prop} {s : System}, I own s → (∀ i p, own' i p → own i p) → I own' s
  still : ∀ {own : SessionId → ProcessId → Prop} {s s' : System}, I own s → s.Still s' → I own s'
  ended : ∀ {own : SessionId → ProcessId → Prop} {s : System} (p : ProcessId) (result : Option (Except Error Unit)),
    I own s → I own (s.setProgram p (.finished result))
  step : ∀ {own : SessionId → ProcessId → Prop} {s : System} {r : ProcessId} {P : Program}, I own s →
    s.program? r = some P → I (With own [⟨s, P, (s.step r P).1, some (s.step r P).2⟩])
      ((s.step r P).1.setProgram r (s.step r P).2.program) ∧ s.Onward (s.step r P).1
  staffed : ∀ {own : SessionId → ProcessId → Prop} {s : System}, I own s → ∀ i p, own i p →
    (s.program? p).any Program.isHandler = true
  lives : ∀ {own : SessionId → ProcessId → Prop} {s : System}, I own s → ∀ i p, own i p → s.isActive p = true →
    ∀ x, s.sessions[i]? = some x → x.isOver = false

namespace Endures

variable {I : (SessionId → ProcessId → Prop) → System → Prop}

/-- A process is stopped. -/
lemma cancel (e : Endures I) (h : I own s) (p : ProcessId) (program : Program) :
    I own (s.cancel p program) ∧ s.Later (s.cancel p program) ∧
      (s.cancel p program).processes.length = s.processes.length := by
  rw [System.cancel]
  have hend (s' : System) (hstill : s.Still s') : I own (s'.finish p none) ∧ s.Later (s'.finish p none) ∧
      (s'.finish p none).processes.length = s.processes.length := by
    have hend := still_finish s' p none
    refine ⟨e.still (e.ended p none (e.still h hstill)) hend,
      ((Later.of_onward (.of_still hstill)).trans (.setProgram s' p _)).trans (.of_onward (.of_still hend)), ?_⟩
    rw [hend.processes, length_setProgram, hstill.processes]
  split
  next hand _ => exact hend _ (Quiet.giveUp s p hand).toStill
  next => exact hend s (.refl s)

/-- A process runs: each of its steps finds a later state, and leaves sessions as in a state for which it holds. -/
lemma runs (e : Endures I) (h : I own s) {p : ProcessId} {taken : List Step} (runs : Runs p s s' taken) :
    I (With own taken) s' ∧ Sequel s s' taken ∧
      ∀ x ∈ taken, ∃ own' s'', I own' s'' ∧ s''.sessions = x.after.sessions := by
  induction runs generalizing own with
  | pauses s =>
    have hwake := (Quiet.wake s p).toStill
    exact ⟨e.still (e.mono h fun _ _ => with_nil.mp) hwake, .nil (.of_onward (.of_still hwake)),
      fun _ hx => absurd hx List.not_mem_nil⟩
  | vanished s =>
    exact ⟨e.mono h fun _ _ => with_nil.mp, .nil (.refl s), fun _ hx => absurd hx List.not_mem_nil⟩
  | @goes s s' s'' program next taken hprogram hstep _ ih =>
    obtain ⟨hkept, honward⟩ := e.step h hprogram
    rw [hstep] at hkept honward
    have hmoved := Later.setProgram s' p next
    obtain ⟨hrest, hsequel, hpassed⟩ := ih hkept
    exact ⟨e.mono hrest fun _ _ => (with_append [_] taken).mp,
      (Sequel.singleton ((Later.of_onward honward).trans hmoved) (.refl s) hmoved).append hsequel,
      List.forall_mem_cons.mpr ⟨⟨_, _, hkept, rfl⟩, hpassed⟩⟩
  | @waits s s' program next hprogram hstep =>
    obtain ⟨hkept, honward⟩ := e.step h hprogram
    rw [hstep] at hkept honward
    have hsuspend := still_suspend s' p next
    have hmoved := (Later.setProgram s' p next).trans (.of_onward (.of_still hsuspend))
    exact ⟨e.still hkept hsuspend, .singleton ((Later.of_onward honward).trans hmoved) (.refl s) hmoved,
      List.forall_mem_singleton.mpr ⟨_, _, hkept, rfl⟩⟩
  | @ends s s' program result hprogram hstep =>
    obtain ⟨hkept, honward⟩ := e.step h hprogram
    rw [hstep] at hkept honward
    have hend := still_finish s' p (some result)
    have hmoved := (Later.setProgram s' p _).trans (.of_onward (.of_still hend))
    exact ⟨e.still hkept hend, .singleton ((Later.of_onward honward).trans hmoved) (.refl s) hmoved,
      List.forall_mem_singleton.mpr ⟨_, _, hkept, rfl⟩⟩

end Endures

/-- The steps of a handler find all sessions as they were. -/
lemma sessions_of_runs {p : ProcessId} {taken : List Step} (runs : Runs p s s' taken)
    (handles : (s.program? p).any Program.isHandler = true) : ∀ x ∈ taken, x.before.sessions = s.sessions := by
  induction runs with
  | pauses s => exact fun _ hmem => absurd hmem List.not_mem_nil
  | vanished s => exact fun _ hmem => absurd hmem List.not_mem_nil
  | @goes s s' s'' program next taken hprogram hstep _ ih =>
    rw [hprogram] at handles
    obtain ⟨hstill, hhandles⟩ := step_of_isHandler s p handles
    rw [hstep] at hstill hhandles
    have hnext : ((s'.setProgram p next).program? p).any Program.isHandler = true := by
      rw [program?_setProgram, if_pos rfl, hstill.program?, hprogram]
      exact hhandles
    exact List.forall_mem_cons.mpr ⟨rfl, fun x hx => (ih hnext x hx).trans hstill.sessions⟩
  | waits => exact List.forall_mem_singleton.mpr rfl
  | ends => exact List.forall_mem_singleton.mpr rfl

lemma lt_of_isActive {p : ProcessId} (h : s.isActive p = true) : p < s.processes.length := by
  obtain ⟨x, hx, -⟩ := (Option.any_eq_true _ _).mp h
  exact (List.getElem?_eq_some_iff.mp hx).1

/-- What a turn of a process is: none, its end if it was stopped, or a run. -/
lemma turn_cases (s : System) (p : ProcessId) (allowance n : Nat) :
    s.turn p allowance n = (s, []) ∨
      (∃ program, s.turn p allowance n = (s.cancel p program, [⟨s, program, s.cancel p program, none⟩]) ∧
        s.program? p = some program) ∨
      s.isActive p = true ∧ Runs p { s with allowance } (s.turn p allowance n).1 (s.turn p allowance n).2 := by
  rw [turn]
  split
  · exact .inl rfl
  next x hx =>
    split
    · exact .inl rfl
    next hgoes =>
      split
      · exact .inr (.inl ⟨x.program, rfl, by rw [program?, hx]; rfl⟩)
      next hlives =>
        refine .inr (.inr ⟨?_, runs p n _⟩)
        rw [isActive, hx, Option.any_some, Bool.eq_false_iff.mpr hgoes, Bool.eq_false_iff.mpr hlives]
        rfl

/-- What a process does in its turn, for what endures: the steps follow each other, those of a handler find that its
session is not over, and each leaves sessions as in a state for which it holds. -/
structure Endures.Turns (I : (SessionId → ProcessId → Prop) → System → Prop) (own : SessionId → ProcessId → Prop)
    (s : System) (p : ProcessId) (s' : System) (taken : List Step) : Prop where
  kept : I (With own taken) s'
  sequel : Sequel s s' taken
  known : ∀ x ∈ taken, p < s.processes.length
  told : ∀ x ∈ taken, x.turn.isSome = true → ∀ i, own i p → ∀ y, x.before.sessions[i]? = some y → y.isOver = false
  passed : ∀ x ∈ taken, ∃ own' s'', I own' s'' ∧ s''.sessions = x.after.sessions
  stepped : ∀ x ∈ taken, x.turn.isSome = true → (x.before.step p x.program).1 = x.after

/-- A turn of a process. -/
lemma Endures.turn {I : (SessionId → ProcessId → Prop) → System → Prop} (e : Endures I) (h : I own s) (p : ProcessId)
    (allowance n : Nat) : Turns I own s p (s.turn p allowance n).1 (s.turn p allowance n).2 := by
  rcases s.turn_cases p allowance n with hnone | ⟨program, hstopped, hprogram⟩ | ⟨hactive, hruns⟩
  · rw [hnone]
    exact
      { kept := e.mono h fun _ _ => with_nil.mp
        sequel := .nil (.refl s)
        known := fun _ hx => absurd hx List.not_mem_nil
        told := fun _ hx => absurd hx List.not_mem_nil
        passed := fun _ hx => absurd hx List.not_mem_nil
        stepped := fun _ hx => absurd hx List.not_mem_nil }
  · rw [hstopped]
    obtain ⟨hkept, hlater, hlength⟩ := e.cancel h p program
    refine
      { kept := e.mono hkept fun i q hq => (with_singleton.mp hq).resolve_right fun hstarts => ?_
        sequel := .singleton hlater (.refl s) (.refl _)
        known := fun _ _ => lt_of_program? hprogram
        told := List.forall_mem_singleton.mpr nofun
        passed := List.forall_mem_singleton.mpr ⟨_, _, hkept, rfl⟩
        stepped := List.forall_mem_singleton.mpr nofun }
    obtain ⟨hle, hlt⟩ := (new_of_starts hstarts).1
    exact absurd (hlt.trans_eq hlength) (Nat.not_lt.mpr hle)
  · have hstill : s.Still { s with allowance } := ⟨rfl, rfl, rfl, rfl⟩
    obtain ⟨hkept, hsequel, hpassed⟩ := e.runs (e.still h hstill) hruns
    exact
      { kept := hkept
        sequel := (Sequel.nil (.of_onward (.of_still hstill))).append hsequel
        known := fun _ _ => lt_of_isActive hactive
        told := fun x hx _ i hi y hy => by
          rw [sessions_of_runs hruns (e.staffed h i p hi) x hx] at hy
          exact e.lives h i p hi hactive y hy
        passed := hpassed
        stepped := fun x hx _ => hruns.after_eq x hx }

lemma Ordered.endures : Endures Ordered where
  mono h := h.mono
  still h hstill := h.of_preserves (.of_still hstill)
  ended p result h := h.setProgram_finished p result
  step h := h.step
  staffed h := h.staffed
  lives h _ _ hp hactive _ hx := h.lives hp hactive hx

namespace Managed

lemma endures : Endures Managed where
  mono h := h.mono
  still h := h.of_still
  ended p result h :=
    have hordered := h.ordered.setProgram_finished p result
    ⟨⟨hordered.orderly, h.listed.of_same rfl rfl rfl⟩, hordered.staffed⟩
  step h := h.step
  staffed h := h.staffed
  lives h _ _ hp hactive _ hx := h.ordered.lives hp hactive hx

/-- A turn of a process keeps the server managed, and no handler takes a step in it whose session is over. -/
lemma turn (h : Managed own s) (p : ProcessId) (allowance n : Nat) :
    Managed (With own (s.turn p allowance n).2) (s.turn p allowance n).1 ∧ s.Later (s.turn p allowance n).1 ∧
      (∀ x ∈ (s.turn p allowance n).2, s.Later x.before) ∧
      (∀ x ∈ (s.turn p allowance n).2, p < s.processes.length) ∧
      ∀ x ∈ (s.turn p allowance n).2, x.turn.isSome = true → ∀ i, own i p →
        ∀ y, x.before.sessions[i]? = some y → y.isOver = false := by
  have hturn := endures.turn h p allowance n
  exact ⟨hturn.kept, hturn.sequel.later, hturn.sequel.before, hturn.known, hturn.told⟩

end Managed

end System

end GraphServer
