import GraphServer.Proofs.Session.Deed

/-!
All processes together, when one of them takes a step.

* `Affairs.gather`: what all programs have in their hands;
* `Affairs.Shift`: one process goes from one program to another, and handlers may be added;
* `Affairs.Effect.shift`: **every step is such a shift**.
-/

namespace GraphServer.Affairs

variable {i : SessionId} {c : ChannelId} {a a' b : Affairs} {p q : ProcessId} {program next : Program}

/-- The programs of all processes. -/
def programs (a : Affairs) : List Program :=
  a.processes.map (·.program)

/-- What all programs have in their hands. -/
def gather {α : Type} (f : Program → List α) (a : Affairs) : List α :=
  a.programs.flatMap f

/-- What all programs but that of one process have in their hands. -/
def others {α : Type} (f : Program → List α) (a : Affairs) (p : ProcessId) : List α :=
  (a.programs.eraseIdx p).flatMap f

lemma program?_eq (a : Affairs) (p : ProcessId) : a.program? p = a.programs[p]? :=
  List.getElem?_map.symm

lemma programs_congr (h : ∀ q, b.program? q = a.program? q) : b.programs = a.programs :=
  List.ext_getElem? fun q => by rw [← program?_eq, ← program?_eq, h]

lemma programs_setProgram (a : Affairs) (p : ProcessId) (program : Program) :
    (a.setProgram p program).programs = a.programs.set p program := by
  refine List.ext_getElem? fun q => ?_
  rw [← program?_eq]
  by_cases hq : q = p
  · subst hq
    rw [program?, setProgram, onProcess, List.getElem?_modify_eq, List.getElem?_set_self', programs, List.getElem?_map]
    cases a.processes[q]? <;> rfl
  · rw [program?_setProgram_ne hq, program?_eq, List.getElem?_set_ne (Ne.symm hq)]

/-- One process goes from a program to another, and handlers may be added. -/
structure Shift (p : ProcessId) (program next : Program) (a b : Affairs) : Prop where
  place : a.programs[p]? = some program
  programs : ∃ extra, b.programs = a.programs.set p next ++ extra ∧ ∀ y ∈ extra, ∃ k handler, y = .handler k (.ready handler)

namespace Shift

variable {α : Type} {f : Program → List α}

lemma gather_before (h : a.Shift p program next b) : (a.gather f).Perm (f program ++ a.others f p) := by
  obtain ⟨hp, rfl⟩ := List.getElem?_eq_some_iff.mp h.place
  exact ((List.getElem_cons_eraseIdx_perm hp).symm.flatMap_right f)

lemma gather_after (h : a.Shift p program next b) (hf : ∀ k handler, f (.handler k (.ready handler)) = []) :
    (b.gather f).Perm (f next ++ a.others f p) := by
  obtain ⟨hp, -⟩ := List.getElem?_eq_some_iff.mp h.place
  obtain ⟨extra, hprograms, hextra⟩ := h.programs
  have hnone : extra.flatMap f = [] := by
    refine List.flatMap_eq_nil_iff.mpr fun y hy => ?_
    obtain ⟨k, handler, rfl⟩ := hextra y hy
    exact hf k handler
  have hset : p < (a.programs.set p next).length := by rwa [List.length_set]
  have hperm := (List.getElem_cons_eraseIdx_perm hset).symm.flatMap_right f
  rw [List.getElem_set_self, List.eraseIdx_set_eq] at hperm
  rw [gather, hprograms, List.flatMap_append, hnone, List.append_nil]
  exact hperm

lemma after_self (h : a.Shift p program next b) : b.programs[p]? = some next := by
  obtain ⟨hp, -⟩ := List.getElem?_eq_some_iff.mp h.place
  obtain ⟨extra, hprograms, -⟩ := h.programs
  rw [hprograms, List.getElem?_append_left (by rwa [List.length_set]), List.getElem?_set_self hp]

lemma after_other (h : a.Shift p program next b) {other : Program} (hq : q ≠ p) (ho : a.programs[q]? = some other) :
    b.programs[q]? = some other := by
  obtain ⟨hlt, -⟩ := List.getElem?_eq_some_iff.mp ho
  obtain ⟨extra, hprograms, -⟩ := h.programs
  rw [hprograms, List.getElem?_append_left (by rwa [List.length_set]), List.getElem?_set_ne (Ne.symm hq), ho]

lemma before_cases (h : a.Shift p program next b) {other : Program} (ho : b.programs[q]? = some other) :
    q = p ∧ other = next ∨ q ≠ p ∧ a.programs[q]? = some other ∨ ∃ k handler, other = .handler k (.ready handler) := by
  obtain ⟨extra, hprograms, hextra⟩ := h.programs
  rw [hprograms] at ho
  rcases Nat.lt_or_ge q a.programs.length with hlt | hge
  · rw [List.getElem?_append_left (by rwa [List.length_set])] at ho
    by_cases hq : q = p
    · subst hq
      rw [List.getElem?_set_self hlt] at ho
      exact .inl ⟨rfl, (Option.some.inj ho).symm⟩
    · rw [List.getElem?_set_ne (Ne.symm hq)] at ho
      exact .inr (.inl ⟨hq, ho⟩)
  · rw [List.getElem?_append_right (by rwa [List.length_set])] at ho
    exact .inr (.inr (hextra _ (List.mem_of_getElem? ho)))

end Shift

/-! ### Every step -/

/-- The programs after a step, before its process has moved on. -/
def Crew (a a' : Affairs) : Prop :=
  ∃ extra, a'.programs = a.programs ++ extra ∧ ∀ y ∈ extra, ∃ k handler, y = Program.handler k (.ready handler)

lemma Crew.same (h : ∀ q, a'.program? q = a.program? q) : Crew a a' :=
  ⟨[], by rw [programs_congr h, List.append_nil], fun y hy => by cases hy⟩

lemma Crew.of_processes (h : a'.processes = a.processes) : Crew a a' :=
  .same (program?_congr h)

/-- All processes are where they were. -/
lemma Crew.place {other : Program} (h : Crew a a') (ho : a.program? q = some other) : a'.program? q = some other := by
  obtain ⟨extra, hprograms, -⟩ := h
  rw [program?_eq] at ho
  rw [program?_eq, hprograms, List.getElem?_append_left (List.getElem?_eq_some_iff.mp ho).1, ho]

lemma programs_launch (a : Affairs) (k : ContextId) (handler : Handler) :
    (a.launch k handler).programs = a.programs ++ [.handler k (.ready handler)] :=
  List.map_append

lemma RunStep.crew {point : RunPoint} {turn : Turn RunPoint} (step : a.RunStep c point a' turn) : Crew a a' := by
  have hlaunch (k : ContextId) (handler : Handler) :
      ∀ y ∈ [Program.handler k (.ready handler)], ∃ k handler, y = Program.handler k (.ready handler) := by
    intro y hy
    cases List.mem_singleton.mp hy
    exact ⟨k, _, rfl⟩
  cases step with
  | begins t handler deadline inTime => exact ⟨_, programs_launch a t.context handler, hlaunch _ _⟩
  | refuses t handler late answers =>
    refine ⟨_, ?_, hlaunch t.context handler⟩
    rw [← programs_launch]
    exact programs_congr fun q => (program?_congr answers.frame.2 q).trans (program?_stop ..)
  | stopped t deadline ended => exact .of_processes rfl
  | returned t deadline ended answers => exact .of_processes answers.frame.2
  | expires t h deadline budget interrupts => exact .same interrupts.frame.2
  | waits t h deadline => exact .of_processes rfl
  | mails h mails => exact .of_processes mails.frame.2.1

lemma HandlerStep.processes {k : ContextId} {point : HandlerPoint} {turn : Turn HandlerPoint}
    (step : a.HandlerStep c k point a' turn) : a'.processes = a.processes := by
  cases step with
  | streams data next request mails => exact mails.frame.2.1
  | answers terminal next known open_ mails => exact mails.frame.2.1
  | mails h next mails => exact mails.frame.2.1
  | _ => rfl

lemma HandlerStep.session {k : ContextId} {point : HandlerPoint} {turn : Turn HandlerPoint}
    (step : a.HandlerStep c k point a' turn) : a'.session = a.session := by
  cases step with
  | streams data next request mails => exact mails.frame.1
  | answers terminal next known open_ mails => exact mails.frame.1
  | mails h next mails => exact mails.frame.1
  | _ => rfl

lemma Effect.crew {turn : Turn Program} (effect : a.Effect c i program a' turn) : Crew a a' := by
  have hend (a : Affairs) : Crew a (a.onSession Session.finish).disarm :=
    .same fun q => Staffed.program?_disarm ..
  cases effect with
  | handler k step => exact .of_processes step.processes
  | single step =>
    cases step with
    | ends => exact hend a
    | runs step => exact step.crew
  | worker step =>
    cases step with
    | ends none closed => exact hend a
    | runs step => exact step.crew
    | _ => exact .of_processes rfl
  | timeout elapsed ofSession step =>
    cases step with
    | expires kind inTime interrupts => exact .same interrupts.frame.2
    | interrupts kind interrupts => exact .same interrupts.frame.2
    | answers t rest answers => exact .of_processes answers.frame.2
    | closes closes => exact .of_processes closes.frame.2.1
    | disarms => exact .same fun q => Staffed.program?_disarm ..
    | mails h next mails => exact .of_processes mails.frame.2.1
    | _ => exact .of_processes rfl
  | delivers d point mails => exact .of_processes mails.frame.2.1
  | _ => exact .of_processes rfl

/-- Only a handler goes on as a handler, and it leaves all processes alone. -/
lemma Effect.handles {turn : Turn Program} (effect : a.Effect c i program a' turn) {k : ContextId}
    {point : HandlerPoint} (handles : turn.program = .handler k point) :
    a'.processes = a.processes ∧ ∃ before, program = .handler k before := by
  cases effect with
  | handler j step =>
    rename_i before turn
    refine ⟨step.processes, before, ?_⟩
    cases turn <;> cases handles <;> rfl
  | single step =>
    rename_i turn
    cases turn <;> cases handles
  | worker step =>
    rename_i turn
    cases turn <;> cases handles
  | timeout elapsed ofSession step =>
    rename_i turn
    cases turn <;> cases handles
  | writes channel turn => cases turn <;> cases handles
  | delivers d point mails =>
    rename_i transit
    cases transit <;> cases handles
  | _ => cases handles

/-- Every step is a shift. -/
lemma Effect.shift {turn : Turn Program} (effect : a.Effect c i program a' turn) (place : a.program? p = some program) :
    a.Shift p program turn.program (a'.setProgram p turn.program) := by
  rw [program?_eq] at place
  obtain ⟨hp, -⟩ := List.getElem?_eq_some_iff.mp place
  obtain ⟨extra, hprograms, hextra⟩ := effect.crew
  refine ⟨place, extra, ?_, hextra⟩
  rw [programs_setProgram, hprograms, List.set_append_left _ _ hp]

/-- So is the end of a process that was stopped. -/
lemma Shift.stop (place : a.program? p = some program) (result : Option (Except Error Unit)) :
    a.Shift p program (.finished result) (a.setProgram p (.finished result)) := by
  rw [program?_eq] at place
  refine ⟨place, [], ?_, fun y hy => by cases hy⟩
  rw [programs_setProgram, List.append_nil]

end GraphServer.Affairs
