import GraphServer.Proofs.Server.Aftermath
import GraphServer.Proofs.Server.Dossier
import GraphServer.Proofs.Session.Sequence

/-!
How a server came to stand where it stands, step by step.

* `System.History`: a state of a server together with all steps that led to it, each entered with the process that took
  it; between two steps contexts, processes and what is in the queues are only added;
* `System.History.turn`: a turn of a process adds its steps, one after the other;
* `System.History.taken`, `System.History.context?`: each step was taken from a state to which the steps before it led,
  and a context stays what it is, but for its mark;
* `Annals.history_undergoAll`: **whatever happens to a server, the annals are such a history**.
-/

namespace GraphServer

namespace System

variable {s s' : System} {p : ProcessId} {P N : Program} {x : Step} {k : ContextId} {y : TaskContext}
  {steps before after : List (ProcessId × Step)}

/-- The states to which steps can lead, with these steps in order. -/
inductive History : System → List (ProcessId × Step) → Prop
  | starts (service : Service) : History { service } []
  /-- Contexts, processes and what is put into queues are added. -/
  | gains {s s' : System} {steps : List (ProcessId × Step)} (history : History s steps) (gains : s.Gains s') :
    History s' steps
  /-- A process takes a step, or is stopped. -/
  | takes {s s' : System} {p : ProcessId} {P : Program} {x : Step} {steps : List (ProcessId × Step)}
    (history : History s steps) (enters : Dossier.Enters s p P s' x)
    (taken : x.turn = none ∧ P.isFinished = false ∨ x.IsTaken p ∧ x.after = s') :
    History (s'.setProgram p x.next) (steps ++ [(p, x)])

/-- What a process does in a step adds to what is in the queues. -/
lemma Conduct.grows (conduct : s.Conduct P s' N) (c : ChannelId) : s.sentOver c <+: s'.sentOver c := by
  cases conduct with
  | calm calm => exact (Gains.of_calm calm).sent c
  | apart _ gains => exact gains.sent c
  | concludes _ _ calm _ _ _ _ _ fate => exact ((Gains.of_calm calm).sent c).trans (fate.gains.sent c)
  | retires _ _ calm _ _ _ same =>
    subst same
    exact (Gains.of_calm calm).sent c
  | streams _ _ _ _ _ _ _ fate => exact fate.gains.sent c
  | closes _ mute fate => exact ((Gains.of_mute mute).sent c).trans (fate.gains.sent c)
  | carries _ _ fate => exact fate.gains.sent c

/-- A context is what it was, but may have been marked as answered since. -/
def Addressed (s : System) (k : ContextId) (y : TaskContext) : Prop :=
  ∃ z, s.contexts[k]? = some z ∧ z.request = y.request ∧ z.channel = y.channel ∧ (y.finished = true → z.finished = true)

namespace Addressed

lemma of_contexts (h : s.Addressed k y) (same : s'.contexts = s.contexts) : s'.Addressed k y := by
  rwa [Addressed, same]

lemma of_adds (h : s.Addressed k y) (adds : s.Adds s') : s'.Addressed k y := by
  obtain ⟨z, hz, same⟩ := h
  exact ⟨z, adds.context? hz, same⟩

lemma of_marks (h : s.Addressed k y) (marks : Dossier.Marks s x) : x.after.Addressed k y := by
  obtain ⟨z, hz, request, channel, marked⟩ := h
  obtain ⟨z', hz', channel', request'⟩ := marks.context? hz
  refine ⟨z', hz', request'.trans request, channel'.trans channel, fun finished => ?_⟩
  have concluded := marks.isConcluded k
  rw [isConcluded, hz', isConcluded, hz, Option.any_some, Option.any_some, marked finished, Bool.true_or] at concluded
  exact concluded

end Addressed

namespace History

/-- Nobody waits with more than one thing. -/
lemma plain (history : History s steps) (hP : s.program? p = some P) : P.isPlain = true := by
  induction history generalizing p P with
  | starts => cases hP
  | gains _ gains ih => exact isPlain_of_adds gains.toAdds (fun _ => ih) hP
  | takes _ enters _ ih =>
    rw [enters.program?_after] at hP
    split at hP
    · cases hP
      exact enters.plain
    · obtain ⟨s₁, adds, processes⟩ := enters.exists_adds
      rw [program?, processes, ← program?] at hP
      exact isPlain_of_adds adds (fun _ => ih) hP

/-! ### Turns -/

/-- A process that is stopped puts nothing. -/
lemma cancel (history : History s steps) (hP : s.program? p = some P) (unfinished : P.isFinished = false) :
    History (s.cancel p P) (steps ++ [(p, ⟨s, P, s.cancel p P, none⟩)]) := by
  obtain ⟨s₁, mute, conduct, takes, cancels⟩ := Docket.Balanced.exists_cancel s p P
  have filed : (⟨s, P, s.cancel p P, none⟩ : Step).filed = [] := by
    cases apart : P.isApart with
    | true => exact if_pos apart
    | false => exact Step.filed_eq (m := none) (c := 0) apart fun c' => by simp [takes.sent, mute.sent]
  have entered : (⟨s, P, s.cancel p P, none⟩ : Step).concluded? = none := takes.concluded? (.of_quiet mute.toQuiet)
  have enters : Dossier.Enters s p P s₁ ⟨s, P, s.cancel p P, none⟩ :=
    { takes with
      known := hP
      conduct
      plain := rfl
      kin := fun _ => rfl
      kind := .inr rfl
      awake := fun puts => absurd filed puts
      marking := fun marks => by rw [entered] at marks; cases marks }
  have stopped := history.takes enters (.inl ⟨rfl, unfinished⟩)
  rw [cancels] at stopped ⊢
  exact stopped.gains (.of_calm (.finish s₁ p none))

/-- The steps of a turn. -/
lemma run (history : History s steps) (p : ProcessId) (n : Nat)
    (awake : ∀ P k, s.program? p = some P → P.handles? = some k → s.isActive p = true) :
    History (System.run p n s) (steps ++ (stepsOf p n s).map (p, ·)) := by
  induction n generalizing s steps with
  | zero =>
    rw [stepsOf, List.map_nil, List.append_nil]
    exact history.gains (.of_mute (.wake s p))
  | succ n ih =>
    rw [stepsOf, System.run]
    cases hP : s.program? p with
    | none => simpa using history
    | some P =>
      have behaves := s.behaves_step p (history.plain hP)
      have kin := s.isApart_step p (P := P)
      have kind := s.handles?_step p P
      have still (k : ContextId) := s.processes_step_of_handles? p (P := P) (k := k)
      dsimp only
      rcases hstep : s.step p P with ⟨s', turn⟩
      rw [hstep] at behaves kin kind still
      have enters : Dossier.Enters s p P s' ⟨s, P, s', some turn⟩ :=
        { before := rfl
          program := rfl
          contexts := rfl
          sent := fun _ => rfl
          known := hP
          conduct := behaves.conduct
          plain := behaves.plain
          kin
          kind
          awake := fun _ k => awake P k hP
          marking := fun _ => rfl }
      have taken := history.takes enters (.inr ⟨⟨hP, turn, rfl, hstep⟩, rfl⟩)
      cases turn with
      | go next =>
        rw [List.map_cons, List.append_cons]
        refine ih taken fun N k hN handles => ?_
        obtain rfl := Option.some.inj (hN.symm.trans enters.program?_self)
        have unfinished := (Program.attends_of_handles? handles).2
        have same : N.handles? = P.handles? :=
          kind.resolve_right (by rw [Turn.program, unfinished]; exact Bool.false_ne_true)
        rw [same] at handles
        exact isActive_setProgram_self ((isActive_eq (still k handles) p).trans (awake P k hP handles)) unfinished
      | wait next => exact taken.gains (.of_calm (.suspend s' p next))
      | done result => exact taken.gains (.of_calm (.finish s' p (some result)))

/-- A process has its turn. -/
lemma turn (history : History s steps) (p : ProcessId) (allowance n : Nat) :
    History (s.turn p allowance n).1 (steps ++ (s.turn p allowance n).2.map (p, ·)) := by
  have nothing : History s (steps ++ ([] : List Step).map (p, ·)) := by simpa using history
  rw [System.turn]
  split
  · exact nothing
  next y hy =>
    have hP : s.program? p = some y.program := by rw [program?, hy]; rfl
    split
    · exact nothing
    next unfinished =>
      have unfinished := Bool.eq_false_iff.mpr unfinished
      split
      · exact history.cancel hP unfinished
      next lives =>
        have same : s.Gains { s with allowance } := .of_calm (.of_same rfl rfl rfl)
        refine (history.gains same).run p n fun P k _ _ => ?_
        have active : s.isActive p = true := by
          rw [isActive, hy, Option.any_some, unfinished, Bool.eq_false_iff.mpr lives]
          rfl
        exact active

/-! ### What happens -/

/-- Whatever occurs adds its steps. -/
lemma occurs (history : History s steps) (o : Occurrence) :
    History (({ system := s } : Casebook).next o).system (steps ++ o.steps s) := by
  obtain ⟨p, allowance, more, rfl⟩ | ⟨gains, none_⟩ := Casebook.gains_next { system := s } o
  · have ready : s.Gains { s with ready := s.ready.erase p } := .of_calm (.of_same rfl rfl rfl)
    exact (history.gains ready).turn p allowance (more + 1)
  · rw [none_, List.append_nil]
    exact history.gains gains

/-! ### Looking back -/

/-- A step was taken from a state to which the steps before it led. -/
lemma taken (history : History s steps) (split : steps = before ++ (p, x) :: after) :
    ∃ s₁ P, History x.before before ∧ Dossier.Enters x.before p P s₁ x ∧
      (x.turn = none ∧ P.isFinished = false ∨ x.IsTaken p ∧ x.after = s₁) := by
  induction history generalizing after with
  | starts => exact absurd split.symm (List.append_ne_nil_of_right_ne_nil _ (List.cons_ne_nil _ _))
  | gains _ _ ih => exact ih split
  | takes history enters taken ih =>
    obtain ⟨-, rfl, hz⟩ | ⟨rest, -, hsteps⟩ := Chronicle.split_concat split
    · cases hz
      obtain rfl := enters.before
      exact ⟨_, _, history, enters, taken⟩
    · exact ih hsteps

/-- What a context is after a step it is since, but for its mark. -/
lemma context? (history : History s steps) (split : steps = before ++ (p, x) :: after)
    (known : x.after.contexts[k]? = some y) : s.Addressed k y ∧ ∀ e ∈ after, e.2.before.Addressed k y := by
  induction history generalizing after with
  | starts => exact absurd split.symm (List.append_ne_nil_of_right_ne_nil _ (List.cons_ne_nil _ _))
  | gains _ gains ih => exact (ih split).imp_left (·.of_adds gains.toAdds)
  | @takes s s' q P z steps history enters _ ih =>
    have same : (s'.setProgram q z.next).contexts = z.after.contexts := enters.contexts.symm
    obtain ⟨rfl, -, hz⟩ | ⟨rest, rfl, hsteps⟩ := Chronicle.split_concat split
    · cases hz
      exact ⟨⟨y, same ▸ known, rfl, rfl, id⟩, fun e he => absurd he List.not_mem_nil⟩
    · obtain ⟨before_, all⟩ := ih hsteps
      refine ⟨(before_.of_marks enters.marks).of_contexts same, fun e he => ?_⟩
      obtain he | he := List.mem_append.mp he
      · exact all e he
      · rw [List.mem_singleton.mp he, enters.before]
        exact before_

/-- What the steps put into the queue of a channel is in it, in that order. -/
lemma sublist_sentOver (history : History s steps) (c : ChannelId) :
    (steps.flatMap fun e => e.2.put c).Sublist (s.sentOver c) := by
  induction history with
  | starts => exact List.nil_sublist _
  | gains _ gains ih => exact ih.trans (gains.sent c).sublist
  | @takes s s' q P z steps history enters _ ih =>
    have same : (s'.setProgram q z.next).sentOver c = z.after.sentOver c := (enters.sent c).symm
    have grows : z.before.sentOver c <+: z.after.sentOver c := by
      rw [enters.before, enters.sent]
      exact enters.conduct.grows c
    obtain ⟨ms, hms⟩ := grows
    rw [List.flatMap_append, List.flatMap_singleton, same, ← hms, Docket.put_eq hms.symm, enters.before]
    exact ih.append (.refl _)

end History

end System

namespace Annals

open GraphServer.System

/-- **The annals of a server are its history.** -/
lemma history_undergoAll (service : Service) (episodes : List Episode) :
    History ((start service).undergoAll episodes).system ((start service).undergoAll episodes).steps := by
  suffices h : ∀ a : Annals, History a.system a.steps →
      History (a.undergoAll episodes).system (a.undergoAll episodes).steps from h _ (.starts service)
  intro a h
  induction episodes generalizing a with
  | nil => exact h
  | cons episode episodes ih =>
    refine ih _ ?_
    cases episode with
    | occurs o => exact h.occurs o
    | submitTask i t => exact h.gains (.of_calm (.submitTask _ i t))
    | kill i => exact h.gains (.of_calm (.kill _ i))

end Annals

end GraphServer
