import GraphServer.Proofs.Server.Casebook

/-!
What happens in a session after its end.

A session ends when it is killed, alone or with all sessions of its channel, and when its time is up. Afterwards no task
is accepted, and neither the handler that was in flight nor one that the worker starts later, for a task that was
accepted before, ever takes a step.

* `Episode`: what can happen to a server whose sessions may also be opened past the manager, be submitted to and be
  killed one by one;
* `Annals.Truthful`: all sessions are in order, and what is written of the past agrees with it;
* `Annals.undergo_rests`: **nothing runs in a session after its end**, whatever happens and in whatever order the
  processes take their steps.
-/

namespace GraphServer

/-- What can happen to a server, with sessions that are also dealt with one by one. -/
inductive Episode where
  /-- What occurs on any server. -/
  | occurs (o : Occurrence)
  /-- A task is submitted to a session. -/
  | submitTask (i : SessionId) (t : Task)
  /-- A session is killed. -/
  | kill (i : SessionId)

namespace System

variable {s s' : System} {i : SessionId}

/-- A session was killed, or its time was up. -/
def Ended (s : System) (i : SessionId) : Prop :=
  ∃ x, s.sessions[i]? = some x ∧ (x.killed = true ∨ x.timedOut.isSome = true)

/-- A session was killed, or its time was up, and it accepts nothing. -/
def Shut (s : System) (i : SessionId) : Prop :=
  ∃ x, s.sessions[i]? = some x ∧ x.isOver = true ∧ x.accepting = false

/-- Nothing comes of a session: it accepts no task, no step found that it did, and none was taken by its handlers. -/
structure Rests (i : SessionId) (handles : ProcessId → Prop) (steps : List (ProcessId × Step)) (s : System) : Prop where
  refuses : ∀ t, s.submitTask i t = (s, .ok false)
  found : ∀ e ∈ steps, ∀ t, e.2.before.submitTask i t = (e.2.before, .ok false)
  silent : ∀ e ∈ steps, e.2.turn.isSome = true → ¬ handles e.1

/-! ### How sessions end -/

lemma kill_ended (h : i < s.sessions.length) : (s.kill i).Ended i :=
  ⟨_, kill_self (List.getElem?_eq_getElem h), .inl rfl⟩

/-- The time of a session is up. -/
lemma stepTimeout_ended (h : i < s.sessions.length) (p : ProcessId) (elapsed : Nat) :
    (s.stepTimeout p i elapsed true .start).1.Ended i := by
  have outcome := s.stepTimeout_outcome p i elapsed true .start
  generalize s.stepTimeout p i elapsed true .start = z at outcome ⊢
  cases outcome with
  | strays _ unknown => cases unknown.symm.trans (List.getElem?_eq_getElem h)
  | late known late => exact ⟨_, known, .inr (late ▸ rfl)⟩
  | @expires x known =>
    have hset : (s.onSession i fun _ => { x with timedOut := some elapsed, accepting := false }).sessions[i]? =
        some { x with timedOut := some elapsed, accepting := false } := by
      rw [onSession, List.getElem?_modify_eq, known]
      rfl
    obtain ⟨y, hy, hfollows⟩ := (Tends.interrupt (s.onSession i _) p i elapsed true).onward.follows i _ hset
    rw [answerThen, Transit.turn_fst]
    exact ⟨y, hy, .inr (hfollows.timedOut rfl)⟩

/-! ### What the end of a session brings -/

lemma Ended.shut (h : s.Ended i) {own : SessionId → ProcessId → Prop} (ordered : Ordered own s) : s.Shut i := by
  obtain ⟨x, hx, hended⟩ := h
  have hover : x.isOver = true := by
    rw [Session.isOver, Bool.or_eq_true, Bool.or_eq_true]
    exact .inl hended
  exact ⟨x, hx, hover, ((ordered.orderly i).ended x hx hover).1⟩

lemma Shut.later (h : s.Shut i) (later : s.Later s') : s'.Shut i := by
  obtain ⟨x, hx, hover, hshut⟩ := h
  obtain ⟨x', hx', hfollows⟩ := later.follows i x hx
  exact ⟨x', hx', hfollows.isOver hover, Bool.eq_false_iff.mpr fun ha =>
    Bool.false_ne_true (hshut.symm.trans (hfollows.accepting ha))⟩

lemma Shut.refuses (h : s.Shut i) (t : Task) : s.submitTask i t = (s, .ok false) := by
  obtain ⟨x, hx, -, hshut⟩ := h
  rw [submitTask, hx]
  simp only [hshut, Bool.false_eq_true, ↓reduceIte]

end System

namespace Annals

open GraphServer.System

variable {a : Annals} {s' : System} {i : SessionId}

/-! ### The history -/

/-- The annals after an episode. -/
def undergo (a : Annals) : Episode → Annals
  | .occurs o => ⟨(({ system := a.system } : Casebook).next o).system, a.steps ++ o.steps a.system⟩
  | .submitTask i t => { a with system := (a.system.submitTask i t).1 }
  | .kill i => { a with system := a.system.kill i }

/-- The annals after all episodes. -/
def undergoAll (a : Annals) (episodes : List Episode) : Annals :=
  episodes.foldl undergo a

/-- All sessions are in order. All that took steps are known, each step is one from the state that it found and left the
sessions in order, and no handler of a session that was over took one. -/
structure Truthful (a : Annals) : Prop where
  ordered : Ordered a.Handles a.system
  known : ∀ e ∈ a.steps, e.1 < a.system.processes.length
  told : ∀ e ∈ a.steps, e.2.turn.isSome = true → ∀ i, a.Handles i e.1 →
    ∀ x, e.2.before.sessions[i]? = some x → x.isOver = false
  passed : ∀ e ∈ a.steps, ∃ own s, Ordered own s ∧ s.sessions = e.2.after.sessions
  stepped : ∀ e ∈ a.steps, e.2.turn.isSome = true → (e.2.before.step e.1 e.2.program).1 = e.2.after

lemma truthful_start (service : Service) : (start service).Truthful where
  ordered := (faithful_start service).managed.ordered
  known _ he := absurd he List.not_mem_nil
  told _ he := absurd he List.not_mem_nil
  passed _ he := absurd he List.not_mem_nil
  stepped _ he := absurd he List.not_mem_nil

/-- An episode is a turn of a process, or takes no steps and disturbs no session. -/
lemma undergo_cases (a : Annals) (episode : Episode) :
    (∃ p allowance more, episode = .occurs (.ordinary (.turn p allowance more))) ∨
      a.system.Preserves (a.undergo episode).system ∧ (a.undergo episode).steps = a.steps := by
  cases episode with
  | submitTask i t => exact .inr ⟨.submitTask _ i t, rfl⟩
  | kill i => exact .inr ⟨.kill _ i, rfl⟩
  | occurs o =>
    have hsteps : o.steps a.system = [] → (a.undergo (.occurs o)).steps = a.steps := fun h => by
      rw [undergo, h, List.append_nil]
    cases o with
    | ordinary happening =>
      obtain ⟨p, allowance, more, rfl⟩ | ⟨kept, none_⟩ := Preserves.comprises.next { system := a.system } happening
      · exact .inl ⟨p, allowance, more, rfl⟩
      · exact .inr ⟨kept, hsteps none_⟩
    | openSession name c limit =>
      cases limit with
      | none => exact .inr ⟨.openSingle _ name c, hsteps rfl⟩
      | some limit => exact .inr ⟨.openMulti _ name c limit, hsteps rfl⟩
    | fillHook i hook => exact .inr ⟨.fillHook _ i hook, hsteps rfl⟩
    | trySend c f => exact .inr ⟨.trySend _ c f, hsteps rfl⟩
    | openContext request channel => exact .inr ⟨.addContext _ _, hsteps rfl⟩
    | engage k h => exact .inr ⟨.spawn _ fun _ => rfl, hsteps rfl⟩
    | abort p => exact .inr ⟨.abortAll _ [p], hsteps rfl⟩

/-- The steps that a process took. -/
lemma steps_map (p : ProcessId) (taken : List Step) : (taken.map (p, ·)).map (·.2) = taken := by
  rw [List.map_map]
  exact List.map_id taken

namespace Truthful

lemma of_preserves (h : a.Truthful) (kept : a.system.Preserves s') : ({ a with system := s' } : Annals).Truthful where
  ordered := h.ordered.of_preserves kept
  known e he := (h.known e he).trans_le kept.onward.grows
  told := h.told
  passed := h.passed
  stepped := h.stepped

/-- A process has its turn. -/
lemma of_turns (h : a.Truthful) {p : ProcessId} {taken : List Step}
    (turns : Endures.Turns Ordered a.Handles a.system p s' taken) :
    (⟨s', a.steps ++ taken.map (p, ·)⟩ : Annals).Truthful := by
  have htold := told_append h.known h.told turns.sequel.later turns.sequel.before turns.known turns.told
  refine ⟨turns.kept.mono fun _ _ => (a.handles_append s' p taken).mp, htold.1, htold.2, fun e he => ?_,
    fun e he hturn => ?_⟩
  all_goals rcases List.mem_append.mp he with hpast | hnow
  · exact h.passed e hpast
  · obtain ⟨x, hx, rfl⟩ := List.mem_map.mp hnow
    exact turns.passed x hx
  · exact h.stepped e hpast hturn
  · obtain ⟨x, hx, rfl⟩ := List.mem_map.mp hnow
    exact turns.stepped x hx hturn

/-- Whatever happens, the annals stay truthful, and the steps that are taken follow each other. -/
lemma undergo (h : a.Truthful) (episode : Episode) :
    (a.undergo episode).Truthful ∧ ∃ taken, (a.undergo episode).steps = a.steps ++ taken ∧
      Sequel a.system (a.undergo episode).system (taken.map (·.2)) := by
  obtain ⟨p, allowance, more, rfl⟩ | ⟨kept, steps⟩ := a.undergo_cases episode
  · have hready : a.system.Still { a.system with ready := a.system.ready.erase p } := ⟨rfl, rfl, rfl, rfl⟩
    have hspared := h.of_preserves (.of_still hready)
    have hturns := Ordered.endures.turn hspared.ordered p allowance (more + 1)
    refine ⟨hspared.of_turns hturns, _, rfl, ?_⟩
    have hsequel := (Sequel.nil (.of_onward (.of_still hready))).append hturns.sequel
    exact (steps_map p _).symm ▸ hsequel
  · have hnext : a.undergo episode = { a with system := (a.undergo episode).system } := congrArg (Annals.mk _) steps
    refine ⟨hnext ▸ h.of_preserves kept, [], ?_, .nil (.of_onward kept.onward)⟩
    rw [steps, List.append_nil]

lemma undergoAll (h : a.Truthful) (episodes : List Episode) :
    (a.undergoAll episodes).Truthful ∧ ∃ taken, (a.undergoAll episodes).steps = a.steps ++ taken ∧
      Sequel a.system (a.undergoAll episodes).system (taken.map (·.2)) := by
  induction episodes generalizing a with
  | nil => exact ⟨h, [], (List.append_nil _).symm, .nil (.refl _)⟩
  | cons episode episodes ih =>
    obtain ⟨hnext, taken, htaken, hsequel⟩ := h.undergo episode
    obtain ⟨hall, taken', htaken', hsequel'⟩ := ih hnext
    refine ⟨hall, taken ++ taken', ?_, ?_⟩
    · exact (htaken'.trans (by rw [htaken, List.append_assoc]) :)
    · rw [List.map_append]
      exact hsequel.append hsequel'

/-- Once a session is shut, nothing comes of it. -/
lemma rests (h : a.Truthful) {s : System} (shut : s.Shut i) {steps : List (ProcessId × Step)} (now : s.Later a.system)
    (later : ∀ e ∈ steps, s.Later e.2.before) (taken : steps ⊆ a.steps) : Rests i (a.Handles i) steps a.system where
  refuses := (shut.later now).refuses
  found e he := (shut.later (later e he)).refuses
  silent e he hturn hhandler := by
    obtain ⟨x, hx, hover, -⟩ := shut.later (later e he)
    exact Bool.false_ne_true ((h.told e (taken he) hturn i hhandler x hx).symm.trans hover)

end Truthful

/-- **Nothing runs in a session after its end.** A session for one task or for many, opened by the manager or past it,
ends when it is killed and when its time is up. Whatever happened before and whatever happens later, in whatever order
processes take their steps: from the state in which it has ended on, and already from the step on that ended it, every
task that is submitted to it is turned down, and no handler that was ever started for it takes a step, be it the one
that was in flight or one for a task that was accepted before and is only taken from the backlog afterwards. -/
theorem undergo_rests (service : Service) (episodes : List Episode) (i : SessionId) :
    let a := (start service).undergoAll episodes
    (∀ s : System, i < s.sessions.length → (s.kill i).Ended i) ∧
    (∀ e ∈ a.steps, ∀ elapsed, e.2.program = .timeout i elapsed true .start → e.2.turn.isSome = true →
      i < e.2.before.sessions.length → e.2.after.Ended i) ∧
    (∀ past later, episodes = past ++ later → ((start service).undergoAll past).system.Ended i →
      Rests i (a.Handles i) (a.steps.drop ((start service).undergoAll past).steps.length) a.system) ∧
    ∀ before e after, a.steps = before ++ e :: after → e.2.after.Ended i → Rests i (a.Handles i) after a.system := by
  intro a
  obtain ⟨htruthful, steps, hsteps, hsequel⟩ := (truthful_start service).undergoAll episodes
  refine ⟨fun s hlt => kill_ended hlt, fun e he elapsed hprogram hturn hlt => ?_, fun past later hall hended => ?_,
    fun before e after hall hended => ?_⟩
  · rw [← htruthful.stepped e he hturn, hprogram]
    exact stepTimeout_ended hlt e.1 elapsed
  · obtain ⟨hpast, -⟩ := (truthful_start service).undergoAll past
    obtain ⟨-, taken, htaken, hafter⟩ := hpast.undergoAll later
    have ha : a = ((start service).undergoAll past).undergoAll later := by
      rw [undergoAll, undergoAll, ← List.foldl_append, ← hall]
      rfl
    rw [← ha] at htaken hafter
    have hdrop : a.steps.drop ((start service).undergoAll past).steps.length = taken := by
      rw [htaken, List.drop_left]
    refine htruthful.rests (hended.shut hpast.ordered) hafter.later (fun e he => ?_) (List.drop_subset _ _)
    exact hafter.before e.2 (List.mem_map_of_mem (hdrop ▸ he))
  · have he : e ∈ a.steps := hall ▸ List.mem_append_right _ List.mem_cons_self
    have hshut : e.2.after.Shut i := by
      obtain ⟨own, s, hordered, hsame⟩ := htruthful.passed e he
      obtain ⟨x, hx, hend⟩ := hended
      have hthere : s.Shut i := Ended.shut ⟨x, by rw [hsame, hx], hend⟩ hordered
      rwa [Shut, hsame] at hthere
    -- The steps of the whole history follow each other, and so do those from this one on.
    have hall' : (steps.map (·.2)) = before.map (·.2) ++ e.2 :: after.map (·.2) := by
      rw [← List.map_cons (f := Prod.snd), ← List.map_append, ← hall, hsteps]
      rfl
    have hordered := hsequel.ordered
    rw [hall', List.pairwise_append, List.pairwise_cons] at hordered
    refine htruthful.rests hshut (hsequel.after e.2 ?_) (fun e' he' => ?_) fun e' he' => ?_
    · rw [hall']
      exact List.mem_append_right _ List.mem_cons_self
    · exact hordered.2.1.1 e'.2 (List.mem_map_of_mem he')
    · rw [hall]
      exact List.mem_append_right _ (List.mem_cons_of_mem _ he')

/-- A session for many tasks was submitted two of them. The handler of the first one was started, and then the time of
the session was up, while the second one waits. -/
def expired : List Episode :=
  [.occurs (.ordinary (.openChannel {})), .occurs (.openSession "s" 0 (some 5)),
    .occurs (.ordinary (.submit 0 ⟨.nil, "eval", "", Fields.empty⟩ 0)),
    .occurs (.ordinary (.submit 0 ⟨.nil, "eval", "", Fields.empty⟩ 0)), .occurs (.ordinary (.turn 1 128 9)),
    .occurs (.ordinary (.timeout 0 7 true)), .occurs (.ordinary (.turn 3 128 0))]

/-- The handler in flight, the worker and the handler that the worker starts for the second task have their turns. -/
def turns : List Episode :=
  [.occurs (.ordinary (.turn 2 128 9)), .occurs (.ordinary (.turn 1 128 9)), .occurs (.ordinary (.turn 4 128 9))]

/-- The worker takes the second task from the backlog and starts a handler for it, and nothing comes of that. -/
theorem undergo_rests_expired :
    let past := (start {}).undergoAll expired
    let a := (start {}).undergoAll (expired ++ turns)
    (∃ e ∈ a.steps.drop past.steps.length, e.2.Starts 0 4) ∧
      Rests 0 (a.Handles 0) (a.steps.drop past.steps.length) a.system := by
  intro past a
  have hstart : (a.steps.drop past.steps.length).any
      (fun e => e.2.program.attends 0 && decide ((4, 1) ∈ e.2.started)) = true := by decide +kernel
  have hended : past.system.sessions[0]?.any (fun x => x.timedOut.isSome) = true := by decide +kernel
  obtain ⟨e, he, hstarts⟩ := List.any_eq_true.mp hstart
  obtain ⟨hattends, hstarted⟩ := Bool.and_eq_true_iff.mp hstarts
  obtain ⟨x, hx, htimedOut⟩ := (Option.any_eq_true _ _).mp hended
  exact ⟨⟨e, he, hattends, 1, of_decide_eq_true hstarted⟩,
    (undergo_rests {} (expired ++ turns) 0).2.2.1 expired turns rfl ⟨x, hx, .inr htimedOut⟩⟩

end Annals

end GraphServer
