import GraphServer.Proofs.Session.Incident

/-!
The steps of a history one after the other.

* `Step.IsTaken`: a process takes a step at the point of its program;
* `System.stepsOf_append`: where a process goes on, the rest of its turn is a turn of its own;
* `Chronicle.undergo_append`: **what follows a step that goes on is the rest of its turn, and then whatever else happens**.
-/

namespace GraphServer

/-- Where a process goes on or waits. -/
def Turn.point? {α : Type} : Turn α → Option α
  | go point | wait point => some point
  | done _ => none

lemma Turn.point?_map {α β : Type} (turn : Turn α) (f : α → β) : (turn.map f).point? = turn.point?.map f := by
  cases turn <;> rfl

/-- The last turn of an execution leads to its end, or to the queue. -/
lemma System.lastWords_point? {x : System × Transit} {next : RunPoint} (h : (lastWords x).2.point? = some next) :
    next = .over ∨ ∃ y, next = .sending y := by
  obtain ⟨s, transit⟩ := x
  cases transit with
  | done =>
    cases h
    exact .inl rfl
  | waiting y =>
    cases h
    exact .inr ⟨y, rfl⟩

/-- A process takes the step from the point of its program. -/
def Step.IsTaken (p : ProcessId) (x : Step) : Prop :=
  x.before.program? p = some x.program ∧ ∃ turn, x.turn = some turn ∧ x.before.step p x.program = (x.after, turn)

namespace System

variable {s : System} {p : ProcessId} {n : Nat} {N : Program} {y : Step} {pre post : List Step}

/-- What is so whenever a process goes on in its turn is so at each of its steps. -/
lemma of_mem_stepsOf {Q : System → Prop} (goes : ∀ s P s' N, Q s → s.program? p = some P → s.step p P = (s', .go N) →
    Q (s'.setProgram p N)) (h : Q s) (hy : y ∈ stepsOf p n s) : Q y.before ∧ y.IsTaken p := by
  induction n generalizing s with
  | zero => cases hy
  | succ n ih =>
    rw [stepsOf] at hy
    split at hy
    · cases hy
    next P hP =>
      generalize hstep : s.step p P = x at hy
      obtain ⟨s', turn⟩ := x
      have first : Q s ∧ Step.IsTaken p ⟨s, P, s', some turn⟩ := ⟨h, hP, turn, rfl, hstep⟩
      cases turn with
      | go N =>
        obtain rfl | hy := List.mem_cons.mp hy
        · exact first
        · exact ih (goes s P s' N h hP hstep) hy
      | _ =>
        cases List.mem_singleton.mp hy
        exact first

/-- Where a process goes on, the rest of its turn is a turn of its own. -/
lemma stepsOf_append (h : stepsOf p n s = pre ++ y :: post) (goes : y.turn = some (.go N)) :
    y.IsTaken p ∧ ∃ m, post = stepsOf p m (y.after.setProgram p N) ∧ run p n s = run p m (y.after.setProgram p N) := by
  induction n generalizing s pre with
  | zero => exact absurd h.symm (List.append_ne_nil_of_right_ne_nil _ (List.cons_ne_nil _ _))
  | succ n ih =>
    rw [stepsOf] at h
    rw [run]
    cases hP : s.program? p with
    | none =>
      rw [hP] at h
      exact absurd h.symm (List.append_ne_nil_of_right_ne_nil _ (List.cons_ne_nil _ _))
    | some P =>
      rw [hP] at h
      dsimp only at h ⊢
      generalize hstep : s.step p P = x at h ⊢
      obtain ⟨s', turn⟩ := x
      have only {turn : Turn Program} (single : [⟨s, P, s', some turn⟩] = pre ++ y :: post) :
          y.turn = some turn := by
        cases pre with
        | nil =>
          cases single
          rfl
        | cons z pre =>
          obtain ⟨-, h⟩ := List.cons.inj single
          exact absurd h.symm (List.append_ne_nil_of_right_ne_nil _ (List.cons_ne_nil _ _))
      cases turn with
      | go N' =>
        cases pre with
        | nil =>
          cases h
          cases goes
          exact ⟨⟨hP, _, rfl, hstep⟩, n, rfl, rfl⟩
        | cons z pre => exact ih (List.cons.inj h).2
      | wait N' => cases (only h).symm.trans goes
      | done result => cases (only h).symm.trans goes

lemma turn_append {allowance : Nat} (h : (s.turn p allowance n).2 = pre ++ y :: post) (goes : y.turn = some (.go N)) :
    y.IsTaken p ∧ ∃ m, post = stepsOf p m (y.after.setProgram p N) ∧
      (s.turn p allowance n).1 = run p m (y.after.setProgram p N) := by
  have nothing (pre : List Step) : [] ≠ pre ++ y :: post :=
    (List.append_ne_nil_of_right_ne_nil _ (List.cons_ne_nil _ _)).symm
  rw [turn] at h ⊢
  cases hx : s.processes[p]? with
  | none =>
    rw [hx] at h
    exact absurd h (nothing pre)
  | some x =>
    rw [hx] at h
    dsimp only at h ⊢
    split_ifs at h ⊢ with finished cancelled
    · exact absurd h (nothing pre)
    · have stopped : y.turn = none := by
        cases pre with
        | nil =>
          cases h
          rfl
        | cons z pre => exact absurd (List.cons.inj h).2 (nothing pre)
      cases stopped.symm.trans goes
    · exact stepsOf_append h goes

lemma turn_taken {allowance : Nat} {x : Step} (h : x ∈ (s.turn p allowance n).2) : x.turn = none ∨ ∃ p, x.IsTaken p := by
  rw [turn] at h
  split at h
  · exact absurd h List.not_mem_nil
  · split_ifs at h
    · exact absurd h List.not_mem_nil
    · cases List.mem_singleton.mp h
      exact .inl rfl
    · exact .inr ⟨p, (of_mem_stepsOf (Q := fun _ => True) (fun _ _ _ _ _ _ _ => trivial) trivial h).2⟩

end System

open Opening (session channel)

/-- A history around a step of it. -/
lemma Step.eq_take_append_drop {α : Type} {steps : List α} {x : α} {n : Nat} (h : steps[n]? = some x) :
    steps = steps.take n ++ x :: steps.drop (n + 1) := by
  obtain ⟨hn, rfl⟩ := List.getElem?_eq_some_iff.mp h
  rw [List.cons_getElem_drop_succ, List.take_append_drop]

namespace Chronicle

/-- A history to which a step was added is parted at that step or at one before it. -/
lemma split_concat {α : Type} {steps before after : List α} {x z : α} (h : steps ++ [z] = before ++ x :: after) :
    after = [] ∧ steps = before ∧ z = x ∨ ∃ rest, after = rest ++ [z] ∧ steps = before ++ x :: rest := by
  rcases List.eq_nil_or_concat' after with rfl | ⟨rest, u, rfl⟩
  · obtain ⟨rfl, hx⟩ := List.append_inj' h rfl
    exact .inl ⟨rfl, rfl, List.singleton_inj.mp hx⟩
  · rw [← List.cons_append, ← List.append_assoc] at h
    obtain ⟨hsteps, hu⟩ := List.append_inj' h rfl
    exact .inr ⟨rest, by rw [List.singleton_inj.mp hu], hsteps⟩

variable {h : Chronicle} {N : Program} {y : Step} {first later : List Step} {e : Incident}

/-- Only a turn takes steps. -/
lemma incur_cases (h : Chronicle) (e : Incident) :
    (∃ p allowance more, e = .move (.turn p allowance more)) ∨
      (h.incur e).steps = h.steps ∧ (h.incur e).isWhole = h.isWhole := by
  cases e with
  | kill => exact .inr ⟨rfl, rfl⟩
  | move m =>
    cases m with
    | submit r =>
      refine .inr ?_
      rw [incur, next]
      dsimp only
      split <;> exact ⟨rfl, rfl⟩
    | turn p allowance more => exact .inl ⟨p, allowance, more, rfl⟩
    | _ => exact .inr ⟨rfl, rfl⟩

/-- Steps are only added, and a history that is whole was so before. -/
lemma incur_grows (h : Chronicle) (e : Incident) :
    ∃ more, (h.incur e).steps = h.steps ++ more ∧ ((h.incur e).isWhole = true → h.isWhole = true) := by
  obtain ⟨p, allowance, more, rfl⟩ | ⟨steps, whole⟩ := h.incur_cases e
  · exact ⟨_, rfl, fun whole => (Bool.and_eq_true_iff.mp whole).1⟩
  · exact ⟨[], steps.trans (List.append_nil _).symm, fun hw => whole ▸ hw⟩

lemma undergo_grows (h : Chronicle) (incidents : List Incident) :
    ∃ more, (h.undergo incidents).steps = h.steps ++ more ∧
      ((h.undergo incidents).isWhole = true → h.isWhole = true) := by
  induction incidents generalizing h with
  | nil => exact ⟨[], (List.append_nil _).symm, id⟩
  | cons e incidents ih =>
    obtain ⟨taken, htaken, whole⟩ := h.incur_grows e
    obtain ⟨more, hmore, whole'⟩ := ih (h.incur e)
    refine ⟨taken ++ more, ?_, fun hw => whole (whole' hw)⟩
    rw [← List.append_assoc, ← htaken]
    exact hmore

/-- Every step is taken by a process, unless a process was stopped. -/
lemma undergo_taken (taken : ∀ x ∈ h.steps, x.turn = none ∨ ∃ p, x.IsTaken p) (incidents : List Incident) :
    ∀ x ∈ (h.undergo incidents).steps, x.turn = none ∨ ∃ p, x.IsTaken p := by
  induction incidents generalizing h with
  | nil => exact taken
  | cons e incidents ih =>
    refine ih fun x hx => ?_
    obtain ⟨p, allowance, more, rfl⟩ | ⟨same, -⟩ := h.incur_cases e
    · obtain hx | hx := List.mem_append.mp hx
      · exact taken x hx
      · exact System.turn_taken hx
    · rw [same] at hx
      exact taken x hx

/-- What follows a step of a turn that goes on is the rest of the turn. -/
lemma incur_append (steps : (h.incur e).steps = h.steps ++ (first ++ y :: later)) (goes : y.turn = some (.go N)) :
    ∃ p m, y.IsTaken p ∧ later = System.stepsOf p m (y.after.setProgram p N) ∧
      (h.incur e).system = System.run p m (y.after.setProgram p N) ∧
        ((h.incur e).isWhole = true → (y :: later).getLast?.any Step.goesOn = false) := by
  obtain ⟨p, allowance, more, rfl⟩ | ⟨same, -⟩ := h.incur_cases e
  · have taken : ({ h.system with ready := h.system.ready.erase p }.turn p allowance (more + 1)).2 = first ++ y :: later :=
      List.append_cancel_left steps
    obtain ⟨isTaken, m, rest, ran⟩ := System.turn_append taken goes
    refine ⟨p, m, isTaken, rest, ran, fun whole => ?_⟩
    have last : (!({ h.system with ready := h.system.ready.erase p }.turn p allowance (more + 1)).2.getLast?.any
        Step.goesOn) = true := (Bool.and_eq_true_iff.mp whole).2
    rwa [Bool.not_eq_true', taken, List.getLast?_append_of_ne_nil _ (List.cons_ne_nil _ _)] at last
  · have none_ := List.append_right_eq_self.mp (steps.symm.trans same)
    exact absurd none_ (List.append_ne_nil_of_right_ne_nil _ (List.cons_ne_nil _ _))

/-- What follows a step that goes on is the rest of its turn, and then whatever else happens. -/
theorem undergo_append {incidents : List Incident}
    (steps : (h.undergo incidents).steps = h.steps ++ (first ++ y :: later)) (goes : y.turn = some (.go N)) :
    ∃ h' rest p m, h.undergo incidents = undergo h' rest ∧ y.IsTaken p ∧
      h'.steps = h.steps ++ (first ++ y :: System.stepsOf p m (y.after.setProgram p N)) ∧
      h'.system = System.run p m (y.after.setProgram p N) ∧
        (h'.isWhole = true → (y :: System.stepsOf p m (y.after.setProgram p N)).getLast?.any Step.goesOn = false) := by
  induction incidents generalizing h first with
  | nil =>
    have none_ := List.append_right_eq_self.mp steps.symm
    exact absurd none_ (List.append_ne_nil_of_right_ne_nil _ (List.cons_ne_nil _ _))
  | cons e incidents ih =>
    obtain ⟨taken, htaken, -⟩ := h.incur_grows e
    obtain ⟨more, hmore, -⟩ := (h.incur e).undergo_grows incidents
    have whole : h.steps ++ (taken ++ more) = h.steps ++ (first ++ y :: later) := by
      rw [← List.append_assoc, ← htaken, ← hmore]
      exact steps
    have split := List.append_cancel_left whole
    -- the step comes later, unless it is one of those that are taken now
    have comes (before : List Step) (hfirst : first = taken ++ before) (hmore' : more = before ++ y :: later) := by
      have steps' : ((h.incur e).undergo incidents).steps = (h.incur e).steps ++ (before ++ y :: later) :=
        hmore.trans (hmore' ▸ rfl)
      exact ih steps'
    rcases List.append_eq_append_iff.mp split with ⟨before, hfirst, hrest⟩ | ⟨now, hnow, hrest⟩
    · obtain ⟨h', rest, p, m, same, isTaken, steps', ran, whole⟩ := comes before hfirst hrest
      refine ⟨h', rest, p, m, same, isTaken, ?_, ran, whole⟩
      rw [steps', htaken, hfirst, List.append_assoc, List.append_assoc]
    · cases now with
      | nil =>
        rw [List.append_nil] at hnow
        obtain ⟨h', rest, p, m, same, isTaken, steps', ran, whole⟩ :=
          comes [] (by rw [hnow, List.append_nil]) hrest.symm
        refine ⟨h', rest, p, m, same, isTaken, ?_, ran, whole⟩
        rw [steps', htaken, hnow, List.append_assoc, List.nil_append]
      | cons z now =>
        obtain ⟨rfl, -⟩ := List.cons.inj hrest
        obtain ⟨p, m, isTaken, hlater, ran, whole⟩ := incur_append (htaken.trans (congrArg (h.steps ++ ·) hnow)) goes
        refine ⟨h.incur e, incidents, p, m, rfl, isTaken, ?_, ran, ?_⟩
        · rw [htaken, hnow, ← hlater]
        · rw [← hlater]
          exact whole

end Chronicle

end GraphServer
