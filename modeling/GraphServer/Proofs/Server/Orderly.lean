import GraphServer.Proofs.Server.Affects
import GraphServer.Proofs.Session.Chronicle

/-!
The order in which a session is kept, whatever the others do.

* `System.Orderly`: at most one process executes the tasks of a session; of the handlers that it started, one at most
  can take steps, and it is the one that is in flight and that the execution waits for; none can once the session is
  over.
* `System.Orderly.of_affects`: what concerns another session does not disturb this order;
* `System.Orderly.moved_silent`, `System.Orderly.moved_start`: it is kept by the process that executes the tasks.
-/

namespace GraphServer.System

variable {own own' : ProcessId → Prop} {s s' : System} {i j : SessionId} {r : ProcessId} {P N : Program}

/-- No process executes the tasks of a session. -/
def Unattended (s : System) (i : SessionId) : Prop :=
  ∀ p program, s.program? p = some program → program.attends i = false

/-- None of some processes can take steps. -/
def Silent (own : ProcessId → Prop) (s : System) : Prop :=
  ∀ p, own p → s.isActive p = false

/-- A session is kept in order; `own` are the handlers that were started for it. -/
structure Orderly (own : ProcessId → Prop) (s : System) (i : SessionId) : Prop where
  known : ∀ p, own p → p < s.processes.length
  absent : s.sessions[i]? = none → s.Unattended i ∧ s.Silent own
  sole : ∀ p q program program', s.program? p = some program → program.attends i = true →
    s.program? q = some program' → program'.attends i = true → p = q
  held : ∀ p, own p → s.isActive p = true →
    (∃ x f, s.sessions[i]? = some x ∧ x.inFlight = some f ∧ f.handler = p) ∧
      ∀ q program, s.program? q = some program → program.attends i = true → program.isJoining p = true
  vacant : ∀ x, s.sessions[i]? = some x → x.backlog = none → x.accepting = true → s.Unattended i ∧ s.Silent own
  ended : ∀ x, s.sessions[i]? = some x → x.isOver = true → x.accepting = false ∧ s.Silent own
  done : ∀ x, s.sessions[i]? = some x → x.terminated = true → x.killed = true ∨ s.Unattended i

/-! ### Programs -/

lemma program?_setProgram (s : System) (r : ProcessId) (N : Program) (p : ProcessId) :
    (s.setProgram r N).program? p = if r = p then (s.program? p).map fun _ => N else s.program? p := by
  rw [setProgram, program?_onProcess]
  split
  · rw [program?, Option.map_map]
    rfl
  · rfl

lemma length_setProgram (s : System) (r : ProcessId) (N : Program) :
    (s.setProgram r N).processes.length = s.processes.length :=
  length_onProcess ..

/-- A process that has not ended can take steps after a move only if it could before. -/
lemma isActive_of_setProgram (hP : s.program? r = some P) (unfinished : P.isFinished = false) {p : ProcessId}
    (h : (s.setProgram r N).isActive p = true) : s.isActive p = true := by
  rw [isActive, setProgram, onProcess] at h
  by_cases hrp : r = p
  · subst hrp
    rw [program?, Option.map_eq_some_iff] at hP
    obtain ⟨x, hx, rfl⟩ := hP
    rw [List.getElem?_modify_eq, hx] at h
    rw [isActive, hx, Option.any_some, unfinished]
    have hcancelled := (Bool.and_eq_true_iff.mp h).2
    exact hcancelled
  · rw [List.getElem?_modify_ne _ _ hrp] at h
    exact h

lemma isActive_setProgram_of_ne {p : ProcessId} (other : r ≠ p) : (s.setProgram r N).isActive p = s.isActive p := by
  rw [isActive, isActive, setProgram, onProcess, List.getElem?_modify_ne _ _ other]

lemma processes_setProgram_self (hP : s.program? r = some P) : (s.setProgram r P).processes = s.processes := by
  refine List.ext_getElem? fun p => ?_
  rw [setProgram, onProcess]
  by_cases hrp : r = p
  · subst hrp
    rw [program?, Option.map_eq_some_iff] at hP
    obtain ⟨x, hx, rfl⟩ := hP
    rw [List.getElem?_modify_eq, hx]
    rfl
  · rw [List.getElem?_modify_ne _ _ hrp]

namespace Orderly

/-! ### Changes that do not disturb -/

lemma mono (h : Orderly own s i) (fewer : ∀ p, own' p → own p) : Orderly own' s i where
  known p hp := h.known p (fewer p hp)
  absent hx := (h.absent hx).imp_right fun hs p hp => hs p (fewer p hp)
  sole := h.sole
  held p hp := h.held p (fewer p hp)
  vacant x hx hb ha := (h.vacant x hx hb ha).imp_right fun hs p hp => hs p (fewer p hp)
  ended x hx ho := (h.ended x hx ho).imp_right fun hs p hp => hs p (fewer p hp)
  done := h.done

/-- A change after which fewer processes execute the tasks and fewer handlers can take steps. -/
lemma of_fewer (h : Orderly own s i) (session : s'.sessions[i]? = s.sessions[i]?)
    (grows : s.processes.length ≤ s'.processes.length)
    (executing : ∀ p program, s'.program? p = some program → program.attends i = true → s.program? p = some program)
    (active : ∀ p, p < s.processes.length → s'.isActive p = true → s.isActive p = true) : Orderly own s' i := by
  have hsilent (hs : s.Silent own) : s'.Silent own := fun p hp =>
    Bool.eq_false_iff.mpr fun ha => Bool.false_ne_true ((hs p hp).symm.trans (active p (h.known p hp) ha))
  have hunattended (hu : s.Unattended i) : s'.Unattended i := fun p program hp =>
    Bool.eq_false_iff.mpr fun he => Bool.false_ne_true ((hu p program (executing p program hp he)).symm.trans he)
  refine ⟨fun p hp => (h.known p hp).trans_le grows, fun hx => ?_, fun p q program program' hp he hq he' => ?_,
    fun p hp ha => ?_, fun x hx hb ha => ?_, fun x hx ho => ?_, fun x hx ht => ?_⟩
  · exact (h.absent (session ▸ hx)).imp hunattended hsilent
  · exact h.sole p q program program' (executing p program hp he) he (executing q program' hq he') he'
  · obtain ⟨hflight, hjoins⟩ := h.held p hp (active p (h.known p hp) ha)
    rw [session]
    exact ⟨hflight, fun q program hq he => hjoins q program (executing q program hq he) he⟩
  · exact (h.vacant x (session ▸ hx) hb ha).imp hunattended hsilent
  · exact (h.ended x (session ▸ hx) ho).imp_right hsilent
  · exact (h.done x (session ▸ hx) ht).imp_right hunattended

lemma of_still (h : Orderly own s i) (still : s.Still s') : Orderly own s' i :=
  h.of_fewer (by rw [still.sessions]) (by rw [still.processes])
    (fun p program hp _ => (still.program? p).symm.trans hp) fun p _ ha => isActive_eq still.processes p ▸ ha

lemma unattended_of_affects (h : s.Unattended i) (a : Affects j s s') (none_ : ¬ Recruits i s s') :
    s'.Unattended i := by
  intro p program hp
  by_cases hlt : p < s.processes.length
  · exact h p program ((a.programs p hlt).symm.trans hp)
  · exact Bool.eq_false_iff.mpr fun he => none_ ⟨p, program, Nat.le_of_not_lt hlt, hp, he⟩

lemma silent_of_affects (h : s.Silent own) (known : ∀ p, own p → p < s.processes.length) (a : Affects j s s') :
    s'.Silent own := fun p hp =>
  Bool.eq_false_iff.mpr fun hactive => Bool.false_ne_true ((h p hp).symm.trans (a.active p (known p hp) hactive))

lemma not_recruits (a : Affects j s s') (other : i ≠ j) : ¬ Recruits i s s' := fun ⟨p, program, hp, hprogram, he⟩ =>
  Bool.false_ne_true ((a.fresh p program hp hprogram i other).symm.trans he)

/-- Those who execute the tasks of a session are the same if none is recruited. -/
lemma program?_of_attends (a : Affects j s s') (none_ : ¬ Recruits i s s') {p : ProcessId}
    (hp : s'.program? p = some P) (he : P.attends i = true) : s.program? p = some P := by
  by_cases hlt : p < s.processes.length
  · exact (a.programs p hlt).symm.trans hp
  · exact absurd ⟨p, P, Nat.le_of_not_lt hlt, hp, he⟩ none_

/-- What concerns another session does not disturb the order. -/
lemma of_affects (h : Orderly own s i) (a : Affects j s s') (other : i ≠ j) : Orderly own s' i :=
  h.of_fewer (a.others i other) a.grows (fun _ _ hp he => program?_of_attends a (not_recruits a other) hp he) a.active

/-- A change of the session itself that leaves the task in flight alone and ends nothing. -/
lemma of_harmless (h : Orderly own s i) (a : Tends i s s')
    (same : ∀ x, s.sessions[i]? = some x → ∃ x', s'.sessions[i]? = some x' ∧ x'.inFlight = x.inFlight ∧ x.Calms x') :
    Orderly own s' i := by
  have hback (x' : Session) (hx' : s'.sessions[i]? = some x') :
      ∃ x, s.sessions[i]? = some x ∧ x'.inFlight = x.inFlight ∧ x.Calms x' := by
    obtain ⟨x, hx, -⟩ := a.exists_before hx'
    obtain ⟨y, hy, hsame⟩ := same x hx
    cases hx'.symm.trans hy
    exact ⟨x, hx, hsame⟩
  refine ⟨fun p hp => (h.known p hp).trans_le a.grows, fun hx' => ?_, fun p q program program' hp he hq he' => ?_,
    fun p hp hactive => ?_, fun x' hx' hb ha => ?_, fun x' hx' ho => ?_, fun x' hx' ht => ?_⟩
  · rw [List.getElem?_eq_none_iff, a.length, ← List.getElem?_eq_none_iff] at hx'
    obtain ⟨hu, hs⟩ := h.absent hx'
    exact ⟨unattended_of_affects hu a.toAffects a.nobody, silent_of_affects hs h.known a.toAffects⟩
  · exact h.sole p q program program' (program?_of_attends a.toAffects a.nobody hp he) he
      (program?_of_attends a.toAffects a.nobody hq he') he'
  · obtain ⟨⟨x, f, hx, hf, hp'⟩, hjoins⟩ := h.held p hp (a.active p (h.known p hp) hactive)
    obtain ⟨x', hx', hflight, -⟩ := same x hx
    exact ⟨⟨x', f, hx', hflight.trans hf, hp'⟩, fun q program hq he =>
      hjoins q program (program?_of_attends a.toAffects a.nobody hq he) he⟩
  · obtain ⟨x, hx, -, hcalms⟩ := hback x' hx'
    obtain ⟨hu, hs⟩ := h.vacant x hx (hcalms.follows.backlog_eq_none hb) (hcalms.follows.accepting ha)
    exact ⟨unattended_of_affects hu a.toAffects a.nobody, silent_of_affects hs h.known a.toAffects⟩
  · obtain ⟨x, hx, -, hcalms⟩ := hback x' hx'
    obtain ⟨ha, hs⟩ := h.ended x hx (hcalms.isOver ho)
    exact ⟨Bool.eq_false_iff.mpr fun ha' => Bool.false_ne_true (ha.symm.trans (hcalms.follows.accepting ha')),
      silent_of_affects hs h.known a.toAffects⟩
  · obtain ⟨x, hx, -, hcalms⟩ := hback x' hx'
    exact (h.done x hx (hcalms.terminated ht)).imp hcalms.follows.killed fun hu => unattended_of_affects hu a.toAffects a.nobody

/-- A change of the session itself after which none of its handlers can take steps. -/
lemma of_silent (h : Orderly own s i) (a : Tends i s s') (silent : s'.Silent own)
    (ended : ∀ x', s'.sessions[i]? = some x' → x'.isOver = true → x'.accepting = false)
    (done : ∀ x', s'.sessions[i]? = some x' → x'.terminated = true → x'.killed = true ∨ s'.Unattended i) :
    Orderly own s' i := by
  refine ⟨fun p hp => (h.known p hp).trans_le a.grows, fun hx' => ?_, fun p q program program' hp he hq he' => ?_,
    fun p hp hactive => absurd hactive (Bool.eq_false_iff.mp (silent p hp)), fun x' hx' hb ha => ?_,
    fun x' hx' ho => ⟨ended x' hx' ho, silent⟩, done⟩
  · rw [List.getElem?_eq_none_iff, a.length, ← List.getElem?_eq_none_iff] at hx'
    exact ⟨unattended_of_affects (h.absent hx').1 a.toAffects a.nobody, silent⟩
  · exact h.sole p q program program' (program?_of_attends a.toAffects a.nobody hp he) he
      (program?_of_attends a.toAffects a.nobody hq he') he'
  · obtain ⟨x, hx, hfollows⟩ := a.exists_before hx'
    have hvacant := h.vacant x hx (hfollows.backlog_eq_none hb) (hfollows.accepting ha)
    exact ⟨unattended_of_affects hvacant.1 a.toAffects a.nobody, silent⟩

/-! ### Moves of processes -/

/-- A move of a process to a point at which it does not execute the tasks of the session. -/
lemma moved_apart (h : Orderly own s i) (hP : s.program? r = some P) (unfinished : P.isFinished = false)
    (apart : N.attends i = false) : Orderly own (s.setProgram r N) i := by
  refine h.of_fewer rfl (length_setProgram s r N).ge (fun p program hp he => ?_) fun p _ =>
    isActive_of_setProgram hP unfinished
  rw [program?_setProgram] at hp
  split at hp
  next hrp =>
    subst hrp
    rw [hP] at hp
    cases hp
    exact absurd he (Bool.eq_false_iff.mp apart)
  next => exact hp

/-- The end of any process. -/
lemma moved_out (h : Orderly own s i) (r : ProcessId) (result : Option (Except Error Unit)) :
    Orderly own (s.setProgram r (.finished result)) i := by
  refine h.of_fewer rfl (length_setProgram s r _).ge (fun p program hp he => ?_) fun p _ ha => ?_
  · rw [program?_setProgram] at hp
    split at hp
    next hrp =>
      rw [Option.map_eq_some_iff] at hp
      obtain ⟨-, -, rfl⟩ := hp
      cases he
    next => exact hp
  · rw [isActive, setProgram, onProcess] at ha
    by_cases hrp : r = p
    · subst hrp
      rw [List.getElem?_modify_eq] at ha
      cases hx : s.processes[r]? <;> rw [hx] at ha <;> cases ha
    · rw [List.getElem?_modify_ne _ _ hrp] at ha
      exact ha

/-! ### Moves of the process that executes the tasks -/

/-- While the execution does not wait for a handler, none can take steps. -/
lemma silent_of_not_joining (h : Orderly own s i) (hP : s.program? r = some P) (attends : P.attends i = true)
    (apart : ∀ p, P.isJoining p = false) : s.Silent own := fun p hp =>
  Bool.eq_false_iff.mpr fun ha => Bool.false_ne_true ((apart p).symm.trans ((h.held p hp ha).2 r P hP attends))

/-- After a move only the process that moved executes the tasks. -/
lemma eq_of_moved (h : Orderly own s i) (hP : s.program? r = some P) (attends : P.attends i = true)
    (a : Tends i s s') {p : ProcessId} {program : Program}
    (hp : (s'.setProgram r N).program? p = some program) (he : program.attends i = true) :
    p = r ∧ program = N := by
  rw [program?_setProgram] at hp
  split at hp
  next hrp =>
    subst hrp
    rw [Option.map_eq_some_iff] at hp
    obtain ⟨-, -, rfl⟩ := hp
    exact ⟨rfl, rfl⟩
  next hrp => exact absurd (h.sole r p P program hP attends (program?_of_attends a.toAffects a.nobody hp he) he) hrp

lemma exists_session (h : Orderly own s i) (hP : s.program? r = some P) (attends : P.attends i = true) :
    ∃ x, s.sessions[i]? = some x ∧ ¬ (x.backlog = none ∧ x.accepting = true) ∧
      (x.terminated = true → x.killed = true) := by
  have hnot (hu : s.Unattended i) : False := Bool.false_ne_true ((hu r P hP).symm.trans attends)
  cases hx : s.sessions[i]? with
  | none => exact absurd (h.absent hx).1 hnot
  | some x =>
    exact ⟨x, rfl, fun hv => hnot (h.vacant x hx hv.1 hv.2).1, fun ht => (h.done x hx ht).resolve_right hnot⟩

/-- A move of the process that executes the tasks after which no handler can take steps. -/
lemma moved_silent (h : Orderly own s i) (hP : s.program? r = some P) (attends : P.attends i = true)
    (unfinished : P.isFinished = false) (a : Tends i s s')
    (known : ∀ p, own' p → p < s'.processes.length) (silent : s'.Silent own')
    (ended : ∀ x', s'.sessions[i]? = some x' → x'.isOver = true → x'.accepting = false)
    (done : ∀ x', s'.sessions[i]? = some x' → x'.terminated = true → x'.killed = true ∨ N.attends i = false) :
    Orderly own' (s'.setProgram r N) i := by
  have hP' := a.onward.program? hP
  have hsilent : (s'.setProgram r N).Silent own' := fun p hp =>
    Bool.eq_false_iff.mpr fun ha =>
      Bool.false_ne_true ((silent p hp).symm.trans (isActive_of_setProgram hP' unfinished ha))
  obtain ⟨x, hx, hvacant, -⟩ := h.exists_session hP attends
  obtain ⟨x', hx', hfollows⟩ := a.follows x hx
  have hsession (y : Session) (hy : (s'.setProgram r N).sessions[i]? = some y) : y = x' :=
    Option.some.inj (hy.symm.trans hx')
  refine ⟨fun p hp => (length_setProgram s' r N).symm ▸ known p hp, fun hnone => ?_,
    fun p q program program' hp he hq he' => ?_, fun p hp ha => absurd ha (Bool.eq_false_iff.mp (hsilent p hp)),
    fun y hy hb ha => ?_, fun y hy ho => ⟨ended y hy ho, hsilent⟩, fun y hy ht => ?_⟩
  · cases hnone.symm.trans hx'
  · exact (h.eq_of_moved hP attends a hp he).1.trans (h.eq_of_moved hP attends a hq he').1.symm
  · cases hsession y hy
    exact absurd ⟨hfollows.backlog_eq_none hb, hfollows.accepting ha⟩ hvacant
  · refine (done y hy ht).imp_right fun hN p program hp => Bool.eq_false_iff.mpr fun he => ?_
    obtain ⟨-, rfl⟩ := h.eq_of_moved hP attends a hp he
    exact Bool.false_ne_true (hN.symm.trans he)

/-- The process that executes the tasks starts a handler, which is in flight then, and waits for it. -/
lemma moved_start (h : Orderly own s i) (hP : s.program? r = some P) (attends : P.attends i = true)
    (unfinished : P.isFinished = false) (apart : ∀ p, P.isJoining p = false) (a : Tends i s s')
    {handler : ProcessId} (new : s.processes.length ≤ handler)
    (known : ∀ p, own' p → p < s'.processes.length ∧ (own p ∨ p = handler)) (joins : N.isJoining handler = true)
    {x' : Session} {f : InFlight} (hx' : s'.sessions[i]? = some x') (flight : x'.inFlight = some f)
    (flies : f.handler = handler) (lives : x'.isOver = false) : Orderly own' (s'.setProgram r N) i := by
  have hP' := a.onward.program? hP
  have hsilent := silent_of_affects (h.silent_of_not_joining hP attends apart) h.known a.toAffects
  obtain ⟨x, hx, hvacant, -⟩ := h.exists_session hP attends
  obtain ⟨y', hy', hfollows⟩ := a.follows x hx
  cases hx'.symm.trans hy'
  have hsession (y : Session) (hy : (s'.setProgram r N).sessions[i]? = some y) : y = x' :=
    Option.some.inj (hy.symm.trans hx')
  refine ⟨fun p hp => (length_setProgram s' r N).symm ▸ (known p hp).1, fun hnone => ?_,
    fun p q program program' hp he hq he' => ?_, fun p hp ha => ?_, fun y hy hb ha => ?_, fun y hy ho => ?_,
    fun y hy ht => ?_⟩
  · cases hnone.symm.trans hx'
  · exact (h.eq_of_moved hP attends a hp he).1.trans (h.eq_of_moved hP attends a hq he').1.symm
  · have hnew : p = handler := (known p hp).2.resolve_left fun hold =>
      Bool.false_ne_true ((hsilent p hold).symm.trans (isActive_of_setProgram hP' unfinished ha))
    subst hnew
    refine ⟨⟨x', f, hx', flight, flies⟩, fun q program hq he => ?_⟩
    obtain ⟨-, rfl⟩ := h.eq_of_moved hP attends a hq he
    exact joins
  · cases hsession y hy
    exact absurd ⟨hfollows.backlog_eq_none hb, hfollows.accepting ha⟩ hvacant
  · cases hsession y hy
    exact absurd ho (Bool.eq_false_iff.mp lives)
  · cases hsession y hy
    rw [Session.isOver, ht, Bool.or_true] at lives
    cases lives

end Orderly

end GraphServer.System
