import GraphServer.Proofs.System.Quiet

/-!
What concerns one of many sessions.

* `Session.Follows`: what a session can become;
* `System.Onward`: sessions only go on, and processes that are not at work stay where they are;
* `System.Affects`: all sessions but one are left as they are, and nobody begins to execute tasks for another one.
  Every function that sessions are made of affects its own session only.
-/

namespace GraphServer

/-- Whether a program executes the tasks of a session. -/
def Program.attends (i : SessionId) : Program → Bool
  | single j _ => j == i
  | worker j _ => j == i
  | _ => false

namespace Session

/-- Whether no task begins in the session any more. -/
def isOver (x : Session) : Bool :=
  x.killed || x.timedOut.isSome || x.terminated

/-- What a session can become: it keeps its name and its channel, does not accept tasks again, and is over for good. -/
structure Follows (x x' : Session) : Prop where
  channel : x'.channel = x.channel
  backlog : x'.backlog.isSome = x.backlog.isSome
  accepting : x'.accepting = true → x.accepting = true
  terminated : x.terminated = true → x'.terminated = true
  killed : x.killed = true → x'.killed = true
  timedOut : x.timedOut.isSome = true → x'.timedOut.isSome = true
  name : x'.name = x.name

namespace Follows

variable {x x' x'' : Session}

@[refl] lemma refl (x : Session) : x.Follows x := ⟨rfl, rfl, id, id, id, id, rfl⟩

lemma trans (h : x.Follows x') (h' : x'.Follows x'') : x.Follows x'' where
  channel := h'.channel.trans h.channel
  backlog := h'.backlog.trans h.backlog
  accepting ha := h.accepting (h'.accepting ha)
  terminated ht := h'.terminated (h.terminated ht)
  killed hk := h'.killed (h.killed hk)
  timedOut ht := h'.timedOut (h.timedOut ht)
  name := h'.name.trans h.name

lemma isOver (h : x.Follows x') (ended : x.isOver = true) : x'.isOver = true := by
  rw [Session.isOver, Bool.or_eq_true, Bool.or_eq_true] at ended ⊢
  exact ended.imp (Or.imp h.killed h.timedOut) h.terminated

lemma backlog_eq_none_iff (h : x.Follows x') : x'.backlog = none ↔ x.backlog = none := by
  rw [← Option.isNone_iff_eq_none, ← Option.isNone_iff_eq_none, ← Option.not_isSome, ← Option.not_isSome, h.backlog]

lemma backlog_eq_none (h : x.Follows x') (none_ : x'.backlog = none) : x.backlog = none :=
  h.backlog_eq_none_iff.mp none_

lemma setHook (x : Session) (hook : SessionHook) (p : ProcessId) : x.Follows ((x.setHook hook p).toOption.getD x) := by
  obtain ⟨future, cancelFuture, hset⟩ := x.setHook_getD hook p
  rw [hset]
  exact ⟨rfl, rfl, id, id, id, id, rfl⟩

lemma setNotified (x : Session) (notified : Bool) : x.Follows (x.setNotified notified) :=
  ⟨rfl, Option.isSome_map, id, id, id, id, rfl⟩

lemma stopAccepting (x : Session) : x.Follows x.stopAccepting :=
  ⟨rfl, rfl, nofun, id, id, id, rfl⟩

lemma land (x : Session) : x.Follows { x with inFlight := none } :=
  ⟨rfl, rfl, id, id, id, id, rfl⟩

lemma finish (x : Session) : x.Follows x.finish :=
  ⟨rfl, rfl, nofun, fun _ => rfl, id, id, rfl⟩

lemma kill (x : Session) : x.Follows x.kill :=
  ⟨rfl, Option.isSome_map, nofun, fun _ => rfl, fun _ => rfl, id, rfl⟩

lemma begin {f : InFlight} (h : x.begin f = .ok x') : x.Follows x' := by
  obtain ⟨-, -, rfl⟩ := Session.begin_eq_ok h
  exact ⟨rfl, rfl, id, id, id, id, rfl⟩

lemma expire? {elapsed : Nat} (h : x.expire? elapsed = some x') : x.Follows x' := by
  obtain ⟨-, rfl⟩ := Session.expire?_eq_some h
  exact ⟨rfl, rfl, nofun, id, id, fun _ => rfl, rfl⟩

lemma enqueue {b : Backlog} {t : Task} (backlog : x.backlog = some b) (h : x.enqueue b t = .ok x') : x.Follows x' := by
  obtain ⟨-, rfl⟩ := Session.enqueue_eq_ok h
  exact ⟨rfl, by rw [backlog]; rfl, id, id, id, id, rfl⟩

lemma dequeue? {t : Task} (h : x.dequeue? = some (t, x')) : x.Follows x' := by
  obtain ⟨b, rest, hb, -, rfl⟩ := Session.dequeue?_eq_some h
  exact ⟨rfl, by rw [hb]; rfl, id, id, id, id, rfl⟩

lemma drain (x : Session) : x.Follows x.drain.2 := by
  rw [Session.drain_snd]
  exact ⟨rfl, Option.isSome_map, id, id, id, id, rfl⟩

end Follows

/-- What a session can become without coming to its end. -/
structure Calms (x x' : Session) : Prop where
  follows : x.Follows x'
  isOver : x'.isOver = true → x.isOver = true
  terminated : x'.terminated = true → x.terminated = true

namespace Calms

variable {x x' x'' : Session}

lemma trans (h : x.Calms x') (h' : x'.Calms x'') : x.Calms x'' :=
  ⟨h.follows.trans h'.follows, fun ho => h.isOver (h'.isOver ho), fun ht => h.terminated (h'.terminated ht)⟩

lemma isOver_eq_false (h : x.Calms x') (lives : x.isOver = false) : x'.isOver = false :=
  Bool.eq_false_iff.mpr fun ho => Bool.false_ne_true (lives.symm.trans (h.isOver ho))

lemma land (x : Session) : x.Calms { x with inFlight := none } := ⟨.land x, id, id⟩

lemma setNotified (x : Session) (notified : Bool) : x.Calms (x.setNotified notified) := ⟨.setNotified x notified, id, id⟩

lemma stopAccepting (x : Session) : x.Calms x.stopAccepting := ⟨.stopAccepting x, id, id⟩

lemma setHook (x : Session) (hook : SessionHook) (p : ProcessId) : x.Calms ((x.setHook hook p).toOption.getD x) := by
  have follows := Follows.setHook x hook p
  obtain ⟨future, cancelFuture, hset⟩ := x.setHook_getD hook p
  rw [hset] at follows ⊢
  exact ⟨follows, id, id⟩

lemma dequeue? {t : Task} (h : x.dequeue? = some (t, x')) : x.Calms x' := by
  have follows := Follows.dequeue? h
  obtain ⟨b, rest, -, -, rfl⟩ := Session.dequeue?_eq_some h
  exact ⟨follows, id, id⟩

lemma enqueue {b : Backlog} {t : Task} (backlog : x.backlog = some b) (h : x.enqueue b t = .ok x') : x.Calms x' := by
  have follows := Follows.enqueue backlog h
  obtain ⟨-, rfl⟩ := Session.enqueue_eq_ok h
  exact ⟨follows, id, id⟩

lemma drain (x : Session) : x.Calms x.drain.2 := by
  have follows := Follows.drain x
  rw [Session.drain_snd] at follows ⊢
  exact ⟨follows, id, id⟩

end Calms

end Session

namespace System

/-! ### Processes -/

/-- Whether a process can be given a turn to take steps: it has not ended and was not stopped. -/
def isActive (s : System) (p : ProcessId) : Bool :=
  s.processes[p]?.any fun x => !x.program.isFinished && !x.cancelled

variable {s s' s'' : System}

lemma isActive_eq (h : s'.processes = s.processes) (p : ProcessId) : s'.isActive p = s.isActive p := by
  rw [isActive, isActive, h]

lemma lt_of_program? {p : ProcessId} {program : Program} (h : s.program? p = some program) :
    p < s.processes.length := by
  rw [program?, Option.map_eq_some_iff] at h
  obtain ⟨x, hx, -⟩ := h
  exact (List.getElem?_eq_some_iff.mp hx).1

lemma program?_onProcess (s : System) (p q : ProcessId) (f : Process → Process) :
    (s.onProcess p f).program? q = if p = q then s.processes[q]?.map fun x => (f x).program else s.program? q := by
  rw [program?, onProcess]
  by_cases h : p = q
  · subst h
    rw [if_pos rfl, List.getElem?_modify_eq, Option.map_eq_map, Option.map_map]
    rfl
  · rw [if_neg h, List.getElem?_modify_ne _ _ h, program?]

lemma length_onProcess (s : System) (p : ProcessId) (f : Process → Process) :
    (s.onProcess p f).processes.length = s.processes.length :=
  List.length_modify ..

/-- Stopping a process moves none. -/
lemma program?_abort (s : System) (p q : ProcessId) : (s.abort p).program? q = s.program? q := by
  have outcome := s.abort_outcome p
  generalize s.abort p = s' at outcome ⊢
  cases outcome with
  | spares => rfl
  | stops =>
    rw [(Quiet.wake _ p).program?, program?_onProcess]
    split <;> rfl

lemma length_abort (s : System) (p : ProcessId) : (s.abort p).processes.length = s.processes.length := by
  have outcome := s.abort_outcome p
  generalize s.abort p = s' at outcome ⊢
  cases outcome with
  | spares => rfl
  | stops => rw [(Quiet.wake _ p).processes, length_onProcess]

lemma length_abortAll (s : System) (ps : List ProcessId) : (s.abortAll ps).processes.length = s.processes.length := by
  induction ps generalizing s with
  | nil => rfl
  | cons p ps ih => exact (ih (s.abort p)).trans (length_abort s p)

lemma abortAll_sessions (s : System) (ps : List ProcessId) : (s.abortAll ps).sessions = s.sessions := by
  induction ps generalizing s with
  | nil => rfl
  | cons p ps ih => exact (ih (s.abort p)).trans (abort_sessions s p)

/-- A process that was stopped takes no steps, and no process takes steps again for another one's stop. -/
lemma isActive_abort (s : System) (p q : ProcessId) : (s.abort p).isActive q = (s.isActive q && decide (p ≠ q)) := by
  have outcome := s.abort_outcome p
  generalize s.abort p = s' at outcome ⊢
  cases outcome with
  | spares idle =>
    by_cases h : p = q
    · subst h
      rw [decide_eq_false (not_not.mpr rfl), Bool.and_false, isActive]
      cases hx : s.processes[p]? with
      | none => rfl
      | some x => rw [Option.any_some, idle x.program (by rw [program?, hx, Option.map_some]), Bool.not_true, Bool.false_and]
    · rw [decide_eq_true h, Bool.and_true]
  | stops =>
    rw [isActive_eq (Quiet.wake _ p).processes, isActive, onProcess]
    by_cases h : p = q
    · subst h
      rw [List.getElem?_modify_eq, decide_eq_false (not_not.mpr rfl), Bool.and_false]
      cases s.processes[p]? with
      | none => rfl
      | some x => simp
    · rw [List.getElem?_modify_ne _ _ h, decide_eq_true h, Bool.and_true, isActive]

lemma isActive_of_abortAll {ps : List ProcessId} {q : ProcessId} (h : (s.abortAll ps).isActive q = true) :
    s.isActive q = true ∧ q ∉ ps := by
  induction ps generalizing s with
  | nil => exact ⟨h, List.not_mem_nil⟩
  | cons p ps ih =>
    obtain ⟨hactive, hps⟩ := ih (s := s.abort p) h
    rw [isActive_abort] at hactive
    obtain ⟨hs, hp⟩ := Bool.and_eq_true_iff.mp hactive
    exact ⟨hs, List.not_mem_cons_of_ne_of_not_mem (Ne.symm (of_decide_eq_true hp)) hps⟩

/-! ### Going on -/

/-- Between two states of a server the sessions only went on, and no process moved or came back. -/
structure Onward (s s' : System) : Prop where
  service : s'.service = s.service
  follows : ∀ (i : SessionId) (x : Session), s.sessions[i]? = some x → ∃ x', s'.sessions[i]? = some x' ∧ x.Follows x'
  grows : s.processes.length ≤ s'.processes.length
  programs : ∀ p, p < s.processes.length → s'.program? p = s.program? p
  active : ∀ p, p < s.processes.length → s'.isActive p = true → s.isActive p = true

namespace Onward

lemma refl (s : System) : s.Onward s :=
  ⟨rfl, fun _ x hx => ⟨x, hx, .refl x⟩, Nat.le_refl _, fun _ _ => rfl, fun _ _ => id⟩

lemma trans (h : s.Onward s') (h' : s'.Onward s'') : s.Onward s'' where
  service := h'.service.trans h.service
  follows i x hx := by
    obtain ⟨x', hx', hfollows⟩ := h.follows i x hx
    obtain ⟨x'', hx'', hfollows'⟩ := h'.follows i x' hx'
    exact ⟨x'', hx'', hfollows.trans hfollows'⟩
  grows := h.grows.trans h'.grows
  programs p hp := (h'.programs p (hp.trans_le h.grows)).trans (h.programs p hp)
  active p hp ha := h.active p hp (h'.active p (hp.trans_le h.grows) ha)

lemma of_still (h : s.Still s') : s.Onward s' where
  service := h.service
  follows i x hx := ⟨x, by rw [h.sessions, hx], .refl x⟩
  grows := by rw [h.processes]
  programs p _ := h.program? p
  active p _ ha := isActive_eq h.processes p ▸ ha

lemma program? (h : s.Onward s') {p : ProcessId} {program : Program} (hp : s.program? p = some program) :
    s'.program? p = some program :=
  (h.programs p (lt_of_program? hp)).trans hp

end Onward

/-! ### What affects one session -/

/-- Between two states of a server all sessions but one stayed as they are, that one went on, and no process began to
execute the tasks of another one. -/
structure Affects (j : SessionId) (s s' : System) : Prop where
  service : s'.service = s.service
  table : s'.table = s.table
  length : s'.sessions.length = s.sessions.length
  others : ∀ i, i ≠ j → s'.sessions[i]? = s.sessions[i]?
  follows : ∀ x : Session, s.sessions[j]? = some x → ∃ x', s'.sessions[j]? = some x' ∧ x.Follows x'
  grows : s.processes.length ≤ s'.processes.length
  programs : ∀ p, p < s.processes.length → s'.program? p = s.program? p
  active : ∀ p, p < s.processes.length → s'.isActive p = true → s.isActive p = true
  fresh : ∀ p program, s.processes.length ≤ p → s'.program? p = some program → ∀ i, i ≠ j → program.attends i = false

namespace Affects

variable {i j : SessionId}

lemma onward (h : Affects j s s') : s.Onward s' where
  service := h.service
  follows i x hx := by
    by_cases hi : i = j
    · subst hi
      exact h.follows x hx
    · exact ⟨x, by rw [h.others i hi, hx], .refl x⟩
  grows := h.grows
  programs := h.programs
  active := h.active

lemma of_still (h : s.Still s') (j : SessionId) : Affects j s s' where
  service := h.service
  table := h.table
  length := by rw [h.sessions]
  others i _ := by rw [h.sessions]
  follows x hx := ⟨x, by rw [h.sessions, hx], .refl x⟩
  grows := by rw [h.processes]
  programs p _ := h.program? p
  active p _ ha := isActive_eq h.processes p ▸ ha
  fresh p program hp hprogram := by
    rw [h.program?] at hprogram
    exact absurd (lt_of_program? hprogram) (Nat.not_lt.mpr hp)

lemma refl (s : System) (j : SessionId) : Affects j s s :=
  of_still (.refl s) j

lemma trans (h : Affects j s s') (h' : Affects j s' s'') : Affects j s s'' where
  service := h'.service.trans h.service
  table := h'.table.trans h.table
  length := h'.length.trans h.length
  others i hi := (h'.others i hi).trans (h.others i hi)
  follows x hx := by
    obtain ⟨x', hx', hfollows⟩ := h.follows x hx
    obtain ⟨x'', hx'', hfollows'⟩ := h'.follows x' hx'
    exact ⟨x'', hx'', hfollows.trans hfollows'⟩
  grows := h.grows.trans h'.grows
  programs p hp := (h'.programs p (hp.trans_le h.grows)).trans (h.programs p hp)
  active p hp ha := h.active p hp (h'.active p (hp.trans_le h.grows) ha)
  fresh p program hp hprogram := by
    by_cases hlt : p < s'.processes.length
    · exact h.fresh p program hp ((h'.programs p hlt).symm.trans hprogram)
    · exact h'.fresh p program (Nat.le_of_not_lt hlt) hprogram

/-- What the session was before. -/
lemma exists_before (h : Affects j s s') {x' : Session} (hx' : s'.sessions[j]? = some x') :
    ∃ x, s.sessions[j]? = some x ∧ x.Follows x' := by
  have hlt := (List.getElem?_eq_some_iff.mp hx').1
  rw [h.length] at hlt
  obtain ⟨y, hy, hfollows⟩ := h.follows _ (List.getElem?_eq_getElem hlt)
  cases hx'.symm.trans hy
  exact ⟨_, List.getElem?_eq_getElem hlt, hfollows⟩

/-- A change of the session. -/
lemma onSession (s : System) (j : SessionId) (f : Session → Session)
    (hf : ∀ x, s.sessions[j]? = some x → x.Follows (f x)) : Affects j s (s.onSession j f) where
  service := rfl
  table := rfl
  length := List.length_modify ..
  others i hi := List.getElem?_modify_ne _ _ (Ne.symm hi)
  follows x hx := ⟨f x, by rw [System.onSession, List.getElem?_modify_eq, hx]; rfl, hf x hx⟩
  grows := Nat.le_refl _
  programs _ _ := rfl
  active _ _ := id
  fresh p program hp hprogram := absurd (lt_of_program? hprogram) (Nat.not_lt.mpr hp)

lemma abort (s : System) (p : ProcessId) (j : SessionId) : Affects j s (s.abort p) := by
  have hsessions := abort_sessions s p
  refine ⟨abort_service s p, abort_table s p, by rw [hsessions], fun i _ => by rw [hsessions],
    fun x hx => ⟨x, by rw [hsessions, hx], .refl x⟩, (length_abort s p).ge, fun q _ => program?_abort s p q,
    fun q _ ha => ?_, fun q program hq hprogram => ?_⟩
  · rw [isActive_abort] at ha
    exact (Bool.and_eq_true_iff.mp ha).1
  · rw [program?_abort] at hprogram
    exact absurd (lt_of_program? hprogram) (Nat.not_lt.mpr hq)

/-- A process starts that does not execute the tasks of another session. -/
lemma spawn (s : System) {program : Program} (own : ∀ i, i ≠ j → program.attends i = false) :
    Affects j s (s.spawn program).1 := by
  have hadd : Affects j s (s.addProcess program).1 := by
    refine ⟨rfl, rfl, rfl, fun _ _ => rfl, fun x hx => ⟨x, hx, .refl x⟩, ?_, ?_, ?_, ?_⟩
    · exact (List.length_append ..).ge.trans' (Nat.le_add_right _ _)
    · intro p hp
      rw [program?, program?, addProcess]
      dsimp only
      rw [List.getElem?_append_left hp]
    · intro p hp ha
      rw [isActive, addProcess] at ha
      dsimp only at ha
      rwa [List.getElem?_append_left hp] at ha
    · intro p program' hp hprogram
      rw [program?, addProcess] at hprogram
      dsimp only at hprogram
      rw [List.getElem?_append_right hp, Option.map_eq_some_iff] at hprogram
      obtain ⟨x, hx, rfl⟩ := hprogram
      rw [List.mem_singleton.mp (List.mem_of_getElem? hx)]
      exact own
  exact hadd.trans (of_still (Quiet.wake _ _).toStill j)

end Affects

/-! ### What affects one session and recruits nobody -/

/-- Between two states of a server a process began to execute the tasks of a session. -/
def Recruits (i : SessionId) (s s' : System) : Prop :=
  ∃ p program, s.processes.length ≤ p ∧ s'.program? p = some program ∧ program.attends i = true

/-- Between two states of a server only one session changed, and nobody began to execute tasks. -/
structure Tends (j : SessionId) (s s' : System) : Prop extends Affects j s s' where
  nobody : ¬ Recruits j s s'

namespace Tends

variable {j : SessionId}

lemma of_still (h : s.Still s') (j : SessionId) : Tends j s s' where
  toAffects := .of_still h j
  nobody := fun ⟨_, _, hp, hprogram, _⟩ =>
    Nat.not_lt.mpr hp (lt_of_program? ((h.program? _).symm.trans hprogram))

lemma refl (s : System) (j : SessionId) : Tends j s s :=
  of_still (.refl s) j

lemma trans (h : Tends j s s') (h' : Tends j s' s'') : Tends j s s'' where
  toAffects := h.toAffects.trans h'.toAffects
  nobody := fun ⟨p, program, hp, hprogram, he⟩ => by
    by_cases hlt : p < s'.processes.length
    · exact h.nobody ⟨p, program, hp, (h'.programs p hlt).symm.trans hprogram, he⟩
    · exact h'.nobody ⟨p, program, Nat.le_of_not_lt hlt, hprogram, he⟩

lemma onSession (s : System) (j : SessionId) (f : Session → Session)
    (hf : ∀ x, s.sessions[j]? = some x → x.Follows (f x)) : Tends j s (s.onSession j f) where
  toAffects := .onSession s j f hf
  nobody := fun ⟨_, _, hp, hprogram, _⟩ => Nat.not_lt.mpr hp (lt_of_program? hprogram)

lemma abort (s : System) (p : ProcessId) (j : SessionId) : Tends j s (s.abort p) where
  toAffects := .abort s p j
  nobody := fun ⟨_, _, hq, hprogram, _⟩ =>
    Nat.not_lt.mpr hq (lt_of_program? ((program?_abort s p _).symm.trans hprogram))

lemma abortAll (s : System) (ps : List ProcessId) (j : SessionId) : Tends j s (s.abortAll ps) := by
  induction ps generalizing s with
  | nil => exact refl s j
  | cons p ps ih => exact (abort s p j).trans (ih (s.abort p))

lemma spawn (s : System) {program : Program} (idle : ∀ i, program.attends i = false) (j : SessionId) :
    Tends j s (s.spawn program).1 where
  toAffects := .spawn s fun i _ => idle i
  nobody := fun ⟨p, program', hp, hprogram, he⟩ =>
    Bool.false_ne_true (((Affects.spawn s fun i _ => idle i).fresh p program' hp hprogram j
      (Nat.ne_of_lt (Nat.lt_succ_self j))).symm.trans he)

lemma notify (s : System) (j : SessionId) : Tends j s (s.notify j) := by
  rw [System.notify]
  have hset := onSession s j (·.setNotified true) fun x _ => .setNotified x true
  split
  · exact hset.trans (of_still (Quiet.wakeIf _ _ _).toStill j)
  · exact hset

/-! ### What sessions are made of -/

lemma interrupt (s : System) (p : ProcessId) (j : SessionId) (elapsed : Nat) (ofSession : Bool) :
    Tends j s (s.interrupt p j elapsed ofSession).1 := by
  have outcome := s.interrupt_outcome p j elapsed ofSession
  generalize s.interrupt p j elapsed ofSession = x at outcome ⊢
  cases outcome with
  | rests => exact refl s j
  | stops =>
    exact ((onSession s j _ fun x _ => .land x).trans (abort _ _ j)).trans (of_still (.replyTimeout _ p _ _ _) j)

lemma disarm (s : System) (j : SessionId) : Tends j s (s.disarm j) :=
  abortAll s _ j

lemma finishSession (s : System) (j : SessionId) : Tends j s (s.finishSession j) :=
  (onSession s j _ fun x _ => .finish x).trans (disarm _ j)

lemma closeMulti (s : System) (j : SessionId) : Tends j s (s.closeMulti j) :=
  (onSession s j _ fun x _ => .stopAccepting x).trans (notify _ j)

lemma kill (s : System) (j : SessionId) : Tends j s (s.kill j) := by
  rw [System.kill]
  split
  · exact refl s j
  · exact (onSession s j _ fun x _ => .kill x).trans (abortAll _ _ j)

lemma armLifetime (s : System) (j : SessionId) : Tends j s (s.armLifetime j) := by
  rw [System.armLifetime]
  dsimp only
  split
  · exact refl s j
  · exact (spawn s (fun _ => rfl) j).trans (onSession _ j _ fun x _ => .setHook x _ _)

end Tends

end System

end GraphServer
