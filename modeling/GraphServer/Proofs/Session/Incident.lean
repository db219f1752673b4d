import GraphServer.Proofs.Session.Playing
import GraphServer.Proofs.System.Vigil

/-!
Everything that can happen to a session on a server of its own, its end by force included.

* `Incident`, `Opening.undergo`: the moves of a chronicle, and that the session is killed;
* `System.Evolves`: what becomes of the server with each of them;
* `System.Evolves.vigilant`: **no process sleeps that could go on**, whatever happens;
* `Session.Lasts`, `System.Evolves.lasts`: what nothing that is done to a session can undo lasts whatever happens.
-/

namespace GraphServer

open Opening (session channel)

/-- What can happen to a server with one session. -/
inductive Incident where
  | move (m : Move)
  /-- The session is ended at once. -/
  | kill

namespace Chronicle

/-- The chronicle after an incident. -/
def incur (h : Chronicle) : Incident → Chronicle
  | .move m => h.next m
  | .kill => { h with system := h.system.kill session }

/-- The chronicle after incidents. -/
def undergo (h : Chronicle) (incidents : List Incident) : Chronicle :=
  incidents.foldl incur h

end Chronicle

/-- What happens to a session that is opened on a server of its own. -/
def Opening.undergo (service : Service) (transport : Transport) (o : Opening) (incidents : List Incident) : Chronicle :=
  Chronicle.undergo { system := o.start service transport } incidents

/-! ### What becomes of the server -/

/-- What becomes of a server with an incident. -/
inductive System.Evolves (s : System) : System → Prop
  | changes {s' : System} (changes : s.Changes s') : Evolves s s'
  | turns (p : ProcessId) (allowance n : Nat) : Evolves s ({ s with ready := s.ready.erase p }.turn p allowance n).1
  | returns : Evolves s s.bringBack
  | rings (now : Nat) : Evolves s (s.ring now)
  | waits (wall : Nat) : Evolves s { s with wall }

lemma Chronicle.system_submit (h : Chronicle) (r : Request) : (h.next (.submit r)).system =
    ((h.system.makeTask r channel).1.submitTask session (h.system.makeTask r channel).2).1 := by
  rw [Chronicle.next]
  dsimp only
  split <;> rename_i heq <;> exact (congrArg Prod.fst heq).symm

lemma Chronicle.submit_changes (h : Chronicle) (r : Request) : h.system.Changes (h.next (.submit r)).system := by
  have made : h.system.Changes (h.system.makeTask r channel).1 := .of_change (.context _)
  rw [h.system_submit r]
  exact made.trans (.submitTask _ session _)

lemma Chronicle.incur_evolves (h : Chronicle) (e : Incident) : h.system.Evolves (h.incur e).system := by
  cases e with
  | kill => exact .changes (.kill _ _)
  | move m =>
    cases m with
    | submit r => exact .changes (h.submit_changes r)
    | timeout elapsed ofSession => exact .changes (.of_change (.starts rfl))
    | close => exact .changes (.closeMulti _ _)
    | turn p allowance more => exact .turns p allowance (more + 1)
    | bringBack => exact .returns
    | ring now => exact .rings now
    | wait wall => exact .waits wall
    | traffic f => exact .changes (.of_change (.starts rfl))
    | transport f => exact .changes ((System.Changes.of_change (.channel channel _)).trans (.wakeAll _ _))

lemma Opening.start_changes (service : Service) (transport : Transport) (o : Opening) :
    ({ service } : System).Changes (o.start service transport) := by
  have opened := System.Changes.openChannel { service } transport
  cases o with
  | single name => exact opened.trans (.of_change (.opens _))
  | multi name limit => exact opened.trans (.openMulti _ _ _ _)
  | watched name limit => exact (opened.trans (.openMulti _ _ _ _)).trans (.armLifetime _ _)

namespace System

variable {s s' : System} {p : ProcessId}

/-- A turn of a process, of any length. -/
lemma Vigilant.turn (h : Vigilant none s) (p : ProcessId) (allowance n : Nat) :
    Vigilant none ({ s with ready := s.ready.erase p }.turn p allowance n).1 := by
  have begun := h.begins p
  generalize { s with ready := s.ready.erase p } = s₁ at begun ⊢
  rw [System.turn]
  split
  next unknown =>
    refine begun.misses fun y hy => ?_
    cases unknown.symm.trans hy
  next y hy =>
    split_ifs with finished cancelled
    · refine begun.misses fun z hz => ?_
      cases hy.symm.trans hz
      exact finished
    · exact begun.cancel y.program
    · refine Vigilant.run (s := { s₁ with allowance }) (begun.frame rfl (fun _ => id) fun _ _ => .inr) (fun z hz hc => ?_) n
      cases hy.symm.trans hz
      cases cancelled hc

/-- Whatever happens, no process sleeps that could go on. -/
theorem Evolves.vigilant (evolves : s.Evolves s') (h : Vigilant none s) : Vigilant none s' := by
  cases evolves with
  | changes changes => exact h.changes changes
  | turns p allowance n => exact h.turn p allowance n
  | returns => exact h.bringBack
  | rings now => exact h.ring now
  | waits wall => exact h.frame rfl (fun _ => id) fun _ _ => .inr

end System

/-- After any moves no process sleeps that could go on. -/
lemma Opening.vigilant (service : Service) (transport : Transport) (o : Opening) (moves : List Move) :
    System.Vigilant none (o.play service transport moves).system := by
  induction moves using List.reverseRecOn with
  | nil => exact System.Vigilant.changes (fun p y hy => by cases hy) (o.start_changes service transport)
  | append_singleton moves move ih =>
    rw [Opening.play, Chronicle.play, List.foldl_append]
    exact (Chronicle.incur_evolves _ (.move move)).vigilant ih

/-! ### What lasts -/

/-- What nothing that is done to a session can undo. -/
def Session.Lasts (P : Session → Prop) : Prop :=
  ∀ x x' : Session, x.Amends x' → P x → P x'

namespace System

variable {s s' : System} {i : SessionId} {p : ProcessId} {P : Session → Prop}

/-- A session stands in a certain way. -/
def Holds (i : SessionId) (P : Session → Prop) (s : System) : Prop :=
  ∃ x, s.sessions[i]? = some x ∧ P x

namespace Holds

lemma congr (h : Holds i P s) (sessions : s'.sessions = s.sessions) : Holds i P s' := by
  rwa [Holds, sessions]

lemma change (h : Holds i P s) (lasts : Session.Lasts P) (c : s.Change s') : Holds i P s' := by
  obtain ⟨x, hx, hP⟩ := h
  cases c with
  | wakes p => exact congr ⟨x, hx, hP⟩ (Quiet.wake s p).sessions
  | @starts N fresh => exact congr ⟨x, hx, hP⟩ (Quiet.wake (s.addProcess N).1 _).sessions
  | stops p => exact congr ⟨x, hx, hP⟩ (s.abort_sessions p)
  | @session j f amends =>
    by_cases hj : j = i
    · subst hj
      refine ⟨f x, ?_, lasts x (f x) (amends x hx) hP⟩
      rw [System.onSession, List.getElem?_modify_eq, hx]
      rfl
    · refine ⟨x, ?_, hP⟩
      rw [System.onSession, List.getElem?_modify_ne _ _ hj, hx]
  | opens y =>
    refine ⟨x, ?_, hP⟩
    change (s.sessions ++ [y])[i]? = some x
    rw [List.getElem?_append_left (List.getElem?_eq_some_iff.mp hx).1, hx]
  | _ => exact ⟨x, hx, hP⟩

lemma changes (h : Holds i P s) (lasts : Session.Lasts P) (c : s.Changes s') : Holds i P s' :=
  c.keeps (fun _ _ h c => h.change lasts c) h

lemma suspend (h : Holds i P s) (p : ProcessId) (N : Program) : Holds i P (s.suspend p N) := by
  refine h.congr ?_
  rw [System.suspend]
  split
  · rfl
  · exact (Quiet.setAlarms (s.setProgram p N) p N.due?.toList).sessions

lemma finish (h : Holds i P s) (p : ProcessId) (result : Option (Except Error Unit)) : Holds i P (s.finish p result) :=
  h.congr (Quiet.wakeAll _ _).sessions

lemma run (h : Holds i P s) (lasts : Session.Lasts P) (p : ProcessId) (n : Nat) : Holds i P (System.run p n s) := by
  induction n generalizing s with
  | zero => exact h.congr (Quiet.wake s p).sessions
  | succ n ih =>
    rw [System.run]
    split
    · exact h
    next N _ =>
      have stepped := h.changes lasts (Changes.step s p N)
      generalize s.step p N = x at stepped
      obtain ⟨s', turn⟩ := x
      cases turn with
      | go next => exact ih (stepped.congr rfl)
      | wait next => exact stepped.suspend p next
      | done result => exact stepped.finish p _

/-- A turn of a process, of any length. -/
lemma turn (h : Holds i P s) (lasts : Session.Lasts P) (p : ProcessId) (allowance n : Nat) :
    Holds i P (s.turn p allowance n).1 := by
  rw [System.turn]
  split
  · exact h
  · split_ifs
    · exact h
    · refine finish ?_ p none
      split
      next y _ => exact h.changes lasts (Changes.giveUp s p y)
      next => exact h
    · exact run (s := { s with allowance }) (h.congr rfl) lasts p n

end Holds

/-- Whatever happens, what lasts in a session lasts. -/
theorem Evolves.lasts (evolves : s.Evolves s') (lasts : Session.Lasts P) (h : Holds i P s) : Holds i P s' := by
  cases evolves with
  | changes changes => exact h.changes lasts changes
  | turns p allowance n => exact Holds.turn (s := { s with ready := s.ready.erase p }) (h.congr rfl) lasts p allowance n
  | returns => exact h.congr (Quiet.bringBack s).sessions
  | rings now => exact h.congr (Quiet.ring s now).sessions
  | waits wall => exact h.congr rfl

end System

end GraphServer
