import GraphServer.Proofs.Server.Dossier
import GraphServer.Proofs.System.Rousing

/-!
How the tasks of many sessions are looked after while none of them is ended before its tasks are done.

* `System.InHands`: the tasks that a session accepted wait in it, are executed by its process, or are answered;
* `System.Tended`: its process does not sleep while there is something for it to do;
* `System.Tidy`: this is so for every session, and every process is of a known kind;
* `System.Tidy.deals`, `System.Tidy.move`: what a process does for one session, and where it goes on, leaves the other
  sessions tended.
-/

namespace GraphServer

namespace Program

/-- The context of the task that a program executes. -/
def task? : Program → Option ContextId
  | single _ (.start t) | single _ (.joining t ..) => some t.context
  | worker _ (.running (.start t)) | worker _ (.running (.joining t ..)) => some t.context
  | _ => none

/-- Whether a program has to do with the time of a session. -/
def isWatch : Program → Bool
  | lifetime .. | timeout .. => true
  | _ => false

/-- Whether a program executes the only task of a session. -/
def isSingle : Program → Bool
  | single .. => true
  | _ => false

lemma isWatch_of_handles? {P : Program} {k : ContextId} (h : P.handles? = some k) : P.isWatch = false := by
  cases P with
  | handler j point => rfl
  | _ => cases h

/-- A program that executes the tasks of a session does nothing else. -/
lemma only_attends {P : Program} {i : SessionId} (attends : P.attends i = true) :
    P.handles? = none ∧ P.isWatch = false ∧ P.isFinished = false ∧ ∀ j, P.attends j = true → j = i := by
  cases P with
  | single l point | worker l point =>
    exact ⟨rfl, rfl, rfl, fun j hj => (beq_iff_eq.mp hj).symm.trans (beq_iff_eq.mp attends)⟩
  | _ => cases attends

end Program

/-- The contexts of the tasks that wait in a session. -/
def Session.waiting (x : Session) : List ContextId :=
  match x.backlog with
  | some b => b.tasks.map (·.context)
  | none => []

namespace System

variable {held held' : SessionId → ContextId → Prop} {s s' s'' : System} {i j : SessionId} {x x' : Session}
  {p q r : ProcessId} {k : ContextId} {P N : Program} {y y' : Process} {turning turning' : Option ProcessId}
  {skip : Option SessionId}

/-! ### One session -/

/-- The process that executes the tasks of a session. -/
def executor? (s : System) (i : SessionId) : Option ProcessId :=
  s.sessions[i]?.bind (·.future)

/-- A process that was not stopped runs the handler for a context, or has returned from it. -/
def Answering (s : System) (h : ProcessId) (k : ContextId) : Prop :=
  ∃ y, s.processes[h]? = some y ∧ y.cancelled = false ∧
    (y.program.handles? = some k ∨ ∃ result, y.program = .finished (some result))

/-- The tasks of a session are in the hands of a process: those that were accepted, of which `held` tells, wait, are
executed, or are answered. -/
structure InHands (held : SessionId → ContextId → Prop) (s : System) (i : SessionId) (x : Session) (P : Program) :
    Prop where
  attends : P.attends i = true ∨ ∃ result, P = .finished (some result)
  /-- A session for one task has it. -/
  lone : x.backlog = none → x.accepting = false
  kind : P.isSingle = true → x.backlog = none
  ended : P.isFinished = true → x.waiting = [] ∧ x.accepting = false
  heard : P.isResting = true → x.isNotified = true ∨ x.waiting = []
  joins : ∀ h, P.isJoining h = true → ∃ k, P.task? = some k ∧ x.inFlight = some ⟨k, h⟩ ∧ s.Answering h k
  tasks : ∀ k, k ∈ x.waiting ∨ P.task? = some k → held i k
  cared : ∀ k, held i k → s.isConcluded k = true ∨ k ∈ x.waiting ∨ P.task? = some k
  watched : ∀ p, x.cancelFuture = some p → ∃ Q, s.program? p = some Q ∧ (Q.isWatch = true ∨ Q.isFinished = true)

/-- The process of a session may wait at a point until somebody wakes it. -/
inductive MayRest (s : System) (x : Session) (P : Program) : Prop
  | finished (ended : P.isFinished = true)
  | resting (resting : P.isResting = true) (unnotified : x.isNotified = false)
  | joining {h : ProcessId} (joining : P.isJoining h = true) (unended : s.result? h = none)

/-- It may wait as long as the session is not notified and what it waits for has not ended. -/
lemma MayRest.mono {P : Program} (rest : s.MayRest x P) (notified : x'.isNotified = x.isNotified)
    (unended : ∀ h, P.isJoining h = true → s.result? h = none → s'.result? h = none) : s'.MayRest x' P := by
  cases rest with
  | finished ended => exact .finished ended
  | resting resting unnotified => exact .resting resting (notified.trans unnotified)
  | joining joins unended' => exact .joining joins (unended _ joins unended')

/-- A session is tended by its process, which is awake, may rest or has its turn. -/
structure Tended (held : SessionId → ContextId → Prop) (turning : Option ProcessId) (s : System) (i : SessionId)
    (x : Session) : Prop where
  staffed : ∃ q y, x.future = some q ∧ s.processes[q]? = some y ∧ y.cancelled = false ∧
    s.InHands held i x y.program ∧ (turning = some q ∨ s.isAwake q = true ∨ s.MayRest x y.program)

/-! ### All of them -/

/-- What a process may be about on a server to which one client is connected, while no session ends before its tasks are
done. -/
def Expects (held : SessionId → ContextId → Prop) (s : System) (p : ProcessId) : Program → Prop
  | .handler k _ => ∃ i, held i k
  | .single i _ | .worker i _ => s.executor? i = some p
  | .lifetime i _ _ => i < s.sessions.length
  | .timeout i _ ofSession point => i < s.sessions.length ∧ ofSession = true ∧ point = .start
  | .connection n _ => n = 0 ∧ p = 0
  | .delivery .. => False
  | .writer _ | .finished _ => True

/-- A process is about something that is expected, waits for no queue, and executes tasks only if it was not stopped. -/
structure Known (held : SessionId → ContextId → Prop) (s : System) (p : ProcessId) (y : Process) : Prop where
  expected : s.Expects held p y.program
  idle : y.program.handover? = none
  spared : y.cancelled = true → y.program.handles? ≠ none ∨ y.program.isWatch = true ∨ y.program.isFinished = true

/-- All sessions of a server are tended, one possibly excepted. -/
structure Tidy (held : SessionId → ContextId → Prop) (turning : Option ProcessId) (skip : Option SessionId)
    (s : System) : Prop where
  tended : ∀ i x, skip ≠ some i → s.sessions[i]? = some x → s.Tended held turning i x
  known : ∀ p y, s.processes[p]? = some y → s.Known held p y
  contexts : ∀ (k : ContextId) (y : TaskContext), s.contexts[k]? = some y →
    y.channel = some 0 ∧ (y.finished = true → ∃ i, held i k)
  bounds : ∀ i k, held i k → i < s.sessions.length ∧ k < s.contexts.length
  sole : ∀ i j k, held i k → held j k → i = j
  lives : ∀ (i : SessionId) (x : Session), s.sessions[i]? = some x → x.timedOut = none ∧ x.killed = false

lemma Expects.congr (h : s.Expects held p P) (executor : ∀ i, s.executor? i = some p → s'.executor? i = some p)
    (length : s.sessions.length ≤ s'.sessions.length) : s'.Expects held p P := by
  cases P with
  | single i point | worker i point => exact executor i h
  | lifetime i milliseconds due => exact h.trans_le length
  | timeout i elapsed ofSession point => exact ⟨h.1.trans_le length, h.2⟩
  | handler | connection | delivery | writer | finished => exact h

namespace Known

lemma of_sessions (h : s.Known held p y) (sessions : s'.sessions = s.sessions) : s'.Known held p y :=
  ⟨h.expected.congr (fun i hi => by rwa [executor?, sessions]) (by rw [sessions]), h.idle, h.spared⟩

lemma handles (h : s.Known held p y) (hk : y.program.handles? = some k) : ∃ i, held i k := by
  have expected := h.expected
  cases hP : y.program with
  | handler j point =>
    rw [hP] at hk expected
    cases hk
    exact expected
  | _ => rw [hP] at hk; cases hk

lemma attends (h : s.Known held p y) (hi : y.program.attends i = true) : s.executor? i = some p := by
  have expected := h.expected
  cases hP : y.program with
  | single j point | worker j point =>
    rw [hP] at hi expected
    exact beq_iff_eq.mp hi ▸ expected
  | _ => rw [hP] at hi; cases hi

end Known

lemma program?_of_getElem? (h : s.processes[p]? = some y) : s.program? p = some y.program := by
  rw [program?, h, Option.map_some]

lemma exists_process (h : s.program? p = some P) : ∃ y, s.processes[p]? = some y ∧ y.program = P :=
  Option.map_eq_some_iff.mp h

lemma sessions_spawn (s : System) (P : Program) : (s.spawn P).1.sessions = s.sessions :=
  (Quiet.wake (s.addProcess P).1 _).sessions

lemma contexts_spawn (s : System) (P : Program) : (s.spawn P).1.contexts = s.contexts :=
  (Quiet.wake (s.addProcess P).1 _).contexts

/-- A process that was started is the last one. -/
lemma getElem?_spawn (s : System) (P : Program) : (s.spawn P).1.processes[s.processes.length]? = some { program := P } := by
  rw [show (s.spawn P).1.processes = s.processes ++ [{ program := P }] from (Quiet.wake (s.addProcess P).1 _).processes]
  exact List.getElem?_concat_length

/-- What is left alone of the processes and contexts that matter to a session leaves its tasks in hands. -/
lemma InHands.frame (h : s.InHands held i x P) (same : ∀ k, held' i k ↔ held i k)
    (answering : ∀ h k, x.inFlight = some ⟨k, h⟩ → held i k → s.Answering h k → s'.Answering h k)
    (concluded : ∀ k, s.isConcluded k = true → s'.isConcluded k = true)
    (watched : ∀ p Q, s.program? p = some Q → Q.isWatch = true ∨ Q.isFinished = true →
      ∃ Q', s'.program? p = some Q' ∧ (Q'.isWatch = true ∨ Q'.isFinished = true)) :
    s'.InHands held' i x P where
  attends := h.attends
  lone := h.lone
  kind := h.kind
  ended := h.ended
  heard := h.heard
  joins a ha := by
    obtain ⟨k, task, flight, answers⟩ := h.joins a ha
    exact ⟨k, task, flight, answering a k flight (h.tasks k (.inr task)) answers⟩
  tasks k hk := (same k).mpr (h.tasks k hk)
  cared k hk := (h.cared k ((same k).mp hk)).imp_left (concluded k)
  watched p hp := by
    obtain ⟨Q, hQ, kind⟩ := h.watched p hp
    exact watched p Q hQ kind

/-! ### What is done for one session -/

/-- Between two states of a server something was done for a session, after which no process has moved: the other
sessions are as they were, and nobody else's processes were stopped. -/
structure Deals (held : SessionId → ContextId → Prop) (i : SessionId) (s s' : System) : Prop where
  service : s'.service = s.service
  connections : s'.connections = s.connections
  length : s'.sessions.length = s.sessions.length
  others : ∀ j, j ≠ i → s'.sessions[j]? = s.sessions[j]?
  session : ∀ x : Session, s.sessions[i]? = some x → ∃ x', s'.sessions[i]? = some x' ∧ x'.future = x.future ∧
    x'.timedOut = x.timedOut ∧ x'.killed = x.killed
  processes : ∀ (p : ProcessId) (y : Process), s.processes[p]? = some y →
    ∃ y' : Process, s'.processes[p]? = some y' ∧ y'.program = y.program ∧
    (y'.cancelled = y.cancelled ∨ y.program.isWatch = true ∨ ∃ k, y.program.handles? = some k ∧ held i k)
  fresh : ∀ p y, s.processes[p]? = none → s'.processes[p]? = some y → s'.Known held p y
  contexts : ∀ k, s'.contexts[k]? = s.contexts[k]? ∨
    ∃ y : TaskContext, s.contexts[k]? = some y ∧ s'.contexts[k]? = some { y with finished := true } ∧ ∃ j, held j k
  awake : ∀ p, s.isAwake p = true → s'.isAwake p = true

namespace Deals

lemma executor? (h : Deals held i s s') (j : SessionId) : s'.executor? j = s.executor? j := by
  rw [System.executor?, System.executor?]
  by_cases hj : j = i
  · subst hj
    cases hx : s.sessions[j]? with
    | none =>
      rw [List.getElem?_eq_none (by rw [h.length]; exact List.getElem?_eq_none_iff.mp hx)]
    | some x =>
      obtain ⟨x', hx', future, -⟩ := h.session x hx
      rw [hx', Option.bind_some, Option.bind_some, future]
  · rw [h.others j hj]

/-- A process that is known stays known. -/
lemma known (h : Deals held i s s') (known : s.Known held p y) (program : y'.program = y.program)
    (cancelled : y'.cancelled = y.cancelled ∨ y.program.isWatch = true ∨ ∃ k, y.program.handles? = some k ∧ held i k) :
    s'.Known held p y' where
  expected := program ▸ known.expected.congr (fun j hj => (h.executor? j).trans hj) h.length.ge
  idle := program ▸ known.idle
  spared hc := by
    rw [program]
    obtain same | watch | ⟨k, handles, -⟩ := cancelled
    · exact known.spared (same ▸ hc)
    · exact .inr (.inl watch)
    · exact .inl (by rw [handles]; exact Option.some_ne_none k)

lemma program? (h : Deals held i s s') (hP : s.program? p = some P) : s'.program? p = some P := by
  obtain ⟨y, hy, rfl⟩ := exists_process hP
  obtain ⟨y', hy', program, -⟩ := h.processes p y hy
  rw [program?_of_getElem? hy', program]

lemma result?_eq_none (h : Deals held i s s') (hp : s.result? p = none) (hP : s.program? p = some P) :
    s'.result? p = none := by
  rw [result?, h.program? hP]
  rwa [result?, hP] at hp

lemma isConcluded (h : Deals held i s s') (hk : s.isConcluded k = true) : s'.isConcluded k = true := by
  rw [System.isConcluded] at hk ⊢
  obtain same | ⟨y, -, marked, -⟩ := h.contexts k
  · rwa [same]
  · rw [marked]
    rfl

lemma lengthContexts (h : Deals held i s s') (hk : k < s.contexts.length) : k < s'.contexts.length := by
  obtain same | ⟨y, -, marked, -⟩ := h.contexts k
  · rw [List.getElem?_eq_getElem hk] at same
    exact (List.getElem?_eq_some_iff.mp same).1
  · exact (List.getElem?_eq_some_iff.mp marked).1

/-- A handler goes on answering unless it is one of the session's. -/
lemma answering (h : Deals held i s s') {a : ProcessId} (other : ¬ held i k) (ha : s.Answering a k) :
    s'.Answering a k := by
  obtain ⟨y, hy, lives, kind⟩ := ha
  obtain ⟨y', hy', program, cancelled⟩ := h.processes a y hy
  refine ⟨y', hy', ?_, program ▸ kind⟩
  obtain same | watch | ⟨k', handles, mine⟩ := cancelled
  · rwa [same]
  · obtain handles | ⟨result, ended⟩ := kind
    · cases watch.symm.trans (Program.isWatch_of_handles? handles)
    · rw [ended] at watch
      cases watch
  · obtain handles' | ⟨result, ended⟩ := kind
    · cases handles.symm.trans handles'
      exact absurd mine other
    · rw [ended] at handles
      cases handles

@[refl] lemma refl (held : SessionId → ContextId → Prop) (i : SessionId) (s : System) : Deals held i s s where
  service := rfl
  connections := rfl
  length := rfl
  others _ _ := rfl
  session x hx := ⟨x, hx, rfl, rfl, rfl⟩
  processes _ y hy := ⟨y, hy, rfl, .inl rfl⟩
  fresh _ _ hnone hy := by cases hnone.symm.trans hy
  contexts _ := .inl rfl
  awake _ := id

lemma trans (h : Deals held i s s') (h' : Deals held i s' s'') : Deals held i s s'' where
  service := h'.service.trans h.service
  connections := h'.connections.trans h.connections
  length := h'.length.trans h.length
  others j hj := (h'.others j hj).trans (h.others j hj)
  session x hx := by
    obtain ⟨x', hx', future, timedOut, killed⟩ := h.session x hx
    obtain ⟨x'', hx'', future', timedOut', killed'⟩ := h'.session x' hx'
    exact ⟨x'', hx'', future'.trans future, timedOut'.trans timedOut, killed'.trans killed⟩
  processes p y hy := by
    obtain ⟨y', hy', program, cancelled⟩ := h.processes p y hy
    obtain ⟨y'', hy'', program', cancelled'⟩ := h'.processes p y' hy'
    refine ⟨y'', hy'', program'.trans program, ?_⟩
    rw [program] at cancelled'
    obtain same | stopped := cancelled'
    · exact same ▸ cancelled
    · exact .inr stopped
  fresh p y hnone hy := by
    cases hp : s'.processes[p]? with
    | none => exact h'.fresh p y hp hy
    | some y' =>
      obtain ⟨y'', hy'', program, cancelled⟩ := h'.processes p y' hp
      obtain rfl := Option.some.inj (hy''.symm.trans hy)
      exact h'.known (h.fresh p y' hnone hp) program cancelled
  contexts k := by
    obtain same | ⟨y, known, marked, owned⟩ := h.contexts k <;> obtain same' | ⟨y', known', marked', owned'⟩ := h'.contexts k
    · exact .inl (same'.trans same)
    · exact .inr ⟨y', same.symm.trans known', marked', owned'⟩
    · exact .inr ⟨y, known, same'.trans marked, owned⟩
    · obtain rfl := Option.some.inj (known'.symm.trans marked)
      exact .inr ⟨y, known, marked', owned⟩
  awake p hp := h'.awake p (h.awake p hp)

/-! ### What it consists of -/

lemma of_rouses (h : s.Rouses s') (held : SessionId → ContextId → Prop) (i : SessionId) : Deals held i s s' where
  service := h.service
  connections := h.connections
  length := by rw [h.sessions]
  others j _ := by rw [h.sessions]
  session x hx := ⟨x, by rw [h.sessions, hx], rfl, rfl, rfl⟩
  processes p y hy := ⟨y, by rw [h.processes, hy], rfl, .inl rfl⟩
  fresh p y hnone hy := by
    rw [h.processes] at hy
    cases hnone.symm.trans hy
  contexts k := .inl (by rw [h.contexts])
  awake := h.awake

/-- A context of a task that was accepted is marked as answered. -/
lemma conclude (s : System) (i : SessionId) {j : SessionId} (owned : held j k) : Deals held i s (s.conclude k) := by
  refine { refl held i s with fresh := fun p y hnone hy => ?_, contexts := fun k' => ?_ }
  · cases hnone.symm.trans hy
  rw [System.conclude, onContext, List.getElem?_modify]
  by_cases hk : k = k'
  · subst hk
    cases known : s.contexts[k]? with
    | none => exact .inl rfl
    | some y => exact .inr ⟨y, rfl, by simp, j, owned⟩
  · simp [hk]

lemma onSession (held : SessionId → ContextId → Prop) (s : System) (i : SessionId) {f : Session → Session}
    (same : ∀ x, s.sessions[i]? = some x →
      (f x).future = x.future ∧ (f x).timedOut = x.timedOut ∧ (f x).killed = x.killed) :
    Deals held i s (s.onSession i f) :=
  { refl held i s with
    length := List.length_modify ..
    others := fun j hj => List.getElem?_modify_ne _ _ (Ne.symm hj)
    session := fun x hx => ⟨f x, by rw [System.onSession, List.getElem?_modify_eq, hx]; rfl, same x hx⟩
    fresh := fun p y hnone hy => by cases hnone.symm.trans hy }

lemma abort (s : System) (i : SessionId) (p : ProcessId) (mine : ∀ P, s.program? p = some P → P.isFinished = true ∨
    P.isWatch = true ∨ ∃ k, P.handles? = some k ∧ held i k) : Deals held i s (s.abort p) := by
  have outcome := s.abort_outcome p
  generalize s.abort p = s' at outcome ⊢
  cases outcome with
  | spares => exact refl held i s
  | stops known unfinished =>
    have stopped : Deals held i s (s.onProcess p fun y => { y with cancelled := true }) := by
      refine { refl held i s with processes := fun q y hy => ?_, fresh := fun q y hnone hy => ?_ }
      · rw [onProcess, List.getElem?_modify]
        by_cases hq : p = q
        · subst hq
          refine ⟨{ y with cancelled := true }, by simp [hy], rfl, .inr ?_⟩
          obtain rfl := Option.some.inj (known.symm.trans (program?_of_getElem? hy))
          exact (mine _ known).resolve_left fun ended => by cases unfinished.symm.trans ended
        · exact ⟨y, by simp [hq, hy], rfl, .inl rfl⟩
      · rw [onProcess, List.getElem?_modify, hnone] at hy
        cases hy
    exact stopped.trans (.of_rouses (.wake _ p) held i)

/-- The watch over a session's time is stopped. -/
lemma disarm (h : ∀ x : Session, s.sessions[i]? = some x → ∀ p, x.cancelFuture = some p →
    ∃ Q, s.program? p = some Q ∧ (Q.isWatch = true ∨ Q.isFinished = true)) : Deals held i s (s.disarm i) := by
  rw [System.disarm]
  cases hx : s.sessions[i]?.bind (·.cancelFuture) with
  | none => exact refl held i s
  | some p =>
    obtain ⟨x, hx, hp⟩ := Option.bind_eq_some_iff.mp hx
    obtain ⟨Q, hQ, kind⟩ := h x hx p hp
    refine abort s i p fun P hP => ?_
    obtain rfl := Option.some.inj (hQ.symm.trans hP)
    exact kind.symm.imp_right .inl

/-- A process is started that is of a known kind. -/
lemma spawn (s : System) (i : SessionId) {program : Program}
    (known : s.Known held s.processes.length { program }) : Deals held i s (s.spawn program).1 := by
  have added : Deals held i s (s.addProcess program).1 := by
    refine { refl held i s with processes := fun q y hy => ?_, fresh := fun q y hnone hy => ?_ }
    · exact ⟨y, (List.getElem?_append_left (List.getElem?_eq_some_iff.mp hy).1).trans hy, rfl, .inl rfl⟩
    · have hle := List.getElem?_eq_none_iff.mp hnone
      rw [addProcess, List.getElem?_append_right hle, List.getElem?_singleton] at hy
      split at hy
      next hq =>
        obtain rfl : q = s.processes.length := Nat.le_antisymm (Nat.sub_eq_zero_iff_le.mp hq) hle
        cases hy
        exact known.of_sessions rfl
      next => cases hy
  exact added.trans (.of_rouses (.wake _ _) held i)

/-- What is done for one session leaves another one tended. -/
lemma tended (d : Deals held i s s') (h : s.Tended held turning j x) (other : ∀ k, held j k → ¬ held i k) :
    s'.Tended held turning j x := by
  obtain ⟨q, y, future, hy, lives, hands, alert⟩ := h.staffed
  obtain ⟨y', hy', program, cancelled⟩ := d.processes q y hy
  have busy : y.program.isWatch = false ∧ y.program.handles? = none := by
    obtain attends | ⟨result, ended⟩ := hands.attends
    · exact ⟨(Program.only_attends attends).2.1, (Program.only_attends attends).1⟩
    · rw [ended]
      exact ⟨rfl, rfl⟩
  have lives' : y'.cancelled = false := by
    obtain same | watch | ⟨k, handles, -⟩ := cancelled
    · exact same.trans lives
    · cases busy.1.symm.trans watch
    · cases busy.2.symm.trans handles
  refine ⟨q, y', future, hy', lives', program ▸ hands.frame (fun _ => Iff.rfl)
    (fun a k _ mine => d.answering (other k mine)) (fun k => d.isConcluded) (fun p Q hQ kind => ⟨Q, d.program? hQ, kind⟩),
    alert.imp_right (Or.imp (d.awake q) fun rest => ?_)⟩
  rw [program]
  refine rest.mono rfl fun a joins unended => ?_
  obtain ⟨k, -, -, z, hz, -⟩ := hands.joins a joins
  exact d.result?_eq_none unended (program?_of_getElem? hz)

end Deals

/-- A process moves to another point, or ends, with which those that wait for it are woken. -/
structure Moves (s : System) (r : ProcessId) (N : Program) (s' : System) : Prop where
  service : s'.service = s.service
  connections : s'.connections = s.connections
  sessions : s'.sessions = s.sessions
  contexts : s'.contexts = s.contexts
  processes : s'.processes = s.processes.modify r fun y => { y with program := N }
  awake : ∀ q, q ≠ r → s.isAwake q = true → s'.isAwake q = true
  ended : N.isFinished = true → ∀ q Q, q ≠ r → s.program? q = some Q → Q.isJoining r = true → s'.isAwake q = true

namespace Moves

lemma getElem?_self (m : s.Moves r N s') (hr : s.processes[r]? = some y) :
    s'.processes[r]? = some { y with program := N } := by
  rw [m.processes, List.getElem?_modify_eq, hr]
  rfl

lemma getElem?_of_ne (m : s.Moves r N s') (other : q ≠ r) : s'.processes[q]? = s.processes[q]? := by
  rw [m.processes, List.getElem?_modify_ne _ _ (Ne.symm other)]

lemma program?_of_ne (m : s.Moves r N s') (other : q ≠ r) : s'.program? q = s.program? q := by
  rw [program?, program?, m.getElem?_of_ne other]

lemma setProgram (s : System) (r : ProcessId) {N : Program} (unfinished : N.isFinished = false) :
    s.Moves r N (s.setProgram r N) where
  service := rfl
  connections := rfl
  sessions := rfl
  contexts := rfl
  processes := rfl
  awake _ _ := id
  ended ended := by cases unfinished.symm.trans ended

/-- Nothing but waking follows a move. -/
lemma rouses (m : s.Moves r N s') (h : s'.Rouses s'') : s.Moves r N s'' where
  service := h.service.trans m.service
  connections := h.connections.trans m.connections
  sessions := h.sessions.trans m.sessions
  contexts := h.contexts.trans m.contexts
  processes := h.processes.trans m.processes
  awake q other hq := h.awake q (m.awake q other hq)
  ended ended q Q other hQ joins := h.awake q (m.ended ended q Q other hQ joins)

lemma suspend (s : System) (r : ProcessId) {N : Program} (unfinished : N.isFinished = false) :
    s.Moves r N (s.suspend r N) := by
  refine (setProgram s r unfinished).rouses ?_
  rw [System.suspend]
  split
  · refine ⟨⟨⟨rfl, rfl, rfl, rfl⟩, rfl⟩, rfl, fun p hp => ?_⟩
    rw [isAwake_iff] at hp ⊢
    exact hp.imp_right (List.mem_cons_of_mem r)
  · exact .setAlarms _ r _

lemma finish (s : System) (r : ProcessId) (result : Option (Except Error Unit)) :
    s.Moves r (.finished result) (s.finish r result) := by
  have woken := Rouses.wakeAll ((s.onProcess r fun x => { x with program := .finished result }).forget r)
    (((s.onProcess r fun x => { x with program := .finished result }).forget r).joining r)
  refine ⟨woken.service, woken.connections, woken.sessions, woken.contexts, woken.processes, fun q other hq => ?_,
    fun _ q Q other hQ joins => ?_⟩
  · refine woken.awake q (isAwake_iff.mpr ?_)
    exact (isAwake_iff.mp hq).imp (fun h => List.mem_filter.mpr ⟨h, decide_eq_true other⟩)
      fun h => List.mem_filter.mpr ⟨h, decide_eq_true other⟩
  · refine isAwake_wakeAll (List.mem_filter.mpr ⟨List.mem_range.mpr ?_, ?_⟩) _
    · exact (lt_of_program? hQ).trans_eq (length_onProcess s r _).symm
    · change ((s.onProcess r _).program? q).any _ = true
      rw [program?_onProcess, if_neg (Ne.symm other), hQ]
      exact joins

end Moves

/-- A process that is set aside is awake. -/
lemma isAwake_suspend (spent : s.allowance = 0) : (s.suspend r N).isAwake r = true := by
  rw [suspend, if_pos spent]
  exact isAwake_iff.mpr (.inr List.mem_cons_self)

namespace Tidy

/-- What is done for one session leaves the others tended. -/
lemma deals (h : Tidy held turning skip s) (d : Deals held i s s')
    (apart : ∀ j x, skip ≠ some j → s.sessions[j]? = some x → j ≠ i) : Tidy held turning skip s' where
  tended j x hj hx := by
    have hlt : j < s.sessions.length := (List.getElem?_eq_some_iff.mp hx).1.trans_eq d.length
    have other := apart j _ hj (List.getElem?_eq_getElem hlt)
    rw [d.others j other] at hx
    exact d.tended (h.tended j x hj hx) fun k mine yours => other (h.sole j i k mine yours)
  known p y hy := by
    cases hp : s.processes[p]? with
    | none => exact d.fresh p y hp hy
    | some y₀ =>
      obtain ⟨y', hy', program, cancelled⟩ := d.processes p y₀ hp
      obtain rfl := Option.some.inj (hy'.symm.trans hy)
      exact d.known (h.known p y₀ hp) program cancelled
  contexts k y hy := by
    obtain same | ⟨y₀, known, marked, owned⟩ := d.contexts k
    · exact h.contexts k y (same.symm.trans hy)
    · obtain rfl := Option.some.inj (marked.symm.trans hy)
      exact ⟨(h.contexts k y₀ known).1, fun _ => owned⟩
  bounds j k mine := ⟨(h.bounds j k mine).1.trans_eq d.length.symm, d.lengthContexts (h.bounds j k mine).2⟩
  sole := h.sole
  lives j x hx := by
    by_cases hj : j = i
    · subst hj
      have hlt : j < s.sessions.length := (List.getElem?_eq_some_iff.mp hx).1.trans_eq d.length
      obtain ⟨x', hx', -, timedOut, killed⟩ := d.session _ (List.getElem?_eq_getElem hlt)
      obtain rfl := Option.some.inj (hx'.symm.trans hx)
      obtain ⟨inTime, alive⟩ := h.lives j _ (List.getElem?_eq_getElem hlt)
      exact ⟨timedOut.trans inTime, killed.trans alive⟩
    · exact h.lives j x ((d.others j hj).symm.trans hx)

/-- What leaves sessions and processes as they are, and adds contexts at most, leaves all sessions tended. -/
lemma carry (h : Tidy held turning skip s) (sessions : s'.sessions = s.sessions) (processes : s'.processes = s.processes)
    (contexts : ∃ fresh, s'.contexts = s.contexts ++ fresh ∧ ∀ y ∈ fresh, y.channel = some 0 ∧ y.finished = false)
    (alert : ∀ q, turning = some q ∨ s.isAwake q = true → turning' = some q ∨ s'.isAwake q = true) :
    Tidy held turning' skip s' := by
  obtain ⟨fresh, added, plain⟩ := contexts
  have program (p : ProcessId) : s'.program? p = s.program? p := by rw [program?, program?, processes]
  have known (k : ContextId) (y : TaskContext) (hy : s.contexts[k]? = some y) : s'.contexts[k]? = some y := by
    rw [added, List.getElem?_append_left (List.getElem?_eq_some_iff.mp hy).1, hy]
  constructor
  case tended =>
    intro i x hi hx
    obtain ⟨q, y, future, hy, lives, hands, attentive⟩ := (h.tended i x hi (sessions ▸ hx)).staffed
    refine ⟨q, y, future, processes ▸ hy, lives, hands.frame (fun _ => Iff.rfl) ?_ ?_ ?_, ?_⟩
    · rintro a k - - ⟨z, hz, answers⟩
      exact ⟨z, processes ▸ hz, answers⟩
    · intro k hk
      rw [isConcluded, Option.any_eq_true] at hk ⊢
      obtain ⟨z, hz, finished⟩ := hk
      exact ⟨z, known k z hz, finished⟩
    · exact fun p Q hQ kind => ⟨Q, (program p).trans hQ, kind⟩
    · obtain turn | awake | rest := attentive
      · exact (alert q (.inl turn)).imp_right .inl
      · exact (alert q (.inr awake)).imp_right .inl
      · exact .inr (.inr (rest.mono rfl fun a _ unended => by rwa [result?, program]))
  case known => exact fun p y hy => (h.known p y (processes ▸ hy)).of_sessions sessions
  case contexts =>
    intro k y hy
    rw [added] at hy
    by_cases hk : k < s.contexts.length
    · exact h.contexts k y ((List.getElem?_append_left hk).symm.trans hy)
    · rw [List.getElem?_append_right (not_lt.mp hk)] at hy
      obtain ⟨channel, unfinished⟩ := plain y (List.mem_of_getElem? hy)
      exact ⟨channel, fun finished => by cases unfinished.symm.trans finished⟩
  case bounds =>
    intro i k owned
    rw [sessions, added, List.length_append]
    exact ⟨(h.bounds i k owned).1, Nat.lt_add_right _ (h.bounds i k owned).2⟩
  case sole => exact h.sole
  case lives => exact fun i x hx => h.lives i x (sessions ▸ hx)

/-- What only wakes processes leaves all sessions tended. -/
lemma rouses (h : Tidy held turning skip s) (r : s.Rouses s') : Tidy held turning skip s' :=
  h.carry r.sessions r.processes ⟨[], by rw [r.contexts, List.append_nil], nofun⟩ fun q => .imp_right (r.awake q)

lemma excepting (h : Tidy held turning none s) (i : SessionId) : Tidy held turning (some i) s :=
  { h with tended := fun j x _ hx => h.tended j x nofun hx }

lemma including (h : Tidy held turning (some i) s) (tended : ∀ x, s.sessions[i]? = some x → s.Tended held turning i x) :
    Tidy held turning none s :=
  { h with
    tended := fun j x _ hx => by
      by_cases hj : j = i
      · exact hj ▸ tended x (hj ▸ hx)
      · exact h.tended j x (fun heq => hj (Option.some.inj heq).symm) hx }

/-- Where a process goes on leaves those sessions tended whose tasks it does not execute. -/
lemma move (h : Tidy held (some r) skip s) (m : s.Moves r N s') (hr : s.processes[r]? = some y)
    (unfinished : y.program.isFinished = false) (mine : ∀ j, y.program.attends j = true → skip = some j)
    (handles : ∀ k, y.program.handles? = some k →
      N.handles? = some k ∨ (∃ result, N = .finished (some result)) ∨ y.cancelled = true)
    (watch : y.program.isWatch = true → N.isWatch = true ∨ N.isFinished = true)
    (known : s.Known held r { y with program := N }) (turning' : Option ProcessId) : Tidy held turning' skip s' where
  tended j x hj hx := by
    rw [m.sessions] at hx
    obtain ⟨q, z, future, hz, lives, hands, alert⟩ := (h.tended j x hj hx).staffed
    have other : q ≠ r := by
      rintro rfl
      obtain rfl := Option.some.inj (hr.symm.trans hz)
      obtain attends | ⟨result, ended⟩ := hands.attends
      · exact hj (mine j attends)
      · rw [ended] at unfinished
        cases unfinished
    refine ⟨q, z, future, (m.getElem?_of_ne other).trans hz, lives, hands.frame (fun _ => Iff.rfl) ?_ ?_ ?_, .inr ?_⟩
    · rintro a k - - ⟨w, hw, spared, kind⟩
      by_cases ha : a = r
      · subst ha
        obtain rfl := Option.some.inj (hr.symm.trans hw)
        refine ⟨_, m.getElem?_self hr, spared, ?_⟩
        obtain kind | ⟨result, ended⟩ := kind
        · obtain handles | returned | stopped := handles k kind
          · exact .inl handles
          · exact .inr returned
          · cases spared.symm.trans stopped
        · rw [ended] at unfinished
          cases unfinished
      · exact ⟨w, (m.getElem?_of_ne ha).trans hw, spared, kind⟩
    · intro k hk
      rwa [isConcluded, m.contexts]
    · intro p Q hQ kind
      by_cases hp : p = r
      · subst hp
        obtain rfl := Option.some.inj ((program?_of_getElem? hr).symm.trans hQ)
        refine ⟨N, program?_of_getElem? (m.getElem?_self hr), kind.elim watch fun ended => ?_⟩
        cases unfinished.symm.trans ended
      · exact ⟨Q, (m.program?_of_ne hp).trans hQ, kind⟩
    · obtain turn | awake | rest := alert
      · exact absurd (Option.some.inj turn).symm other
      · exact .inl (m.awake q other awake)
      · cases rest with
        | finished ended => exact .inr (.finished ended)
        | resting resting unnotified => exact .inr (.resting resting unnotified)
        | @joining a joins unended =>
          by_cases ha : a = r
          · subst ha
            cases ended : N.isFinished with
            | true => exact .inl (m.ended ended q _ other (program?_of_getElem? hz) joins)
            | false =>
              refine .inr (.joining joins ?_)
              rw [result?, program?_of_getElem? (m.getElem?_self hr)]
              cases N <;> first | rfl | cases ended
          · refine .inr (.joining joins ?_)
            rwa [result?, m.program?_of_ne ha]
  known p z hz := by
    by_cases hp : p = r
    · subst hp
      obtain rfl := Option.some.inj ((m.getElem?_self hr).symm.trans hz)
      exact known.of_sessions m.sessions
    · exact (h.known p z ((m.getElem?_of_ne hp).symm.trans hz)).of_sessions m.sessions
  contexts k z hz := h.contexts k z (m.contexts ▸ hz)
  bounds j k hk := by
    rw [m.sessions, m.contexts]
    exact h.bounds j k hk
  sole := h.sole
  lives j x hx := h.lives j x (m.sessions ▸ hx)

end Tidy

end System

end GraphServer
