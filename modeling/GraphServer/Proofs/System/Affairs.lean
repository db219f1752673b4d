import GraphServer.System.Schedule
import Mathlib.Tactic

/-!
What concerns one session: the session itself, the contexts of its tasks, all processes, and what was put
into the queue of its channel.

* `Affairs`: these parts of a server, apart from everything else;
* `System.Shows`: a server in which they stand as given. Every function that processes are made of
  changes the affairs of a session as its counterpart here does, whatever else it does.
-/

namespace GraphServer

/-- What concerns one session and its channel. -/
structure Affairs where
  session : Session
  contexts : List TaskContext
  processes : List Process
  /-- Whether the channel is closed. -/
  closed : Bool
  /-- What was put into the queue of the channel. -/
  sent : List Sent
  /-- Whether the process that executes the tasks is sure to get a turn. -/
  awake : Bool

namespace Affairs

/-! ### Changing a part -/

/-- The program of a process. -/
def program? (a : Affairs) (p : ProcessId) : Option Program :=
  a.processes[p]?.map (·.program)

lemma program?_of_some {a : Affairs} {p : ProcessId} {x : Process} (h : a.processes[p]? = some x) :
    a.program? p = some x.program := by
  rw [program?, h, Option.map_some]

lemma program?_congr {a b : Affairs} (h : b.processes = a.processes) (p : ProcessId) :
    b.program? p = a.program? p := by
  rw [program?, program?, h]

/-- Changes the session. -/
def onSession (a : Affairs) (f : Session → Session) : Affairs :=
  { a with session := f a.session }

/-- Changes a process. -/
def onProcess (a : Affairs) (p : ProcessId) (f : Process → Process) : Affairs :=
  { a with processes := a.processes.modify p f }

/-- Puts a process at a point of its program. -/
def setProgram (a : Affairs) (p : ProcessId) (program : Program) : Affairs :=
  a.onProcess p fun x => { x with program }

/-- Adds a process. -/
def addProcess (a : Affairs) (program : Program) : Affairs :=
  { a with processes := a.processes ++ [{ program }] }

/-- Stops a process when it is its turn. -/
def stop (a : Affairs) (p : ProcessId) : Affairs :=
  match a.program? p with
  | none | some (.finished _) => a
  | some _ => a.onProcess p fun x => { x with cancelled := true }

/-- Marks a context as answered. -/
def conclude (a : Affairs) (k : ContextId) : Affairs :=
  { a with contexts := a.contexts.modify k fun x => { x with finished := true } }

/-- Puts something into the queue of the channel. -/
def put (a : Affairs) (m : Option Sent) : Affairs :=
  { a with sent := a.sent ++ m.toList }

/-- Whether the program of the process that executes the tasks is at a certain kind of point. -/
def executing (a : Affairs) (test : Program → Bool) : Bool :=
  (a.session.future.bind a.program?).any test

/-- Wakes the process that executes the tasks if a condition holds. -/
def rouse (a : Affairs) (condition : Bool) : Affairs :=
  { a with awake := a.awake || condition }

/-- Takes a process from those that are awake. -/
def drowse (a : Affairs) (p : ProcessId) : Affairs :=
  { a with awake := a.awake && decide (a.session.future ≠ some p) }

/-- Notifies the process that executes the tasks. -/
def notify (a : Affairs) : Affairs :=
  (a.onSession (·.setNotified true)).rouse (a.executing (·.isResting))

/-- Ends a process and wakes the one that executes the tasks if it waits for that. -/
def finish (a : Affairs) (p : ProcessId) (result : Option (Except Error Unit)) : Affairs :=
  ((a.drowse p).rouse (decide (a.session.future ≠ some p) && a.executing (·.isJoining p))).setProgram p
    (.finished result)

end Affairs

namespace System

variable {s s' : System} {i : SessionId} {c : ChannelId} {a : Affairs} {p : ProcessId}

/-- The affairs of a session stand as given. -/
structure Shows (s : System) (i : SessionId) (c : ChannelId) (a : Affairs) : Prop where
  session : s.sessions[i]? = some a.session
  contexts : s.contexts = a.contexts
  processes : s.processes = a.processes
  channel : ∃ x, s.channels[c]? = some x ∧ x.closed = a.closed ∧ x.sent = a.sent
  awake : a.awake = true → ∀ e, a.session.future = some e → e ∈ s.ready ∨ e ∈ s.aside

namespace Shows

lemma program? (h : s.Shows i c a) (p : ProcessId) : s.program? p = a.program? p := by
  rw [System.program?, h.processes, Affairs.program?]

/-! ### Changes that do not concern the session -/

/-- A change that leaves the parts alone and nobody asleep. -/
lemma frame (h : s.Shows i c a) (sessions : s'.sessions = s.sessions) (contexts : s'.contexts = s.contexts)
    (processes : s'.processes = s.processes) (channels : s'.channels = s.channels)
    (awake : ∀ e, e ∈ s.ready ∨ e ∈ s.aside → e ∈ s'.ready ∨ e ∈ s'.aside) : s'.Shows i c a where
  session := sessions ▸ h.session
  contexts := contexts ▸ h.contexts
  processes := processes ▸ h.processes
  channel := channels ▸ h.channel
  awake ha e he := awake e (h.awake ha e he)

lemma spend (h : s.Shows i c a) : s.spend.Shows i c a :=
  h.frame rfl rfl rfl rfl fun _ => id

lemma of_spend? (h : s.Shows i c a) (hs : s.spend? = some s') : s'.Shows i c a := by
  rw [spend?] at hs
  split at hs
  · cases hs
  · cases hs
    exact h.spend

lemma of_spendAt? (h : s.Shows i c a) {due : Nat} (hs : s.spendAt? due = some s') : s'.Shows i c a := by
  rw [spendAt?] at hs
  split at hs
  · cases hs
  · exact h.of_spend? hs

lemma mem_ready_wake (s : System) (p : ProcessId) {e : ProcessId} (he : e ∈ s.ready) :
    e ∈ (s.wake p).ready := by
  rw [System.wake]
  split
  · exact he
  · exact List.mem_append_left _ he

lemma self_mem_ready_wake (s : System) (p : ProcessId) : p ∈ (s.wake p).ready := by
  rw [System.wake]
  split
  · assumption
  · exact List.mem_append_right _ (List.mem_singleton_self p)

lemma wake (h : s.Shows i c a) (p : ProcessId) : (s.wake p).Shows i c a := by
  have hmem := fun e => mem_ready_wake s p (e := e)
  refine h.frame ?_ ?_ ?_ ?_ fun e he => ?_
  iterate 4 (rw [System.wake]; split <;> rfl)
  have haside : (s.wake p).aside = s.aside := by
    rw [System.wake]
    split <;> rfl
  exact he.imp (hmem e) (haside ▸ id)

lemma wakeAll (h : s.Shows i c a) (ps : List ProcessId) : (s.wakeAll ps).Shows i c a := by
  induction ps generalizing s with
  | nil => exact h
  | cons p ps ih => exact ih (h.wake p)

/-! ### Changes of one part -/

lemma onSession (h : s.Shows i c a) (f : Session → Session)
    (hf : (f a.session).future = a.session.future) : (s.onSession i f).Shows i c (a.onSession f) where
  session := by rw [System.onSession, List.getElem?_modify_eq, h.session]; rfl
  contexts := h.contexts
  processes := h.processes
  channel := h.channel
  awake ha e he := h.awake ha e (hf ▸ he)

lemma onContext (h : s.Shows i c a) (k : ContextId) :
    (s.onContext k fun x => { x with finished := true }).Shows i c (a.conclude k) where
  session := h.session
  contexts := by rw [System.onContext, Affairs.conclude, h.contexts]
  processes := h.processes
  channel := h.channel
  awake := h.awake

lemma onProcess (h : s.Shows i c a) (p : ProcessId) (f : Process → Process) :
    (s.onProcess p f).Shows i c (a.onProcess p f) where
  session := h.session
  contexts := h.contexts
  processes := by rw [System.onProcess, Affairs.onProcess, h.processes]
  channel := h.channel
  awake := h.awake

lemma setProgram (h : s.Shows i c a) (p : ProcessId) (program : Program) :
    (s.setProgram p program).Shows i c (a.setProgram p program) :=
  h.onProcess p _

lemma addProcess (h : s.Shows i c a) (program : Program) :
    (s.addProcess program).1.Shows i c (a.addProcess program) ∧
      (s.addProcess program).2 = a.processes.length := by
  refine ⟨⟨h.session, h.contexts, ?_, h.channel, h.awake⟩, congrArg _ h.processes⟩
  rw [Affairs.addProcess, ← h.processes]
  rfl

lemma spawn (h : s.Shows i c a) (program : Program) :
    (s.spawn program).1.Shows i c (a.addProcess program) ∧ (s.spawn program).2 = a.processes.length := by
  obtain ⟨hshows, hp⟩ := h.addProcess program
  exact ⟨hshows.wake _, hp⟩

lemma abort (h : s.Shows i c a) (p : ProcessId) : (s.abort p).Shows i c (a.stop p) := by
  rw [System.abort, h.program? p, Affairs.stop]
  cases a.program? p with
  | none => exact h
  | some program =>
    cases program with
    | finished result => exact h
    | _ => exact (h.onProcess p _).wake p

lemma onChannel (h : s.Shows i c a) (f : Channel → Channel) {a' : Affairs}
    (session : a'.session = a.session) (contexts : a'.contexts = a.contexts)
    (processes : a'.processes = a.processes) (awake : a'.awake = a.awake)
    (hf : ∀ x, x.closed = a.closed → x.sent = a.sent → (f x).closed = a'.closed ∧ (f x).sent = a'.sent) :
    (s.onChannel c f).Shows i c a' := by
  obtain ⟨x, hx, hclosed, hsent⟩ := h.channel
  refine ⟨session ▸ h.session, contexts ▸ h.contexts, processes ▸ h.processes, ⟨f x, ?_, hf x hclosed hsent⟩, ?_⟩
  · rw [System.onChannel, List.getElem?_modify_eq, hx]
    rfl
  · rw [awake, session]
    exact h.awake

/-- A change of the way out leaves what was sent as it is. -/
lemma onOutbound (h : s.Shows i c a) (f : Channel → Channel)
    (hf : ∀ x, (f x).closed = x.closed ∧ (f x).sent = x.sent) : (s.onChannel c f).Shows i c a :=
  h.onChannel f rfl rfl rfl rfl fun x hclosed hsent => ⟨(hf x).1.trans hclosed, (hf x).2.trans hsent⟩

lemma wakeReceiver (h : s.Shows i c a) (c' : ChannelId) : (s.wakeReceiver c').Shows i c a := by
  rw [System.wakeReceiver]
  split
  · split
    · exact h.wakeAll _
    · exact h
  · exact h

/-! ### Processes -/

lemma wakeIf (h : s.Shows i c a) {e : ProcessId} (he : a.session.future = some e) (test : Program → Bool) :
    (s.wakeIf e test).Shows i c (a.rouse (a.executing test)) := by
  have hexecuting : a.executing test = (s.program? e).any test := by
    rw [Affairs.executing, he, h.program?, Option.bind_some]
  rw [System.wakeIf, ← hexecuting]
  cases htest : a.executing test with
  | false =>
    rw [Affairs.rouse, Bool.or_false, if_neg Bool.false_ne_true]
    exact h
  | true =>
    have hwake := h.wake e
    refine ⟨hwake.session, hwake.contexts, hwake.processes, hwake.channel, fun _ e' he' => ?_⟩
    cases he.symm.trans he'
    exact .inl (self_mem_ready_wake s e)

lemma notify (h : s.Shows i c a) : (s.notify i).Shows i c a.notify := by
  have hset := h.onSession (·.setNotified true) rfl
  have hfuture : (s.onSession i (·.setNotified true)).sessions[i]?.bind (·.future) = a.session.future := by
    rw [hset.session]
    rfl
  rw [System.notify]
  simp only [hfuture]
  cases he : a.session.future with
  | none =>
    refine ⟨hset.session, hset.contexts, hset.processes, hset.channel, fun _ e he' => ?_⟩
    cases he.symm.trans he'
  | some e => exact hset.wakeIf he _

lemma mem_ready_wakeAll (s : System) {ps : List ProcessId} {e : ProcessId} (he : e ∈ ps ∨ e ∈ s.ready) :
    e ∈ (s.wakeAll ps).ready := by
  induction ps generalizing s with
  | nil => exact he.resolve_left List.not_mem_nil
  | cons p ps ih =>
    refine ih (s.wake p) ?_
    rcases he with he | he
    · rcases List.mem_cons.mp he with rfl | he
      · exact .inr (self_mem_ready_wake s e)
      · exact .inl he
    · exact .inr (mem_ready_wake s p he)

lemma aside_wakeAll (s : System) (ps : List ProcessId) : (s.wakeAll ps).aside = s.aside := by
  induction ps generalizing s with
  | nil => rfl
  | cons p ps ih =>
    refine (ih (s.wake p)).trans ?_
    rw [System.wake]
    split <;> rfl

/-- The end of a process, which wakes the one that waits for it. -/
lemma finish (h : s.Shows i c a) (p : ProcessId) (result : Option (Except Error Unit)) :
    (s.finish p result).Shows i c (a.finish p result) := by
  have hset := h.setProgram p (.finished result)
  have hforget : (forget (s.onProcess p fun x => { x with program := .finished result }) p).Shows i c
      { a.setProgram p (.finished result) with awake := false } :=
    ⟨hset.session, hset.contexts, hset.processes, hset.channel, fun h => by cases h⟩
  have hshows := hforget.wakeAll
    (joining (forget (s.onProcess p fun x => { x with program := .finished result }) p) p)
  refine ⟨hshows.session, hshows.contexts, hshows.processes, hshows.channel, fun ha e he => ?_⟩
  change a.session.future = some e at he
  have hne (hne : decide (a.session.future ≠ some p) = true) : e ≠ p := by
    rintro rfl
    exact of_decide_eq_true hne he
  rcases Bool.or_eq_true_iff.mp ha with ha | ha
  · obtain ⟨ha, hp⟩ := Bool.and_eq_true_iff.mp ha
    have hep := hne hp
    rw [System.finish, aside_wakeAll]
    exact (h.awake ha e he).imp
      (fun hm => mem_ready_wakeAll _ (.inr (List.mem_filter.mpr ⟨hm, decide_eq_true hep⟩)))
      (fun hm => List.mem_filter.mpr ⟨hm, decide_eq_true hep⟩)
  · obtain ⟨hp, hj⟩ := Bool.and_eq_true_iff.mp ha
    have hep := hne hp
    rw [Affairs.executing, he, Option.bind_some, Affairs.program?] at hj
    refine .inl (mem_ready_wakeAll _ (.inl (List.mem_filter.mpr ⟨?_, ?_⟩)))
    · rw [hforget.processes]
      cases hx : a.processes[e]? with
      | none => rw [hx] at hj; cases hj
      | some x =>
        have := (List.getElem?_eq_some_iff.mp hx).1
        simpa [Affairs.setProgram, Affairs.onProcess] using this
    · rw [hforget.program?]
      simpa [Affairs.program?, Affairs.setProgram, Affairs.onProcess, List.getElem?_modify_ne, Ne.symm hep] using hj

/-- A process that stays behind at a point; one that is set aside is sure to get another turn. -/
lemma suspend (h : s.Shows i c a) (p : ProcessId) (program : Program) :
    (s.suspend p program).Shows i c
      ((a.setProgram p program).rouse (decide (s.allowance = 0 ∧ a.session.future = some p))) := by
  have hset := h.setProgram p program
  have hpark (dues : List Nat) (s' : System) (hs' : s'.Shows i c (a.setProgram p program)) :
      (dues.foldl (fun s due => s.setAlarm p due) s').Shows i c (a.setProgram p program) := by
    induction dues generalizing s' with
    | nil => exact hs'
    | cons due dues ih =>
      refine ih _ ?_
      change (s'.setAlarm p due).Shows i c _
      rw [setAlarm]
      split
      · exact hs'
      · exact hs'.frame rfl rfl rfl rfl fun _ => id
  rw [System.suspend]
  split
  next hspent =>
    refine ⟨hset.session, hset.contexts, hset.processes, hset.channel, fun ha e he => ?_⟩
    rcases Bool.or_eq_true_iff.mp ha with ha | ha
    · exact (hset.awake ha e he).imp id (List.mem_cons_of_mem _)
    · cases he.symm.trans (of_decide_eq_true ha).2
      exact .inr (List.mem_cons_self ..)
  next hleft =>
    have hfalse : decide (s.allowance = 0 ∧ a.session.future = some p) = false :=
      decide_eq_false fun hp => hleft hp.1
    rw [hfalse, Affairs.rouse, Bool.or_false]
    exact hpark _ _ hset

lemma abortAll (h : s.Shows i c a) (ps : List ProcessId) :
    (s.abortAll ps).Shows i c (ps.foldl Affairs.stop a) := by
  induction ps generalizing s a with
  | nil => exact h
  | cons p ps ih => exact ih (h.abort p)

end Shows

end System

end GraphServer
