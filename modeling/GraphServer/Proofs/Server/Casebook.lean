import GraphServer.Proofs.Server.Annals
import GraphServer.Proofs.Server.Docket

/-!
What became of the last response to every request, whoever was to send it.

* `Occurrence`: what can happen to a server whose contexts are in many hands: they are made, calls are made on them,
  and processes are stopped, beside all that happens anyway;
* `Casebook`: where the server stands, and the books about the last responses;
* `Casebook.handed_add_lost`: **whenever nobody is sending it, the last response for a context that is marked as
  answered was put into the queue once, unless it was given up**. A context whose last response was given up stays
  marked.
-/

namespace GraphServer

/-- What can happen to a server whose contexts are in many hands. -/
inductive Occurrence where
  /-- What happens to any server. -/
  | ordinary (h : Happening)
  /-- A session is opened past the manager: for one task, or for many of which so many may wait. -/
  | openSession (name : String) (c : ChannelId) (limit : Option Nat)
  /-- A hook of a session is filled with a process that has ended. -/
  | fillHook (i : SessionId) (hook : SessionHook)
  /-- A frame is put into the queue of a channel if that needs no waiting. -/
  | trySend (c : ChannelId) (f : OutboundFrame)
  /-- A context is made for a request. -/
  | openContext (request : Uuid) (channel : Option ChannelId)
  /-- Somebody who holds a context makes calls on it. -/
  | engage (k : ContextId) (h : Handler)
  /-- A process is to be stopped. -/
  | abort (p : ProcessId)

/-- The steps that processes take when something occurs. -/
def Occurrence.steps (s : System) : Occurrence → List (ProcessId × Step)
  | .ordinary h => (({ system := s } : Annals).next h).steps
  | _ => []

/-- The history of a server with books about the last responses. -/
structure Casebook where
  system : System
  docket : Docket := {}

namespace Docket

variable {d : Docket} {s s' : System} {p : ProcessId}

/-- Enters steps of a process in order. -/
def enterAll (d : Docket) (taken : List (ProcessId × Step)) : Docket :=
  taken.foldl (fun d e => d.enter e.1 e.2) d

namespace Balanced

/-! ### Turns -/

/-- A process that is stopped gives up what it waits with. -/
lemma exists_cancel (s : System) (p : ProcessId) (P : Program) :
    ∃ s₁, s.Mute s₁ ∧ s.Conduct P s₁ (.finished none) ∧ Takes s P s₁ ⟨s, P, s.cancel p P, none⟩ ∧
      s.cancel p P = s₁.finish p none := by
  have gives : ∃ s₁, s.Mute s₁ ∧ s.cancel p P = s₁.finish p none := by
    rw [System.cancel]
    split
    next y _ => exact ⟨_, .giveUp s p y, rfl⟩
    next => exact ⟨s, .refl s, rfl⟩
  obtain ⟨s₁, mute, cancels⟩ := gives
  refine ⟨s₁, mute, ?_, ⟨rfl, rfl, ?_, fun c => ?_⟩, cancels⟩
  · cases attends : P.isApart with
    | true => exact .apart attends (.of_mute mute) (.inr rfl)
    | false =>
      cases waits : P.handover? with
      | none => exact .calm (.of_mute mute) waits rfl
      | some y => exact .carries attends waits (.lost mute rfl)
  · rw [cancels]
    exact (System.Quiet.wakeAll _ _).contexts
  · rw [cancels]
    exact (System.Calm.finish s₁ p none).sent c

lemma cancel (h : d.Balanced s) {P : Program} (hP : s.program? p = some P) :
    (d.enter p ⟨s, P, s.cancel p P, none⟩).Balanced (s.cancel p P) := by
  obtain ⟨s₁, -, conduct, takes, cancels⟩ := exists_cancel s p P
  rw [cancels] at takes ⊢
  exact (h.enter hP takes conduct rfl fun _ => rfl).of_adds (System.Calm.finish s₁ p none).toAdds

/-- A turn of a process, step by step. -/
lemma run (h : d.Balanced s) (p : ProcessId) (steps : Nat) :
    (d.enterAll ((System.stepsOf p steps s).map (p, ·))).Balanced (System.run p steps s) := by
  induction steps generalizing s d with
  | zero => exact h.of_adds (.of_quiet (.wake s p))
  | succ steps ih =>
    rw [System.stepsOf, System.run]
    cases hP : s.program? p with
    | none => exact h
    | some P =>
      have behaves := s.behaves_step p (h.plain p P hP)
      have kin := s.isApart_step p (P := P)
      dsimp only
      rcases hstep : s.step p P with ⟨s', turn⟩
      rw [hstep] at behaves kin
      have entered := h.enter (x := ⟨s, P, s', some turn⟩) hP ⟨rfl, rfl, rfl, fun _ => rfl⟩ behaves.conduct
        behaves.plain kin
      cases turn with
      | go next => exact ih entered
      | wait next => exact entered.of_adds (System.Calm.suspend s' p next).toAdds
      | done result => exact entered.of_adds (System.Calm.finish s' p (some result)).toAdds

lemma turn (h : d.Balanced s) (p : ProcessId) (allowance steps : Nat) :
    (d.enterAll ((s.turn p allowance steps).2.map (p, ·))).Balanced (s.turn p allowance steps).1 := by
  rw [System.turn]
  split
  · exact h
  next x hx =>
    have hP : s.program? p = some x.program := by rw [System.program?, hx]; rfl
    split
    · exact h
    · split
      · exact h.cancel hP
      · have adds : s.Adds { s with allowance } := .of_same rfl (fun _ => rfl) fun _ => id
        exact (h.of_adds adds).run p steps

end Balanced

end Docket

namespace Casebook

open GraphServer.System

variable {b : Casebook}

/-! ### The history -/

/-- The beginning of the history. -/
def start (service : Service) : Casebook :=
  { system := { service } }

/-- The casebook after something occurred. -/
def next (b : Casebook) : Occurrence → Casebook
  | .ordinary h =>
    let a := ({ system := b.system } : Annals).next h
    { system := a.system, docket := b.docket.enterAll a.steps }
  | .openSession name c none => { b with system := (b.system.openSingle name c).1 }
  | .openSession name c (some limit) => { b with system := (b.system.openMulti name c limit).1 }
  | .fillHook i hook => { b with system := (b.system.fillHook i hook).1 }
  | .trySend c f => { b with system := (b.system.trySend c f).1 }
  | .openContext request channel => { b with system := (b.system.addContext { request, channel }).1 }
  | .engage k h => { b with system := (b.system.spawn (.handler k (.ready h))).1 }
  | .abort p => { b with system := b.system.abort p }

/-- The casebook after all that occurred. -/
def play (b : Casebook) (occurrences : List Occurrence) : Casebook :=
  occurrences.foldl next b

/-- Whether a process waits with the last response for a context. -/
def isSending (b : Casebook) (k : ContextId) : Bool :=
  b.docket.isSending b.system k

/-- The books of an empty server agree with it. -/
lemma balanced_start (service : Service) : (start service).docket.Balanced (start service).system where
  accounted := rfl
  plain _ _ hP := by cases hP
  attends _ _ h := by cases h
  marked _ _ h := by cases h
  alone _ _ _ h := by cases h
  waits _ _ _ _ hP := by cases hP
  unmarked _ _ := ⟨rfl, rfl⟩
  settled _ _ _ known := by cases known

/-- What happens on any server is that a process has a turn, or it puts nothing into a queue. -/
lemma calm_ordinary (s : System) (happening : Happening) :
    (∃ p allowance more, happening = .turn p allowance more) ∨
      s.Calm (({ system := s } : Annals).next happening).system ∧
        (({ system := s } : Annals).next happening).steps = [] := by
  cases happening with
  | turn p allowance more => exact .inl ⟨p, allowance, more, rfl⟩
  | openChannel transport => exact .inr ⟨.openChannel _ transport, rfl⟩
  | getOrCreate name c => exact .inr ⟨.getOrCreate _ name c, rfl⟩
  | single c => exact .inr ⟨.single _ c, rfl⟩
  | submit i r c => exact .inr ⟨.submit _ c i r, rfl⟩
  | close i => exact .inr ⟨.closeMulti _ i, rfl⟩
  | closeNamed name => exact .inr ⟨.closeSession _ name, rfl⟩
  | closeBoundTo c => exact .inr ⟨.closeBoundTo _ c, rfl⟩
  | countNamed | countSingles => exact .inr ⟨.retable _ _, rfl⟩
  | timeout i elapsed ofSession => exact .inr ⟨.spawn _ rfl, rfl⟩
  | bringBack => exact .inr ⟨.of_mute (.bringBack _), rfl⟩
  | ring now => exact .inr ⟨.of_mute (.ring _ now), rfl⟩
  | wait wall => exact .inr ⟨.of_same rfl rfl rfl, rfl⟩
  | deliver c d => exact .inr ⟨.spawn _ rfl, rfl⟩
  | transport c f => exact .inr ⟨.onTransport _ c f, rfl⟩
  | abandon c => exact .inr ⟨.abandon _ c, rfl⟩
  | connect transport => exact .inr ⟨.connect _ transport, rfl⟩
  | receive n bytes => exact .inr ⟨.receive _ n bytes, rfl⟩
  | endInbound n => exact .inr ⟨.endInbound _ n, rfl⟩
  | disconnect n => exact .inr ⟨.disconnect _ n, rfl⟩

lemma docket_next (b : Casebook) (occurrence : Occurrence) :
    (b.next occurrence).docket = b.docket.enterAll (occurrence.steps b.system) := by
  cases occurrence with
  | openSession name c limit => cases limit <;> rfl
  | _ => rfl

/-- Whatever occurs is a turn of a process, or adds contexts, processes and what is put into queues. -/
lemma gains_next (b : Casebook) (occurrence : Occurrence) :
    (∃ p allowance more, occurrence = .ordinary (.turn p allowance more)) ∨
      b.system.Gains (b.next occurrence).system ∧ occurrence.steps b.system = [] := by
  cases occurrence with
  | ordinary happening =>
    obtain turn | ⟨calm, none_⟩ := calm_ordinary b.system happening
    · obtain ⟨p, allowance, more, rfl⟩ := turn
      exact .inl ⟨p, allowance, more, rfl⟩
    · exact .inr ⟨.of_calm calm, none_⟩
  | openSession name c limit =>
    cases limit with
    | none => exact .inr ⟨.of_calm (.addSession _ _), rfl⟩
    | some limit => exact .inr ⟨.of_calm (.openMulti _ name c limit), rfl⟩
  | fillHook i hook => exact .inr ⟨.of_calm (.fillHook _ i hook), rfl⟩
  | trySend c f => exact .inr ⟨.trySend _ c f, rfl⟩
  | openContext request channel => exact .inr ⟨.of_calm (.addContext _ rfl), rfl⟩
  | engage k handler => exact .inr ⟨.of_calm (.spawn _ rfl), rfl⟩
  | abort p => exact .inr ⟨.of_calm (.abort _ p), rfl⟩

/-- Whatever occurs, the books agree with the server. -/
lemma balanced_next (h : b.docket.Balanced b.system) (occurrence : Occurrence) :
    (b.next occurrence).docket.Balanced (b.next occurrence).system := by
  rw [docket_next]
  obtain ⟨p, allowance, more, rfl⟩ | ⟨gains, none_⟩ := gains_next b occurrence
  · have ready : b.system.Adds { b.system with ready := b.system.ready.erase p } :=
      .of_same rfl (fun _ => rfl) fun _ => id
    exact (h.of_adds ready).turn p allowance (more + 1)
  · rw [none_]
    exact h.of_adds gains.toAdds

lemma balanced_play (service : Service) (occurrences : List Occurrence) :
    ((start service).play occurrences).docket.Balanced ((start service).play occurrences).system := by
  suffices h : ∀ b : Casebook, b.docket.Balanced b.system →
      (b.play occurrences).docket.Balanced (b.play occurrences).system
    from h _ (balanced_start service)
  intro b h
  induction occurrences generalizing b with
  | nil => exact h
  | cons occurrence occurrences ih => exact ih _ (balanced_next h occurrence)

/-! ### The last response -/

/-- **A context that is marked as answered was answered, unless its last response was given up.** Whatever occurs on a
server, the last responses for a context with a channel that were put into its queue, those that were given up, and
the one that somebody waits with make one if the context is marked as answered and none otherwise. So while nobody
waits with it, the mark tells that exactly one was put into the queue just where none was given up. Nor does anybody
who has to do with contexts put a last response into a queue for none of them. -/
theorem handed_add_lost (service : Service) (occurrences : List Occurrence) {k : ContextId} {y : TaskContext}
    {c : ChannelId} (known : ((start service).play occurrences).system.contexts[k]? = some y)
    (channel : y.channel = some c) :
    let b := (start service).play occurrences
    b.docket.strayed = false ∧
      b.docket.handed k + b.docket.lost k + (b.isSending k).toNat = y.finished.toNat ∧
      (b.isSending k = false → ((y.finished = true ↔ b.docket.handed k = 1) ↔ b.docket.lost k = 0)) := by
  intro b
  have h : b.docket.Balanced b.system := balanced_play service occurrences
  have sum : b.docket.handed k + b.docket.lost k + (b.isSending k).toNat = y.finished.toNat := by
    cases finished : y.finished with
    | true => exact h.settled k y c known finished channel
    | false =>
      have unmarked := Docket.isConcluded_eq_false known finished
      obtain ⟨hhanded, hlost⟩ := h.unmarked k unmarked
      have idle : b.isSending k = false := Bool.eq_false_iff.mpr fun sending => by
        obtain ⟨p, P, herrand, -, -⟩ := Docket.isSending_iff.mp sending
        cases unmarked.symm.trans (h.marked p k herrand)
      rw [hhanded, hlost, idle]
      rfl
  refine ⟨h.accounted, sum, fun idle => ?_⟩
  rw [idle, Bool.toNat_false, Nat.add_zero] at sum
  cases finished : y.finished with
  | true =>
    rw [finished, Bool.toNat_true] at sum
    simp only [true_iff]
    omega
  | false =>
    rw [finished, Bool.toNat_false] at sum
    simp only [Bool.false_eq_true, false_iff]
    omega

/-- One frame may be on its way at a time, and senders wait for so many milliseconds. -/
def oneAtATime (backpressureTimeout : Nat) : Service where
  settings := { writer := { maxPendingFrames := 1, backpressureTimeout } }

/-- Two requests are answered over one channel, whose writer has no turn. -/
def twoAnswers : List Occurrence :=
  [.ordinary (.openChannel {}), .openContext .nil (some 0), .openContext .nil (some 0),
    .engage 0 (.once (.complete (.int 1))), .ordinary (.turn 1 128 9),
    .engage 1 (.once (.complete (.int 2))), .ordinary (.turn 2 128 9)]

/-- The two answers. -/
def twoAnswered : Casebook :=
  (start (oneAtATime 0)).play twoAnswers

/-- The first answer is put into the queue. The second one is refused, since the first is on its way. -/
theorem handed_add_lost_twoAnswers : ∃ y z, twoAnswered.system.contexts[0]? = some y ∧
    twoAnswered.system.contexts[1]? = some z ∧ (y.finished = true ↔ twoAnswered.docket.handed 0 = 1) ∧
      ¬(z.finished = true ↔ twoAnswered.docket.handed 1 = 1) := by
  have hfacts : twoAnswered.isSending 0 = false ∧ twoAnswered.isSending 1 = false ∧
      twoAnswered.docket.lost 0 = 0 ∧ twoAnswered.docket.lost 1 = 1 := by
    decide +kernel
  have first : (twoAnswered.system.contexts[0]?.any (·.channel == some 0)) = true := by decide +kernel
  have second : (twoAnswered.system.contexts[1]?.any (·.channel == some 0)) = true := by decide +kernel
  rw [twoAnswered] at *
  obtain ⟨idle, idle', kept, lost⟩ := hfacts
  obtain ⟨y, hy, hchannel⟩ := (Option.any_eq_true _ _).mp first
  obtain ⟨z, hz, hchannel'⟩ := (Option.any_eq_true _ _).mp second
  have answered := (handed_add_lost (oneAtATime 0) twoAnswers hy (beq_iff_eq.mp hchannel)).2.2 idle
  have refused := (handed_add_lost (oneAtATime 0) twoAnswers hz (beq_iff_eq.mp hchannel')).2.2 idle'
  -- The books of the closed run stay folded: only what the theorem says about them is used.
  generalize (start (oneAtATime 0)).play twoAnswers = b at *
  refine ⟨y, z, hy, hz, answered.mpr kept, fun h => ?_⟩
  have none : b.docket.lost 1 = 0 := refused.mp h
  omega

/-- **A context is marked as answered though nothing was put into the queue**: the answer to the second request is
refused, or, if its sender is patient, it waits and its sender is stopped. -/
theorem finished_and_not_handed :
    let refused := (start (oneAtATime 0)).play twoAnswers
    let stopped := (start (oneAtATime 5000)).play (twoAnswers ++ [.abort 2, .ordinary (.turn 2 128 9)])
    (refused.system.contexts[1]?.map fun y => (y.channel, y.finished)) = some (some 0, true) ∧
      refused.isSending 1 = false ∧ refused.docket.handed 1 = 0 ∧
    (stopped.system.contexts[1]?.map fun y => (y.channel, y.finished)) = some (some 0, true) ∧
      stopped.isSending 1 = false ∧ stopped.docket.handed 1 = 0 := by
  decide +kernel

end Casebook

end GraphServer
