import GraphServer.Proofs.Server.Docket

/-!
Books about everything that is put into the queues on behalf of a context, before it is marked as answered and since.

* `Dossier.enter`: a last response is entered for the context for which its process set out, a part of the result for
  the context whose handler put it; when a context is marked, those who wait with a part for it are noted;
* `Dossier.Kept`: ahead of the mark there are parts only; since then there is one last response at most, and each of
  the parts was waiting when the mark was made;
* `Dossier.Kept.enter`: **a step that is entered keeps them so**.
-/

namespace GraphServer

namespace Sent

/-- The response that was put into a queue. -/
def response? : Sent → Option Response
  | response r => some r
  | close => none

/-- The part of a result that was put into a queue. -/
def part? : Sent → Option Response
  | response r => if r.concludes then none else some r
  | close => none

lemma answer?_of_response? {m : Sent} (h : m.response? = none) : m.answer? = none := by
  cases m with
  | response r => cases h
  | close => rfl

end Sent

namespace Program

variable {P : Program}

/-- The context whose handler a program is. -/
def handles? : Program → Option ContextId
  | handler k _ => some k
  | _ => none

/-- The part of a result with which a program waits for a queue. -/
def part? (P : Program) : Option Response :=
  (P.handover?.bind (·.parcel.meaning)).bind Sent.part?

/-- The context whose handler waits with a part of the result. -/
def streams? (P : Program) : Option ContextId :=
  P.part?.bind fun _ => P.handles?

lemma part?_of_idle (idle : P.handover? = none) : P.part? = none := by
  rw [part?, idle]
  rfl

lemma part?_of_handover {h : Handover} (waits : P.handover? = some h) :
    P.part? = h.parcel.meaning.bind Sent.part? := by
  rw [part?, waits, Option.bind_some]

lemma streams?_eq_some {k : ContextId} : P.streams? = some k ↔ P.part?.isSome = true ∧ P.handles? = some k := by
  rw [streams?]
  cases P.part? <;> simp

lemma streams?_of_part? (h : P.part? = none) : P.streams? = none := by
  rw [streams?, h, Option.bind_none]

lemma attends_of_handles? {k : ContextId} (h : P.handles? = some k) : P.isApart = false ∧ P.isFinished = false := by
  cases P with
  | handler j point => exact ⟨rfl, rfl⟩
  | _ => cases h

lemma isFinished_of_handover {w : Handover} (waits : P.handover? = some w) : P.isFinished = false := by
  cases P with
  | finished result => cases waits
  | _ => rfl

lemma exists_handover_of_part? {r : Response} (h : P.part? = some r) :
    ∃ w, P.handover? = some w ∧ w.parcel.meaning.bind Sent.part? = some r := by
  cases waits : P.handover? with
  | none => cases (part?_of_idle waits).symm.trans h
  | some w => exact ⟨w, rfl, part?_of_handover waits ▸ h⟩

end Program

namespace System

variable {s s' : System} {k : ContextId} {p : ProcessId}

/-- Whether a process that can take steps waits with a part of the result for a context. -/
def isStreaming (s : System) (k : ContextId) (p : ProcessId) : Bool :=
  s.isActive p && (s.program? p).any (·.streams? == some k)

/-- The processes that can take steps and wait with a part of the result for a context. -/
def streamers (s : System) (k : ContextId) : Finset ProcessId :=
  {p ∈ Finset.range s.processes.length | s.isStreaming k p}

lemma mem_streamers : p ∈ s.streamers k ↔
    s.isActive p = true ∧ ∃ P, s.program? p = some P ∧ P.streams? = some k := by
  simp only [streamers, isStreaming, Finset.mem_filter, Finset.mem_range, Bool.and_eq_true, Option.any_eq_true,
    beq_iff_eq, and_iff_right_iff_imp]
  rintro ⟨-, P, hP, -⟩
  exact lt_of_program? hP

lemma streamers_eq (h : s'.processes = s.processes) : s'.streamers k = s.streamers k := by
  ext p
  rw [mem_streamers, mem_streamers, isActive_eq h, program?, program?, h]

/-- Those who wait when contexts and processes were only added waited before. -/
lemma streamers_of_adds (adds : s.Adds s') : s'.streamers k ⊆ s.streamers k := by
  intro p hp
  rw [mem_streamers] at hp ⊢
  obtain ⟨active, P, hP, streams⟩ := hp
  cases known : s.program? p with
  | none =>
    have idle := Program.part?_of_idle (adds.idle p P known hP)
    rw [Program.streams?_of_part? idle] at streams
    cases streams
  | some Q =>
    obtain rfl := Option.some.inj ((adds.programs p Q known).symm.trans hP)
    exact ⟨adds.active p Q known active, Q, rfl, streams⟩

lemma handles?_lift {α : Type} {f : α → Program} (turn : Turn α) (other : ∀ y, (f y).handles? = none) :
    (turn.map f).program.handles? = none := by
  cases turn with
  | go y | wait y => exact other y
  | done r => rfl

/-- A handler of a context goes on as such, and nobody else becomes one. -/
lemma handles?_step (s : System) (p : ProcessId) (P : Program) :
    (s.step p P).2.program.handles? = P.handles? ∨ (s.step p P).2.program.isFinished = true := by
  cases P with
  | handler j point =>
    rw [step, liftTurn]
    cases (s.stepHandler p j point).2 with
    | go y | wait y => exact .inl rfl
    | done r => exact .inr rfl
  | lifetime i milliseconds due =>
    have outcome := s.stepLifetime_outcome i milliseconds due
    rw [step]
    generalize s.stepLifetime i milliseconds due = z at outcome ⊢
    cases outcome <;> exact .inl rfl
  | finished result => exact .inl rfl
  | single | worker | timeout | writer | connection | delivery => exact .inl (handles?_lift _ fun _ => rfl)

/-- A step of a handler leaves the processes as they are. -/
lemma processes_step_of_handles? (s : System) (p : ProcessId) {P : Program} (handles : P.handles? = some k) :
    (s.step p P).1.processes = s.processes := by
  cases P with
  | handler j point => exact (Still.stepHandler s p j point).processes
  | _ => cases handles

lemma isActive_setProgram_self {N : Program} (active : s.isActive p = true) (unfinished : N.isFinished = false) :
    (s.setProgram p N).isActive p = true := by
  rw [isActive, Option.any_eq_true] at active ⊢
  obtain ⟨x, hx, lives⟩ := active
  refine ⟨{ x with program := N }, ?_, ?_⟩
  · rw [setProgram, onProcess, List.getElem?_modify_eq, hx]
    rfl
  · rw [unfinished]
    exact (Bool.and_eq_true_iff.mp lives).2

/-- What a process sends is put into the queue of one channel, or nothing is. -/
lemma Fate.sent {c : ChannelId} {m : Option Sent} {N : Program} (fate : s.Fate c m s' N) :
    ∃ n, (n = none ∨ n = m ∧ N.handover? = none) ∧
      ∀ c', s'.sentOver c' = s.sentOver c' ++ if c' = c then n.toList else [] := by
  cases fate with
  | put quiet sent over_ => exact ⟨m, .inr ⟨rfl, over_⟩, sent⟩
  | held mute | lost mute => exact ⟨none, .inl rfl, fun c' => by simp [mute.sent]⟩

/-- A process that waits with a part of the result after a step waited with it before, or begins to wait with it for a
context that is not marked as answered. -/
lemma Conduct.part? {P N : Program} (conduct : s.Conduct P s' N) {w : Handover} (waits : N.handover? = some w)
    (attends : N.isApart = false) {r : Response} (part : w.parcel.meaning.bind Sent.part? = some r) :
    (P.isApart = false ∧ ∃ v, P.handover? = some v ∧ v.channel = w.channel ∧
        v.parcel.meaning.bind Sent.part? = some r) ∨
      ∃ k y, P.handles? = some k ∧ s.contexts[k]? = some y ∧ y.finished = false ∧ y.channel = some w.channel ∧
        r.request = some y.request ∧ s'.contexts = s.contexts := by
  have held {s₁ : System} {c : ChannelId} {m : Option Sent} (fate : s₁.Fate c m s' N) :
      w.channel = c ∧ m.bind Sent.part? = some r := by
    cases fate with
    | put _ _ over_ => cases over_.symm.trans waits
    | held _ waits' channel meaning =>
      cases waits'.symm.trans waits
      exact ⟨channel, meaning ▸ part⟩
    | lost _ over_ => cases over_.symm.trans waits
  cases conduct with
  | calm _ _ over_ => cases over_.symm.trans waits
  | apart _ _ stays =>
    obtain apart | ended := stays
    · cases apart.symm.trans attends
    · cases N with
      | finished result => cases waits
      | _ => cases ended
  | concludes _ _ _ _ _ _ _ concluding fate =>
    cases (held fate).2.symm.trans (if_pos concluding)
  | retires _ _ _ _ _ _ _ over_ => cases over_.symm.trans waits
  | streams handles _ known unfinished channel request partial_ fate =>
    obtain ⟨rfl, hr⟩ := held fate
    cases hr.symm.trans (if_neg (by rw [partial_]; exact Bool.false_ne_true))
    exact .inr ⟨_, _, handles ▸ rfl, known, unfinished, channel, request, fate.quiet.contexts⟩
  | closes _ _ fate => cases (held fate).2
  | carries apart waits' fate => exact .inl ⟨apart, _, waits', (held fate).1.symm, (held fate).2⟩

lemma Conduct.streams? {P N : Program} (conduct : s.Conduct P s' N)
    (kind : N.handles? = P.handles? ∨ N.isFinished = true) (streams : N.streams? = some k) :
    P.streams? = some k ∨ s.isConcluded k = false ∧ s'.contexts = s.contexts := by
  obtain ⟨part, handles⟩ := Program.streams?_eq_some.mp streams
  obtain ⟨r, part⟩ := Option.isSome_iff_exists.mp part
  obtain ⟨w, waits, part⟩ := Program.exists_handover_of_part? part
  obtain ⟨attends, unfinished⟩ := Program.attends_of_handles? handles
  have handles : P.handles? = some k := by
    rw [← kind.resolve_right (by simp [unfinished]), handles]
  obtain ⟨-, v, waits, -, part⟩ | ⟨j, y, hj, known, unfinished, -, -, same⟩ := conduct.part? waits attends part
  · refine .inl (Program.streams?_eq_some.mpr ⟨?_, handles⟩)
    rw [Program.part?_of_handover waits, part]
    rfl
  · cases handles.symm.trans hj
    exact .inr ⟨by rw [isConcluded, known, Option.any_some, unfinished], same⟩

lemma Fate.gains {c : ChannelId} {m : Option Sent} {N : Program} (fate : s.Fate c m s' N) : s.Gains s' := by
  cases fate with
  | put quiet sent => exact ⟨.of_quiet quiet, fun c' => by rw [sent]; exact List.prefix_append _ _⟩
  | held mute | lost mute => exact .of_mute mute

/-- In a step contexts and processes are only added, but for the mark of one context. -/
lemma Conduct.adds {P N : Program} (conduct : s.Conduct P s' N) :
    ∃ s₁, s.Adds s₁ ∧ s'.processes = s₁.processes ∧ (s'.contexts = s₁.contexts ∨
      ∃ k y, s₁.contexts[k]? = some y ∧ y.finished = false ∧ s'.contexts = (s₁.conclude k).contexts) := by
  cases conduct with
  | calm calm => exact ⟨s', calm.toAdds, rfl, .inl rfl⟩
  | apart _ gains => exact ⟨s', gains.toAdds, rfl, .inl rfl⟩
  | concludes _ _ calm known unfinished _ _ _ fate =>
    exact ⟨_, calm.toAdds, fate.quiet.processes, .inr ⟨_, _, known, unfinished, fate.quiet.contexts⟩⟩
  | retires _ _ calm known unfinished _ same =>
    subst same
    exact ⟨_, calm.toAdds, rfl, .inr ⟨_, _, known, unfinished, rfl⟩⟩
  | streams _ _ _ _ _ _ _ fate => exact ⟨s', .of_quiet fate.quiet, rfl, .inl rfl⟩
  | closes _ calm fate => exact ⟨s', .of_quiet (calm.toQuiet.trans fate.quiet), rfl, .inl rfl⟩
  | carries _ _ fate => exact ⟨s', .of_quiet fate.quiet, rfl, .inl rfl⟩

end System

/-! ### What a step puts -/

namespace Step

/-- The responses that a process that has to do with contexts puts into queues in the step. -/
def filed (x : Step) : List Response :=
  if x.program.isApart then []
  else (List.range x.after.channels.length).flatMap fun c => (x.put c).filterMap Sent.response?

variable {x : Step} {c : ChannelId} {m : Option Sent}

lemma flatMap_range_ite {α : Type} (n : Nat) (c : Nat) (xs : List α) :
    ((List.range n).flatMap fun d => if d = c then xs else []) = if c < n then xs else [] := by
  induction n with
  | zero => simp
  | succ n ih =>
    rw [List.range_succ, List.flatMap_append, ih, List.flatMap_singleton]
    obtain hc | rfl | hc := lt_trichotomy c n
    · rw [if_pos hc, if_neg hc.ne', if_pos (by omega), List.append_nil]
    · rw [if_neg (lt_irrefl c), if_pos rfl, if_pos (by omega), List.nil_append]
    · rw [if_neg (by omega), if_neg hc.ne, if_neg (by omega), List.nil_append]

/-- Something that is put into the queue of one channel. -/
lemma filed_eq (attends : x.program.isApart = false)
    (sent : ∀ c', x.after.sentOver c' = x.before.sentOver c' ++ if c' = c then m.toList else []) :
    x.filed = (m.bind Sent.response?).toList := by
  have each (c' : ChannelId) : (x.put c').filterMap Sent.response? =
      if c' = c then (m.bind Sent.response?).toList else [] := by
    rw [Docket.put_eq (sent c')]
    split
    · cases m with
      | none => rfl
      | some m => cases m <;> rfl
    · rfl
  rw [filed, attends, if_neg Bool.false_ne_true, List.flatMap_congr fun c' _ => each c', flatMap_range_ite]
  split
  · rfl
  next hc =>
    -- there is no such channel, so nothing can have been put into its queue
    cases m with
    | none => rfl
    | some m =>
      have absent : x.after.sentOver c = [] := by
        rw [System.sentOver, List.getElem?_eq_none (not_lt.mp hc)]
        rfl
      have put := sent c
      rw [absent, if_pos rfl] at put
      simp at put

end Step

/-! ### Entries -/

/-- The context for which a process puts a response: the one for which it set out, if that is the last response, and
otherwise the one whose handler it is. -/
def Docket.cause (d : Docket) (p : ProcessId) (x : Step) (r : Response) : Option ContextId :=
  if r.concludes then x.concluded?.or (d.errand p) else x.program.handles?

/-- The books about all that is put into queues on behalf of contexts. -/
structure Dossier where
  docket : Docket := {}
  /-- What was put before a context was marked as answered, in order. -/
  early : ContextId → List Response := fun _ => []
  /-- What was put since a context was marked as answered, in order. -/
  late : ContextId → List Response := fun _ => []
  /-- Who waited with a part of the result when a context was marked as answered. -/
  waited : ContextId → Finset ProcessId := fun _ => ∅
  /-- Whether anything was ever put for no context. -/
  astray : Bool := false

namespace Dossier

/-- What a step puts for a context. -/
def entries (d : Dossier) (p : ProcessId) (x : Step) (k : ContextId) : List Response :=
  x.filed.filter fun r => d.docket.cause p x r == some k

/-- Enters a step of a process. -/
def enter (d : Dossier) (p : ProcessId) (x : Step) : Dossier where
  docket := d.docket.enter p x
  early k := if x.after.isConcluded k then d.early k else d.early k ++ d.entries p x k
  late k := if x.after.isConcluded k then d.late k ++ d.entries p x k else d.late k
  waited k := if x.concluded? = some k then x.after.streamers k else d.waited k
  astray := d.astray || x.filed.any fun r => (d.docket.cause p x r).isNone

variable {d : Dossier} {s s' : System} {p : ProcessId} {P N : Program} {k : ContextId} {x : Step}

/-- The books agree with the server: what was put for a context is in the queue of its channel in that order; before it
was marked as answered only parts of the result were put; since then its last response was put as often as the docket
says, and parts only by those who waited with one when it was marked. -/
structure Kept (d : Dossier) (s : System) : Prop where
  balanced : d.docket.Balanced s
  accounted : d.astray = false
  parts : ∀ p P h r, s.program? p = some P → P.isApart = false → P.handover? = some h →
    h.parcel.meaning.bind Sent.part? = some r →
    ∃ k y, P.handles? = some k ∧ s.contexts[k]? = some y ∧ y.channel = some h.channel ∧ r.request = some y.request
  unknown : ∀ k, s.contexts[k]? = none → d.early k = []
  partial_ : ∀ k, ∀ r ∈ d.early k, r.concludes = false
  begun : ∀ k, s.isConcluded k = false → d.late k = []
  once : ∀ k, (d.late k).countP (·.concludes) = d.docket.handed k
  bounded : ∀ k, s.isConcluded k = true →
    (d.late k).countP (!·.concludes) + (s.streamers k).card ≤ (d.waited k).card
  addressed : ∀ k y, s.contexts[k]? = some y → ∀ r ∈ d.early k ++ d.late k, r.request = some y.request
  queued : ∀ k y c, s.contexts[k]? = some y → y.channel = some c →
    ((d.early k ++ d.late k).map .response).Sublist (s.sentOver c)

/-! ### Marking -/

/-- In a step contexts are added, and one context at most, which is entered, is marked as answered. -/
inductive Marks (s : System) (x : Step) : Prop
  | nobody {s₁ : System} (adds : s.Adds s₁) (contexts : x.after.contexts = s₁.contexts) (entered : x.concluded? = none)
  | somebody {s₁ : System} {k : ContextId} {y : TaskContext} (adds : s.Adds s₁) (known : s₁.contexts[k]? = some y)
    (unfinished : y.finished = false) (contexts : x.after.contexts = (s₁.conclude k).contexts)
    (entered : x.concluded? = some k)

namespace Marks

lemma of_conduct (takes : Docket.Balanced.Takes s P s' x) (conduct : s.Conduct P s' N) : Marks s x := by
  obtain ⟨s₁, adds, -, contexts | ⟨k, y, known, unfinished, contexts⟩⟩ := conduct.adds
  · refine .nobody adds (takes.contexts.trans contexts) (Docket.concluded?_eq_none fun k => ?_)
    rw [takes.before, ← Docket.isConcluded_of_adds adds, System.isConcluded, System.isConcluded, takes.contexts, contexts]
  · have contexts := takes.contexts.trans contexts
    exact .somebody adds known unfinished contexts
      (Docket.concluded?_conclude adds known unfinished takes.before contexts)

lemma isConcluded (marks : Marks s x) (k : ContextId) :
    x.after.isConcluded k = (s.isConcluded k || x.concluded? == some k) := by
  cases marks with
  | nobody adds contexts entered =>
    rw [System.isConcluded, contexts, ← System.isConcluded, Docket.isConcluded_of_adds adds, entered]
    simp
  | @somebody s₁ j y adds known unfinished contexts entered =>
    rw [System.isConcluded, contexts, ← System.isConcluded,
      Docket.isConcluded_conclude s₁ j k (by rw [known]; rfl), Docket.isConcluded_of_adds adds, entered, Bool.or_comm]
    rw [show (some j == some k) = decide (k = j) by simp [beq_eq_decide, eq_comm]]

/-- A context that is marked in the step was not before. -/
lemma unmarked (marks : Marks s x) (entered : x.concluded? = some k) : s.isConcluded k = false := by
  cases marks with
  | nobody _ _ none_ => cases none_.symm.trans entered
  | somebody adds known unfinished _ some_ =>
    cases some_.symm.trans entered
    rw [← Docket.isConcluded_of_adds adds]
    exact Docket.isConcluded_eq_false known unfinished

/-- A context is what it was, but for its mark. -/
lemma context? (marks : Marks s x) {y : TaskContext} (known : s.contexts[k]? = some y) :
    ∃ z, x.after.contexts[k]? = some z ∧ z.channel = y.channel ∧ z.request = y.request := by
  cases marks with
  | nobody adds contexts => exact ⟨y, contexts ▸ adds.context? known, rfl, rfl⟩
  | @somebody s₁ j _ adds _ _ contexts =>
    rw [contexts, System.conclude, System.onContext, List.getElem?_modify, adds.context? known]
    by_cases hj : j = k <;> simp [hj]

lemma context?_before (marks : Marks s x) {z : TaskContext} (known : x.after.contexts[k]? = some z) :
    (∃ y, s.contexts[k]? = some y ∧ z.channel = y.channel ∧ z.request = y.request) ∨ s.contexts[k]? = none := by
  cases hy : s.contexts[k]? with
  | none => exact .inr rfl
  | some y =>
    obtain ⟨z', hz', same⟩ := marks.context? hy
    cases known.symm.trans hz'
    exact .inl ⟨y, rfl, same⟩

end Marks

/-! ### Steps that are entered -/

/-- A step that a process takes from the program `P`, which leaves the contexts and the queues as they are in `s'`. -/
structure Enters (s : System) (p : ProcessId) (P : Program) (s' : System) (x : Step) : Prop extends
    Docket.Balanced.Takes s P s' x where
  known : s.program? p = some P
  conduct : s.Conduct P s' x.next
  plain : x.next.isPlain = true
  kin : P.isApart = false → x.next.isApart = false
  kind : x.next.handles? = P.handles? ∨ x.next.isFinished = true
  awake : x.filed ≠ [] → ∀ k, P.handles? = some k → s.isActive p = true
  marking : x.concluded?.isSome = true → x.after.processes = s'.processes

namespace Enters

lemma marks (e : Enters s p P s' x) : Marks s x := .of_conduct e.toTakes e.conduct

/-- What the processes were, but for what the step adds. -/
lemma exists_adds (e : Enters s p P s' x) : ∃ s₁, s.Adds s₁ ∧ s'.processes = s₁.processes := by
  obtain ⟨s₁, adds, processes, -⟩ := e.conduct.adds
  exact ⟨s₁, adds, processes⟩

lemma program? (e : Enters s p P s' x) : s'.program? p = some P := by
  obtain ⟨s₁, adds, processes⟩ := e.exists_adds
  rw [System.program?, processes]
  exact adds.programs p P e.known

lemma program?_after (e : Enters s p P s' x) (q : ProcessId) :
    (s'.setProgram p x.next).program? q = if p = q then some x.next else s'.program? q :=
  Docket.Balanced.program?_setProgram e.program? (fun _ => rfl) q

/-- The process that takes a step is where the step leads it. -/
lemma program?_self (e : Enters s p P s' x) : (s'.setProgram p x.next).program? p = some x.next :=
  (e.program?_after p).trans (if_pos rfl)

/-- The other processes are where they were. -/
lemma program?_of_ne (e : Enters s p P s' x) {q : ProcessId} {Q : Program} (other : p ≠ q)
    (known : s.program? q = some Q) : (s'.setProgram p x.next).program? q = some Q := by
  obtain ⟨s₁, adds, processes⟩ := e.exists_adds
  rw [e.program?_after, if_neg other, System.program?, processes]
  exact adds.programs q Q known

lemma streamers_before (e : Enters s p P s' x) (k : ContextId) : s'.streamers k ⊆ s.streamers k := by
  obtain ⟨s₁, adds, processes⟩ := e.exists_adds
  rw [System.streamers_eq processes]
  exact System.streamers_of_adds adds

/-- A process that goes on does not begin to wait with a part of the result for a marked context. -/
lemma streamers_after (e : Enters s p P s' x) (marked : s'.isConcluded k = true) :
    (s'.setProgram p x.next).streamers k ⊆ s'.streamers k := by
  intro q hq
  obtain ⟨active, Q, hQ, streams⟩ := System.mem_streamers.mp hq
  rw [e.program?_after] at hQ
  split at hQ
  next hpq =>
    subst hpq
    cases hQ
    have streams : P.streams? = some k := by
      refine (e.conduct.streams? e.kind streams).resolve_right fun ⟨unmarked, same⟩ => ?_
      rw [System.isConcluded, same, ← System.isConcluded, unmarked] at marked
      cases marked
    have unfinished := (Program.attends_of_handles? (Program.streams?_eq_some.mp streams).2).2
    exact System.mem_streamers.mpr ⟨System.isActive_of_setProgram e.program? unfinished active, P, e.program?, streams⟩
  next hpq =>
    rw [System.isActive_setProgram_of_ne hpq] at active
    exact System.mem_streamers.mpr ⟨active, Q, hQ, streams⟩

/-- A part of the result that is put for a marked context is put by one who waited with it and waits no more. -/
lemma card_streamers (e : Enters s p P s' x) (marked : s'.isConcluded k = true) (puts : x.filed ≠ [])
    (streams : P.streams? = some k) (over_ : x.next.streams? = none) :
    ((s'.setProgram p x.next).streamers k).card < (s.streamers k).card := by
  have waits : p ∈ s.streamers k :=
    System.mem_streamers.mpr ⟨e.awake puts k (Program.streams?_eq_some.mp streams).2, P, e.known, streams⟩
  have gone : p ∉ (s'.setProgram p x.next).streamers k := fun hp => by
    obtain ⟨-, Q, hQ, hstreams⟩ := System.mem_streamers.mp hp
    rw [e.program?_after, if_pos rfl] at hQ
    cases hQ
    cases over_.symm.trans hstreams
  have fewer := (e.streamers_after marked).trans (e.streamers_before k)
  exact Finset.card_lt_card ((Finset.ssubset_iff_of_subset fewer).mpr ⟨p, waits, gone⟩)

end Enters

/-! ### Putting -/

/-- What a step puts: nothing that is to be filed, or one response for one context. -/
inductive Files (d : Docket) (p : ProcessId) (x : Step) : Prop
  | nothing (filed : x.filed = []) (handed : ∀ k, x.concluded?.or (d.errand p) = some k → x.handed k = 0)
    (sent : ∀ c, x.before.sentOver c <+: x.after.sentOver c)
  | one {k : ContextId} {y : TaskContext} {c : ChannelId} {r : Response} (known : x.after.contexts[k]? = some y)
    (channel : y.channel = some c) (request : r.request = some y.request) (filed : x.filed = [r])
    (cause : d.cause p x r = some k)
    (sent : ∀ c', x.after.sentOver c' = x.before.sentOver c' ++ if c' = c then [.response r] else [])
    (last : r.concludes = true → y.finished = true)
    (part : r.concludes = false →
      x.concluded? = none ∧ x.next.streams? = none ∧ (y.finished = true → x.program.streams? = some k))

namespace Files

variable {m : Option Sent} {c : ChannelId}

/-- What is put is no response. -/
lemma dull {d : Docket} (attends : x.program.isApart = false) (none_ : m.bind Sent.response? = none)
    (sent : ∀ c', x.after.sentOver c' = x.before.sentOver c' ++ if c' = c then m.toList else []) : Files d p x := by
  refine .nothing ?_ (fun k _ => Docket.handed_eq_zero (fun c' => ⟨_, sent c', fun n hn => ?_⟩) k) fun c' => ?_
  · rw [Step.filed_eq attends sent, none_]
    rfl
  · split at hn
    · obtain rfl := Option.mem_toList.mp hn
      exact Sent.answer?_of_response? none_
    · cases hn
  · rw [sent]
    exact List.prefix_append _ _

/-- What becomes of a response that is sent for a context. -/
lemma of_fate {d : Docket} {y : TaskContext} {r : Response} (attends : x.program.isApart = false)
    (fate : s.Fate c (some (.response r)) s' x.next) (before : ∀ c, x.before.sentOver c = s.sentOver c)
    (after : ∀ c, x.after.sentOver c = s'.sentOver c) (known : x.after.contexts[k]? = some y)
    (channel : y.channel = some c) (request : r.request = some y.request) (cause : d.cause p x r = some k)
    (last : r.concludes = true → y.finished = true)
    (part : r.concludes = false → x.concluded? = none ∧ (y.finished = true → x.program.streams? = some k)) :
    Files d p x := by
  obtain ⟨n, hn, sent⟩ := fate.sent
  have sent (c' : ChannelId) : x.after.sentOver c' = x.before.sentOver c' ++ if c' = c then n.toList else [] := by
    rw [after, before, sent]
  obtain rfl | ⟨rfl, over_⟩ := hn
  · exact dull attends rfl sent
  · exact .one known channel request (Step.filed_eq attends sent) cause sent last fun h =>
      ⟨(part h).1, Program.streams?_of_part? (Program.part?_of_idle over_), (part h).2⟩

end Files

namespace Kept

/-- What is only added makes no difference to the books. -/
lemma of_gains (h : d.Kept s) (gains : s.Gains s') : d.Kept s' where
  balanced := h.balanced.of_adds gains.toAdds
  accounted := h.accounted
  parts p P w r hP attends waits part := by
    cases known : s.program? p with
    | none => cases (gains.idle p P known hP).symm.trans waits
    | some Q =>
      obtain rfl := Option.some.inj ((gains.programs p Q known).symm.trans hP)
      obtain ⟨k, y, handles, hy, addressed⟩ := h.parts p Q w r known attends waits part
      exact ⟨k, y, handles, gains.context? hy, addressed⟩
  unknown k hk := by
    refine h.unknown k (Option.eq_none_iff_forall_ne_some.mpr fun y known => ?_)
    cases hk.symm.trans (gains.context? known)
  partial_ := h.partial_
  begun k hk := h.begun k (by rwa [Docket.isConcluded_of_adds gains.toAdds] at hk)
  once := h.once
  bounded k hk := by
    have waiting := Finset.card_le_card (System.streamers_of_adds gains.toAdds (k := k))
    have before := h.bounded k (by rwa [Docket.isConcluded_of_adds gains.toAdds] at hk)
    omega
  addressed k y known := by
    obtain known | ⟨known, -⟩ := gains.context?_before known
    · exact h.addressed k y known
    · rw [h.unknown k known, h.begun k (by rw [System.isConcluded, known]; rfl)]
      simp
  queued k y c known channel := by
    obtain known | ⟨known, -⟩ := gains.context?_before known
    · exact (h.queued k y c known channel).trans (gains.sent c).sublist
    · rw [h.unknown k known, h.begun k (by rw [System.isConcluded, known]; rfl)]
      simp

/-- What a step puts is filed. -/
lemma files (h : d.Kept s) (e : Enters s p P s' x) : Files d.docket p x := by
  obtain ⟨takes, hP, conduct, -⟩ := e
  have before (c : ChannelId) : x.before.sentOver c = s.sentOver c := by rw [takes.before]
  -- nobody who has nothing to do with contexts ever set out to send a last response
  have aside (apart : P.isApart = true) (gains : s.Gains s') : Files d.docket p x := by
    refine .nothing (if_pos (takes.program ▸ apart)) (fun k mine => ?_) fun c => by
      rw [before, takes.sent]
      exact gains.sent c
    have herrand : d.docket.errand p = some k := by
      rwa [takes.concluded? gains.toAdds, Option.none_or] at mine
    obtain ⟨Q, hQ, attends⟩ := h.balanced.attends p k herrand
    obtain rfl := Option.some.inj (hP.symm.trans hQ)
    cases apart.symm.trans attends
  -- nor does anybody file anything that is no response
  have dull {c : ChannelId} {m : Option Sent} (none_ : m.bind Sent.response? = none) {s₁ : System} (gains : s.Gains s')
      (sent₁ : ∀ c, s₁.sentOver c = s.sentOver c)
      (sent : ∀ c', s'.sentOver c' = s₁.sentOver c' ++ if c' = c then m.toList else []) : Files d.docket p x := by
    cases hP : P.isApart with
    | true => exact aside hP gains
    | false =>
      exact .dull (takes.program ▸ hP) none_ fun c' => by rw [takes.sent, before, sent, sent₁]
  have still (calm : ∀ c, s'.sentOver c = s.sentOver c) (adds : s.Adds s') : Files d.docket p x :=
    dull (c := 0) (m := none) rfl ⟨adds, fun c => by rw [calm]⟩ (fun _ => rfl) fun c' => by simp [calm]
  cases conduct with
  | calm calm => exact still calm.sent calm.toAdds
  | apart apart gains => exact aside apart gains
  | @concludes s₁ k y c r attends idle calm known unfinished channel request concluding fate =>
    have entered : x.concluded? = some k :=
      Docket.concluded?_conclude calm.toAdds known unfinished takes.before (takes.contexts.trans fate.quiet.contexts)
    have marked : x.after.contexts[k]? = some { y with finished := true } := by
      rw [takes.contexts, fate.quiet.contexts, System.conclude, System.onContext, List.getElem?_modify_eq, known]
      rfl
    refine .of_fate (takes.program ▸ attends) fate (fun c' => ?_) takes.sent marked channel request ?_ (fun _ => rfl)
      fun h => by cases h.symm.trans concluding
    · rw [before, ← calm.sent]
      rfl
    · rw [Docket.cause, if_pos concluding, entered, Option.some_or]
  | @retires s₁ k y attends idle calm known unfinished channel same over_ =>
    subst same
    exact .dull (m := none) (c := 0) (takes.program ▸ attends) rfl fun c' => by
      rw [takes.sent, before, ← calm.sent]
      simp [System.conclude, System.sentOver, System.onContext]
  | @streams k point y c r handles idle known unfinished channel request partial_ fate =>
    have known' : x.after.contexts[k]? = some y := by rw [takes.contexts, fate.quiet.contexts, known]
    refine .of_fate (takes.program ▸ handles ▸ rfl) fate before takes.sent known' channel request ?_
      (fun h => by cases h.symm.trans partial_) fun _ => ⟨takes.concluded? (.of_quiet fate.quiet), fun finished => ?_⟩
    · rw [Docket.cause, if_neg (by rw [partial_]; exact Bool.false_ne_true), takes.program, handles]
      rfl
    · cases unfinished.symm.trans finished
  | closes idle mute fate =>
    obtain ⟨n, hn, sent⟩ := fate.sent
    refine dull ?_ ((System.Gains.of_mute mute).trans fate.gains) mute.sent sent
    obtain rfl | ⟨rfl, -⟩ := hn <;> rfl
  | @carries w attends waits fate =>
    have entered := takes.concluded? (.of_quiet fate.quiet)
    have sameContexts : x.after.contexts = s.contexts := takes.contexts.trans fate.quiet.contexts
    cases hm : w.parcel.meaning.bind Sent.response? with
    | none =>
      obtain ⟨n, hn, sent⟩ := fate.sent
      refine dull ?_ fate.gains (fun _ => rfl) sent
      obtain rfl | ⟨rfl, -⟩ := hn
      · rfl
      · exact hm
    | some r =>
      obtain ⟨m, meaning, hm⟩ := Option.bind_eq_some_iff.mp hm
      cases m with
      | close => cases hm
      | response r' =>
        cases hm
        rw [meaning] at fate
        cases concluding : r.concludes with
        | true =>
          have answer : w.parcel.meaning.bind Sent.answer? = some r := by rw [meaning]; exact if_pos concluding
          obtain ⟨k, y, herrand, known, channel, request⟩ := h.balanced.waits p P w r hP attends waits answer
          have finished : y.finished = true := by
            have marked := h.balanced.marked p k herrand
            rwa [System.isConcluded, known] at marked
          refine .of_fate (takes.program ▸ attends) fate before takes.sent (sameContexts ▸ known) channel request ?_
            (fun _ => finished) fun h => by cases h.symm.trans concluding
          rw [Docket.cause, if_pos concluding, entered, herrand, Option.none_or]
        | false =>
          have part : w.parcel.meaning.bind Sent.part? = some r := by
            rw [meaning]
            exact if_neg (by rw [concluding]; exact Bool.false_ne_true)
          obtain ⟨k, y, handles, known, channel, request⟩ := h.parts p P w r hP attends waits part
          refine .of_fate (takes.program ▸ attends) fate before takes.sent (sameContexts ▸ known) channel request ?_
            (fun h => by cases h.symm.trans concluding) fun _ => ⟨entered, fun _ => ?_⟩
          · rw [Docket.cause, if_neg (by rw [concluding]; exact Bool.false_ne_true), takes.program, handles]
          · rw [takes.program, Program.streams?_eq_some, Program.part?_of_handover waits, part]
            exact ⟨rfl, handles⟩

end Kept

/-! ### Entering a step -/

lemma early_enter (d : Dossier) (p : ProcessId) (x : Step) (k : ContextId) :
    (d.enter p x).early k = if x.after.isConcluded k then d.early k else d.early k ++ d.entries p x k := rfl

lemma late_enter (d : Dossier) (p : ProcessId) (x : Step) (k : ContextId) :
    (d.enter p x).late k = if x.after.isConcluded k then d.late k ++ d.entries p x k else d.late k := rfl

namespace Files

lemma entries_eq {d : Dossier} {r : Response} {j : ContextId} (filed : x.filed = [r])
    (cause : d.docket.cause p x r = some j) (k : ContextId) : d.entries p x k = if j = k then [r] else [] := by
  rw [Dossier.entries, filed, List.filter_singleton, cause]
  by_cases hj : j = k
  · simp [hj]
  · simp [hj, beq_eq_false_iff_ne.mpr hj]

/-- What a step puts for a context is known to be for it. -/
lemma entries {d : Dossier} (files : Files d.docket p x) (k : ContextId) :
    d.entries p x k = [] ∧ (∀ c, x.before.sentOver c <+: x.after.sentOver c) ∨
      ∃ y c r, d.entries p x k = [r] ∧ x.after.contexts[k]? = some y ∧ y.channel = some c ∧
        r.request = some y.request ∧ x.after.sentOver c = x.before.sentOver c ++ [.response r] ∧
        (r.concludes = true → y.finished = true) ∧ (r.concludes = false →
          x.concluded? = none ∧ x.next.streams? = none ∧ (y.finished = true → x.program.streams? = some k)) := by
  cases files with
  | nothing filed _ sent => exact .inl ⟨by rw [Dossier.entries, filed, List.filter_nil], sent⟩
  | @one j y c r known channel request filed cause sent last part =>
    rw [entries_eq filed cause]
    by_cases hj : j = k
    · subst hj
      exact .inr ⟨y, c, r, if_pos rfl, known, channel, request, by rw [sent, if_pos rfl], last, part⟩
    · exact .inl ⟨if_neg hj, fun c' => by rw [sent]; exact List.prefix_append _ _⟩

/-- The docket counts the last responses among what is filed. -/
lemma countP_entries {d : Dossier} (files : Files d.docket p x) (k : ContextId) :
    (d.enter p x).docket.handed k = d.docket.handed k + (d.entries p x k).countP (·.concludes) := by
  have entered : (d.enter p x).docket.handed k =
      d.docket.handed k + if x.concluded?.or (d.docket.errand p) = some k then x.handed k else 0 := by
    change (d.docket.enter p x).handed k = _
    rw [Docket.enter]
    cases mine : x.concluded?.or (d.docket.errand p) with
    | none => simp [Docket.stray]
    | some j =>
      simp only [Docket.stray, Docket.note, Option.some.injEq]
      by_cases hj : k = j
      · simp [hj]
      · simp [hj, Ne.symm hj]
  rw [entered]
  congr 1
  cases files with
  | nothing filed handed _ =>
    rw [Dossier.entries, filed, List.filter_nil, List.countP_nil]
    split
    next mine => exact handed k mine
    next => rfl
  | @one j y c r known channel request filed cause sent last part =>
    rw [entries_eq filed cause]
    cases concluding : r.concludes with
    | true =>
      rw [Docket.cause, if_pos concluding] at cause
      have answer : Sent.answer? (.response r) = some r := if_pos concluding
      rw [cause]
      by_cases hj : j = k
      · subst hj
        rw [if_pos rfl, Docket.handed_eq known channel (sent c)]
        simp [Sent.answersTo, answer, request, concluding]
      · simp [hj]
    | false =>
      have answer : Sent.answer? (.response r) = none := if_neg (by rw [concluding]; exact Bool.false_ne_true)
      have none_ : x.handed k = 0 := Docket.handed_eq_zero (fun c' => ⟨_, sent c', fun m hm => by
        split at hm
        · rw [List.mem_singleton.mp hm, answer]
        · cases hm⟩) k
      rw [none_]
      by_cases hj : j = k <;> simp [hj, concluding]

/-- Ahead of the mark only parts of the result are filed. -/
lemma partial_of_unmarked {d : Dossier} (files : Files d.docket p x) (unmarked : x.after.isConcluded k = false) :
    ∀ r ∈ d.entries p x k, r.concludes = false := by
  intro r hr
  obtain ⟨none_, -⟩ | ⟨y, c, r', one, known, -, -, -, last, -⟩ := files.entries k
  · simp [none_] at hr
  · rw [one, List.mem_singleton] at hr
    subst hr
    refine Bool.eq_false_iff.mpr fun concluding => ?_
    rw [System.isConcluded, known, Option.any_some, last concluding] at unmarked
    cases unmarked

end Files

namespace Kept

/-- What is filed for a context is put behind what was filed for it. -/
lemma enter_all (h : d.Kept s) (e : Enters s p P s' x) (k : ContextId) :
    (d.enter p x).early k ++ (d.enter p x).late k = (d.early k ++ d.late k) ++ d.entries p x k := by
  rw [early_enter, late_enter]
  split
  · rw [List.append_assoc]
  next unmarked =>
    have begun : d.late k = [] := by
      refine h.begun k (Bool.eq_false_iff.mpr fun marked => unmarked ?_)
      rw [e.marks.isConcluded, marked, Bool.true_or]
    rw [begun, List.append_nil, List.append_nil]

/-- Nothing was put for a context that is not known. -/
lemma all_of_unknown (h : d.Kept s) (unknown : s.contexts[k]? = none) : d.early k ++ d.late k = [] := by
  rw [h.unknown k unknown, h.begun k (by rw [System.isConcluded, unknown]; rfl), List.nil_append]

lemma enter_parts (h : d.Kept s) (e : Enters s p P s' x) {q : ProcessId} {Q : Program} {w : Handover} {r : Response}
    (hQ : (s'.setProgram p x.next).program? q = some Q) (attends : Q.isApart = false) (waits : Q.handover? = some w)
    (part : w.parcel.meaning.bind Sent.part? = some r) :
    ∃ k y, Q.handles? = some k ∧ x.after.contexts[k]? = some y ∧ y.channel = some w.channel ∧
      r.request = some y.request := by
  suffices known : ∃ k y, Q.handles? = some k ∧ s.contexts[k]? = some y ∧ y.channel = some w.channel ∧
      r.request = some y.request by
    obtain ⟨k, y, handles, known, channel, request⟩ := known
    obtain ⟨z, hz, sameChannel, sameRequest⟩ := e.marks.context? known
    exact ⟨k, z, handles, hz, sameChannel.trans channel, sameRequest ▸ request⟩
  rw [e.program?_after] at hQ
  split at hQ
  next hpq =>
    cases hQ
    have same : x.next.handles? = P.handles? := e.kind.resolve_right (by simp [Program.isFinished_of_handover waits])
    obtain ⟨attends, v, waits, channel, part⟩ | ⟨k, y, handles, known, -, channel, request, -⟩ :=
      e.conduct.part? waits attends part
    · rw [same, ← channel]
      exact h.parts p P v r e.known attends waits part
    · exact ⟨k, y, same.trans handles, known, channel, request⟩
  next hpq =>
    obtain ⟨s₁, adds, processes⟩ := e.exists_adds
    rw [System.program?, processes, ← System.program?] at hQ
    cases hq : s.program? q with
    | none => cases (adds.idle q Q hq hQ).symm.trans waits
    | some R =>
      obtain rfl := Option.some.inj ((adds.programs q R hq).symm.trans hQ)
      exact h.parts q R w r hq attends waits part

lemma enter_bounded (h : d.Kept s) (e : Enters s p P s' x) (hk : x.after.isConcluded k = true) :
    ((d.enter p x).late k).countP (!·.concludes) + ((s'.setProgram p x.next).streamers k).card ≤
      ((d.enter p x).waited k).card := by
  have files := h.files e
  have marked : s'.isConcluded k = true := by rwa [System.isConcluded, e.contexts, ← System.isConcluded] at hk
  have stays := e.streamers_after marked
  rw [late_enter, if_pos hk, List.countP_append]
  by_cases entered : x.concluded? = some k
  · -- nothing was put since the mark, and what the step puts is the last response
    have waited : (d.enter p x).waited k = x.after.streamers k := if_pos entered
    have none_ : (d.entries p x k).countP (!·.concludes) = 0 := by
      obtain ⟨none_, -⟩ | ⟨y, c, r, one, -, -, -, -, -, part⟩ := files.entries k
      · rw [none_, List.countP_nil]
      · have concluding : r.concludes = true := Bool.not_eq_false _ ▸ fun h => by
          cases (part h).1.symm.trans entered
        simp [one, concluding]
    rw [h.begun k (e.marks.unmarked entered), none_, waited,
      System.streamers_eq (e.marking (by rw [entered]; rfl)), List.countP_nil]
    have fewer := Finset.card_le_card stays
    omega
  · have waited : (d.enter p x).waited k = d.waited k := if_neg entered
    have bounded := h.bounded k (by simpa [e.marks.isConcluded, entered] using hk)
    rw [waited]
    obtain ⟨none_, -⟩ | ⟨y, c, r, one, known, -, -, -, -, part⟩ := files.entries k
    · have fewer := Finset.card_le_card (stays.trans (e.streamers_before k))
      rw [none_, List.countP_nil]
      omega
    · rw [one, List.countP_singleton]
      cases concluding : r.concludes with
      | true =>
        have fewer := Finset.card_le_card (stays.trans (e.streamers_before k))
        rw [Bool.not_true, if_neg Bool.false_ne_true]
        omega
      | false =>
        obtain ⟨-, over_, streams⟩ := part concluding
        have finished : y.finished = true := by rwa [System.isConcluded, known] at hk
        have puts : x.filed ≠ [] := fun none_ => by
          rw [entries, none_, List.filter_nil] at one
          cases one
        have fewer := e.card_streamers marked puts (e.program ▸ streams finished) over_
        rw [Bool.not_false, if_pos rfl]
        omega

/-- **A step is entered.** -/
lemma enter (h : d.Kept s) (e : Enters s p P s' x) : (d.enter p x).Kept (s'.setProgram p x.next) := by
  have files := h.files e
  have contexts : (s'.setProgram p x.next).contexts = x.after.contexts := e.contexts.symm
  have isConcluded (k : ContextId) : (s'.setProgram p x.next).isConcluded k = x.after.isConcluded k := by
    rw [System.isConcluded, System.isConcluded, contexts]
  have sent (c : ChannelId) : (s'.setProgram p x.next).sentOver c = x.after.sentOver c := (e.sent c).symm
  constructor
  case balanced => exact h.balanced.enter e.known e.toTakes e.conduct e.plain e.kin
  case accounted =>
    change (d.astray || _) = false
    rw [h.accounted, Bool.false_or, List.any_eq_false]
    intro r hr
    cases files with
    | nothing filed => simp [filed] at hr
    | one _ _ _ filed cause =>
      rw [filed, List.mem_singleton] at hr
      simp [hr, cause]
  case parts =>
    intro q Q w r hQ attends waits part
    rw [contexts]
    exact h.enter_parts e hQ attends waits part
  case unknown =>
    intro k hk
    rw [contexts] at hk
    have before : s.contexts[k]? = none := Option.eq_none_iff_forall_ne_some.mpr fun y known => by
      obtain ⟨z, hz, -⟩ := e.marks.context? known
      cases hk.symm.trans hz
    obtain ⟨none_, -⟩ | ⟨y, c, r, -, known, -⟩ := files.entries k
    · simp [early_enter, none_, h.unknown k before]
    · cases hk.symm.trans known
  case partial_ =>
    intro k r hr
    rw [early_enter] at hr
    split at hr
    · exact h.partial_ k r hr
    next unmarked =>
      rcases List.mem_append.mp hr with hr | hr
      · exact h.partial_ k r hr
      · exact files.partial_of_unmarked (Bool.eq_false_iff.mpr unmarked) r hr
  case begun =>
    intro k hk
    rw [isConcluded] at hk
    have unmarked := hk
    rw [e.marks.isConcluded, Bool.or_eq_false_iff] at unmarked
    rw [late_enter, hk, if_neg Bool.false_ne_true]
    exact h.begun k unmarked.1
  case once =>
    intro k
    rw [files.countP_entries, ← h.once k, late_enter]
    split
    · rw [List.countP_append]
    next unmarked =>
      have none_ : (d.entries p x k).countP (·.concludes) = 0 := List.countP_eq_zero.mpr fun r hr => by
        simp [files.partial_of_unmarked (Bool.eq_false_iff.mpr unmarked) r hr]
      rw [none_, Nat.add_zero]
  case bounded =>
    intro k hk
    rw [isConcluded] at hk
    exact h.enter_bounded e hk
  case addressed =>
    intro k y known r hr
    rw [contexts] at known
    rw [h.enter_all e] at hr
    rcases List.mem_append.mp hr with hr | hr
    · obtain ⟨z, hz, -, same⟩ | hnone := e.marks.context?_before known
      · rw [same]
        exact h.addressed k z hz r hr
      · simp [h.all_of_unknown hnone] at hr
    · obtain ⟨none_, -⟩ | ⟨z, c, r', one, hz, -, request, -⟩ := files.entries k
      · simp [none_] at hr
      · cases known.symm.trans hz
        rw [one, List.mem_singleton] at hr
        rw [hr, request]
  case queued =>
    intro k y c known channel
    rw [contexts] at known
    rw [h.enter_all e, List.map_append, sent]
    have before : ((d.early k ++ d.late k).map .response).Sublist (x.before.sentOver c) := by
      rw [e.before]
      obtain ⟨z, hz, same, -⟩ | hnone := e.marks.context?_before known
      · exact h.queued k z c hz (same ▸ channel)
      · simp [h.all_of_unknown hnone]
    obtain ⟨none_, grows⟩ | ⟨z, c', r, one, hz, channel', -, put, -⟩ := files.entries k
    · rw [none_, List.map_nil, List.append_nil]
      exact before.trans (grows c).sublist
    · cases known.symm.trans hz
      cases channel.symm.trans channel'
      rw [one, put]
      exact before.append (.refl _)

end Kept

end Dossier

end GraphServer
