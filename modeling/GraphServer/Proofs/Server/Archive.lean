import GraphServer.Proofs.Frame.Exchange
import GraphServer.Proofs.Message.Encoded
import GraphServer.Proofs.Server.History

/-!
What follows the last response to a request, whoever holds its context.

* `Archive`: where the server stands, and the books about all that is put into the queues for contexts;
* `Archive.kept_play`: the books agree with the server whatever occurs;
* `Archive.late_bounded`: **one last response at most is put for a context, and it is followed by no more than the parts
  of the result that were waiting when the context was marked as answered**. On the wire a part that cannot be encoded
  looks like a last response, too.
-/

namespace GraphServer

/-- The history of a server with books about all that is put into queues for contexts. -/
structure Archive where
  system : System
  dossier : Dossier := {}

namespace System

/-! ### What goes out -/

variable {s : System} {r : Response}

/-- What the frame of a response spells. -/
def spells (s : System) (r : Response) : Response :=
  s.service.codec.spelled s.service.codec.allocator.pool r

/-- Whether a response goes out as it is. -/
def GoesOutWhole (s : System) (r : Response) : Prop :=
  s.service.codec.EncodesWhole s.service.codec.allocator.pool r

/-- The frame of a response holds the encoding of what it spells. -/
lemma frameOf_eq_ok {f : OutboundFrame} (h : s.frameOf r = .ok f) :
    f.body = (s.service.codec.responseEncoding (s.spells r)).bytes := by
  rw [frameOf] at h
  cases hbytes : (s.service.codec.encodeResponse s.service.codec.allocator.pool r).1 with
  | error e =>
    rw [hbytes] at h
    cases h
  | ok bytes =>
    rw [hbytes] at h
    obtain ⟨-, rfl⟩ := OutboundFrame.make_eq_ok_iff.mp h
    exact (MessageCodec.encodeResponse_eq_ok (.make _ _ _) hbytes).2

/-- What holds of every replacement holds of what goes out if it holds of the response or that is replaced. -/
lemma spells_iff {P : Response → Prop} (replaced : ∀ request e, P (MessageCodec.fallback request e)) :
    P (s.spells r) ↔ P r ∨ ¬ s.GoesOutWhole r := by
  by_cases whole : s.GoesOutWhole r
  · rw [spells, whole.spelled_eq]
    exact (or_iff_left (not_not.mpr whole)).symm
  · obtain ⟨e, he⟩ := MessageCodec.exists_spelled_eq_fallback whole
    rw [spells, he]
    exact iff_of_true (replaced r.request e) (.inr whole)

/-- What goes out looks like a last response if it is one or is replaced. -/
lemma concludes_spells : (s.spells r).concludes = true ↔ r.concludes = true ∨ ¬ s.GoesOutWhole r :=
  spells_iff (P := (·.concludes = true)) fun _ _ => rfl

end System

namespace Dossier

/-- Enters steps of a process in order. -/
def enterAll (d : Dossier) (taken : List (ProcessId × Step)) : Dossier :=
  taken.foldl (fun d e => d.enter e.1 e.2) d

end Dossier

namespace Archive

open GraphServer.System

/-! ### The history -/

/-- The beginning of the history. -/
def start (service : Service) : Archive :=
  { system := { service } }

/-- The archive after something occurred. -/
def next (b : Archive) (occurrence : Occurrence) : Archive where
  system := (({ system := b.system } : Casebook).next occurrence).system
  dossier := b.dossier.enterAll (occurrence.steps b.system)

/-- The archive after all that occurred. -/
def play (b : Archive) (occurrences : List Occurrence) : Archive :=
  occurrences.foldl next b

/-- The books of an empty server agree with it. -/
lemma kept_start (service : Service) : (start service).dossier.Kept (start service).system where
  balanced := Casebook.balanced_start service
  accounted := rfl
  parts _ _ _ _ hP := by cases hP
  unknown _ _ := rfl
  partial_ _ _ hr := absurd hr List.not_mem_nil
  begun _ _ := rfl
  once _ := rfl
  bounded _ marked := by cases marked
  addressed _ _ known := by cases known
  queued _ _ _ known := by cases known

/-- The books about all steps that led to a state agree with it. -/
lemma kept_of_history {s : System} {steps : List (ProcessId × Step)} (history : History s steps) :
    (({} : Dossier).enterAll steps).Kept s := by
  induction history with
  | starts service => exact kept_start service
  | gains _ gains ih => exact ih.of_gains gains
  | takes _ enters _ ih =>
    rw [Dossier.enterAll, List.foldl_append]
    exact ih.enter enters

/-- The books are about all steps that were taken. -/
lemma history_play (service : Service) (occurrences : List Occurrence) :
    ∃ steps, History ((start service).play occurrences).system steps ∧
      ((start service).play occurrences).dossier = ({} : Dossier).enterAll steps := by
  suffices h : ∀ (b : Archive) (steps : List (ProcessId × Step)), History b.system steps →
      b.dossier = ({} : Dossier).enterAll steps → ∃ steps, History (b.play occurrences).system steps ∧
        (b.play occurrences).dossier = ({} : Dossier).enterAll steps
    from h _ [] (.starts service) rfl
  intro b steps history entered
  induction occurrences generalizing b steps with
  | nil => exact ⟨steps, history, entered⟩
  | cons occurrence occurrences ih =>
    refine ih (b.next occurrence) _ (history.occurs occurrence) ?_
    rw [next, entered, Dossier.enterAll, Dossier.enterAll, Dossier.enterAll, List.foldl_append]

/-- Whatever occurs, the books agree with the server. -/
lemma kept_play (service : Service) (occurrences : List Occurrence) :
    ((start service).play occurrences).dossier.Kept ((start service).play occurrences).system := by
  obtain ⟨steps, history, entered⟩ := history_play service occurrences
  exact entered ▸ kept_of_history history

/-! ### Behind the last response -/

/-- What stands behind the only last response are parts of the result. -/
lemma partial_of_behind {rs before after : List Response} {r : Response} (split : rs = before ++ r :: after)
    (concluding : r.concludes = true) (once : rs.countP (·.concludes) ≤ 1) :
    (∀ t ∈ after, t.concludes = false) ∧ after.length ≤ rs.countP (!·.concludes) := by
  rw [split, List.countP_append, List.countP_cons_of_pos concluding] at once
  have none_ : ∀ t ∈ after, t.concludes = false := fun t ht =>
    Bool.eq_false_iff.mpr (List.countP_eq_zero.mp (by omega) t ht)
  have all : after.countP (!·.concludes) = after.length :=
    List.countP_eq_length.mpr fun t ht => by rw [none_ t ht]; rfl
  refine ⟨none_, ?_⟩
  rw [split, List.countP_append, List.countP_cons, all]
  omega

/-- **Nothing follows the last response to a request but what was waiting.** Whatever occurs on a server, all that those
who have to do with contexts put into a queue is put for a context: it is in the queue of its channel, in that order,
and names its request. Until a context is marked as answered only parts of the result are put for it. Since then its
last response is put once at most, and behind it stand parts of the result only, no more than were waiting for the queue
when the context was marked and do not wait any more. So nothing stands behind it if nothing was waiting. The frame of
a response holds the encoding of that response or of its replacement, and looks like a last response just if the
response is one or is replaced. -/
theorem late_bounded (service : Service) (occurrences : List Occurrence) {k : ContextId} {y : TaskContext}
    {c : ChannelId} (known : ((start service).play occurrences).system.contexts[k]? = some y)
    (channel : y.channel = some c) :
    let b := (start service).play occurrences
    let d := b.dossier
    d.astray = false ∧
      ((d.early k ++ d.late k).map Sent.response).Sublist (b.system.sentOver c) ∧
      (∀ r ∈ d.early k ++ d.late k, r.request = some y.request) ∧
      (∀ r ∈ d.early k, r.concludes = false) ∧ (y.finished = false → d.late k = []) ∧
      (d.late k).countP (·.concludes) ≤ 1 ∧
      (∀ before r after, d.late k = before ++ r :: after → r.concludes = true →
        (∀ t ∈ after, t.concludes = false) ∧ after.length + (b.system.streamers k).card ≤ (d.waited k).card) ∧
      ∀ r f, b.system.frameOf r = .ok f →
        f.body = (b.system.service.codec.responseEncoding (b.system.spells r)).bytes ∧
          ((b.system.spells r).concludes = true ↔ r.concludes = true ∨ ¬ b.system.GoesOutWhole r) := by
  intro b d
  have h : d.Kept b.system := kept_play service occurrences
  have begun (unfinished : y.finished = false) : d.late k = [] := h.begun k (Docket.isConcluded_eq_false known unfinished)
  have once : (d.late k).countP (·.concludes) ≤ 1 := by
    cases finished : y.finished with
    | false =>
      rw [begun finished]
      exact Nat.zero_le _
    | true =>
      have settled := h.balanced.settled k y c known finished channel
      rw [h.once k]
      omega
  refine ⟨h.accounted, h.queued k y c known channel, h.addressed k y known, h.partial_ k, begun, once, ?_, ?_⟩
  · intro before r after split concluding
    obtain ⟨none_, few⟩ := partial_of_behind split concluding once
    have marked : b.system.isConcluded k = true := by
      cases finished : y.finished with
      | false => simp [begun finished] at split
      | true =>
        rw [isConcluded, known]
        exact finished
    have bounded := h.bounded k marked
    exact ⟨none_, by omega⟩
  · intro r f made
    exact ⟨frameOf_eq_ok made, concludes_spells⟩

/-- A part of the result waits until the frame before it is written. Meanwhile somebody else who holds the context
completes the request. -/
def overtaken : List Occurrence :=
  [.ordinary (.openChannel {}), .openContext .nil (some 0), .trySend 0 ⟨[0, 0, 0, 1], [7]⟩,
    .engage 0 (.once (.stream (.int 1))), .ordinary (.turn 1 128 9), .ordinary (.turn 0 128 9),
    .engage 0 (.once (.complete .null)), .ordinary (.turn 2 128 9), .ordinary (.turn 0 128 9),
    .ordinary (.ring 1), .ordinary (.turn 1 128 9)]

/-- One part was waiting when the context was marked as answered, so one part at most stands behind the last
response. -/
theorem late_bounded_overtaken :
    let b := (start (Casebook.oneAtATime 5000)).play overtaken
    ∃ y, b.system.contexts[0]? = some y ∧ y.channel = some 0 ∧ (b.dossier.late 0).countP (·.concludes) ≤ 1 ∧
      ∀ before r after, b.dossier.late 0 = before ++ r :: after → r.concludes = true → after.length ≤ 1 := by
  intro b
  have facts : (b.system.contexts[0]?.any (·.channel == some 0)) = true ∧ (b.dossier.waited 0).card = 1 := by
    decide +kernel
  obtain ⟨y, hy, hchannel⟩ := (Option.any_eq_true _ _).mp facts.1
  obtain ⟨-, -, -, -, -, once, behind, -⟩ :=
    late_bounded (Casebook.oneAtATime 5000) overtaken hy (beq_iff_eq.mp hchannel)
  refine ⟨y, hy, beq_iff_eq.mp hchannel, once, fun before r after split concluding => ?_⟩
  have few := (behind before r after split concluding).2
  change after.length + _ ≤ (b.dossier.waited 0).card at few
  omega

/-- **A part of the result follows the last response**, and two frames that look like last responses go out for one
request: a part that cannot be encoded, and what completes the request. -/
theorem late_part_and_second_last :
    let raced := (start (Casebook.oneAtATime 5000)).play overtaken
    let replaced := (start { codec := { registry := .empty } }).play
      [.ordinary (.openChannel {}), .openContext .nil (some 0),
        .engage 0 (.andThen (.stream (.int 1)) (.once (.complete .null))), .ordinary (.turn 1 128 9)]
    (raced.dossier.early 0).length = 0 ∧ (raced.dossier.late 0).map (·.concludes) = [true, false] ∧
      (replaced.dossier.early 0 ++ replaced.dossier.late 0).map (fun r => (replaced.system.spells r).concludes) =
        [true, true] := by
  decide +kernel

end Archive

end GraphServer
