import GraphServer.Proofs.Session.Attention
import GraphServer.Proofs.Session.Playing

/-!
Who is answered when the time of a session is up.

* `Course.farewell_iff`: when nothing goes on any more, everybody is answered exactly if nothing was lost on the way;
* `Opening.everybodyAnswered_iff`: **so it is after any moves**;
* `Opening.everybodyAnswered_not_cramped`: a worker that ends while the watch over its session waits with a last
  response stops the watch, and nobody is answered.
-/

namespace GraphServer

open Affairs
open Opening (session channel)

variable {i : SessionId} {c : ChannelId} {o a : Affairs} {whole : Bool} {accepted : List Task} {steps : List Step}
  {elapsed : Nat} {book : List (Task × Response)} {lost : List Response}

/-! ### Due and done -/

/-- Once the time is up, some tasks were due then and all others done. -/
lemma Step.exists_due (accepted : List Task) (late : steps.any (Step.expires i) = true) : ∃ test : Task → Bool,
    Step.due i accepted steps = accepted.filter test ∧ Step.done i accepted steps = accepted.filter (!test ·) := by
  obtain ⟨x, hx⟩ := Option.isSome_iff_exists.mp (List.find?_isSome.mpr (List.any_eq_true.mp late))
  refine ⟨fun t => x.before.isOpen t.context, ?_, ?_⟩
  · rw [Step.due, hx]
  · rw [Step.done, hx]

namespace Affairs

/-- When everything that was accepted is answered and nothing was lost, those that were due are told that the time
is up. -/
lemma Ledger.farewell (h : Ledger i c accepted steps book [] a) (late : a.session.timedOut = some elapsed)
    (closed : ∀ t ∈ accepted, a.isOpen t.context = false)
    (idle : (a.gather fun program => program.answer?.toList) = []) :
    ∃ earlier : List Response,
      (Sent.answers (Sent.ahead a.sent)).Perm
        (earlier ++ (Step.due i accepted steps).map fun t => System.timeoutResponse elapsed true t.request.id) ∧
      (earlier.map (·.request)).Perm ((Step.done i accepted steps).map fun t => some t.request.id) := by
  have hclock : steps.any (Step.expires i) = true := by rw [← h.clock, late]; rfl
  obtain ⟨test, hdue, hdone⟩ := Step.exists_due accepted hclock
  have htasks : (book.map (·.1)).Perm accepted := by
    have hall : (accepted.filter fun t => !a.isOpen t.context) = accepted :=
      List.filter_eq_self.mpr fun t ht => by rw [closed t ht]; rfl
    have htasks := h.tasks
    rwa [hall] at htasks
  have hpart (test : Task → Bool) : ((book.filter fun e => test e.1).map (·.1)).Perm (accepted.filter test) := by
    have hfilter := htasks.filter test
    rwa [List.filter_map] at hfilter
  have htold : ∀ e ∈ book.filter fun e => test e.1, e.2 = System.timeoutResponse elapsed true e.1.request.id := by
    intro e he
    obtain ⟨hmem, htest⟩ := List.mem_filter.mp he
    refine h.late elapsed late e hmem ?_
    rw [hdue]
    exact List.mem_filter.mpr ⟨htasks.mem_iff.mp (List.mem_map_of_mem hmem), htest⟩
  refine ⟨(book.filter fun e => !test e.1).map (·.2), ?_, ?_⟩
  · have hmail := h.mail
    rw [idle, List.append_nil, List.append_nil] at hmail
    have hlate : ((book.filter fun e => test e.1).map (·.2)).Perm
        ((Step.due i accepted steps).map fun t => System.timeoutResponse elapsed true t.request.id) := by
      rw [List.map_congr_left htold, hdue]
      have hmap := (hpart test).map fun t => System.timeoutResponse elapsed true t.request.id
      rwa [List.map_map] at hmap
    calc Sent.answers (Sent.ahead a.sent)
      _ |>.Perm (book.map (·.2)) := hmail.symm
      _ |>.Perm ((book.filter (fun e => test e.1) ++ book.filter fun e => !test e.1).map (·.2)) :=
        (List.filter_append_perm (fun e : Task × Response => test e.1) book).symm.map _
      _ = (book.filter fun e => test e.1).map (·.2) ++ (book.filter fun e => !test e.1).map (·.2) := List.map_append
      _ |>.Perm ((book.filter fun e => !test e.1).map (·.2) ++ (book.filter fun e => test e.1).map (·.2)) :=
        List.perm_append_comm
      _ |>.Perm (_ ++ _) := hlate.append_left _
  · rw [hdone, List.map_map]
    have hrequest : ∀ e ∈ book.filter fun e => !test e.1, e.2.request = some e.1.request.id := by
      intro e he
      exact h.request e (List.mem_filter.mp he).1
    have hmap := (hpart (!test ·)).map fun t => some t.request.id
    rw [List.map_map] at hmap
    exact (List.Perm.of_eq (List.map_congr_left hrequest)).trans hmap

end Affairs

/-! ### The end of a session -/

/-- When nothing goes on any more, everybody is answered exactly if nothing was lost on the way. -/
lemma Course.farewell_iff (course : Course i c o whole none a accepted steps) (late : a.session.timedOut = some elapsed)
    (asleep : a.session.future ≠ none → a.awake = false) (still : ∀ program ∈ a.programs, program.isPending = false) :
    (Sent.close ∈ a.sent ∧ ∃ earlier : List Response,
      (Sent.answers (Sent.ahead a.sent)).Perm
        (earlier ++ (Step.due i accepted steps).map fun t => System.timeoutResponse elapsed true t.request.id) ∧
      (earlier.map (·.request)).Perm ((Step.done i accepted steps).map fun t => some t.request.id)) ↔
    ∀ x ∈ steps, x.keepsAnswers c ∧ x.keepsClosing c := by
  obtain ⟨hcustody, hidle, hnobody⟩ := course.attention.rest asleep still course.staffed
  obtain ⟨hheld, hclosing, book, lost, hledger⟩ := course.books
  constructor
  · rintro ⟨hclose, earlier, hanswers, hearlier⟩
    have hkeeps : ∀ x ∈ steps, x.keepsClosing c := by
      cases hclosing with
      | settled late nobody closed keeps => exact keeps
      | early inTime nobody silent keeps => exact absurd hclose silent
      | owed late somebody silent keeps => exact absurd hclose silent
      | dropped late nobody silent fails => exact absurd hclose silent
    -- as many last responses are in the queue as tasks were accepted
    have hlost : lost = [] := by
      have hclock : steps.any (Step.expires i) = true := by rw [← hledger.clock, late]; rfl
      obtain ⟨test, hdue, hdone⟩ := Step.exists_due accepted hclock
      have hparts := (List.filter_append_perm test accepted).length_eq
      have htasks := hledger.tasks.length_eq
      have hmail := hledger.mail.length_eq
      have hanswers := hanswers.length_eq
      have hearlier := hearlier.length_eq
      have hclosed := List.length_filter_le (fun t => !a.isOpen t.context) accepted
      rw [hidle] at hmail
      rw [hdue] at hanswers
      rw [hdone] at hearlier
      simp only [List.length_append, List.length_map, List.length_nil] at hparts htasks hmail hanswers hearlier
      exact List.eq_nil_of_length_eq_zero (by omega)
    exact fun x hx => ⟨hledger.kept.mp hlost x hx, hkeeps x hx⟩
  · intro hintact
    have hkeeps : ∀ x ∈ steps, x.keepsClosing c := fun x hx => (hintact x hx).2
    have hclose : Sent.close ∈ a.sent := by
      cases hclosing with
      | settled late nobody closed keeps => exact closed
      | early inTime nobody silent keeps => cases inTime.symm.trans late
      | owed late somebody silent keeps => exact absurd somebody hnobody
      | dropped late nobody silent fails => exact absurd hkeeps fails
    have hlost : lost = [] := hledger.kept.mpr fun x hx => (hintact x hx).1
    subst hlost
    refine ⟨hclose, hledger.farewell late (fun t ht => ?_) hidle⟩
    obtain ⟨forsaken, hperm, hnone⟩ := hheld.held
    have hwaiting : a.waiting accepted = [] := by
      rw [hnone hintact, pending, hcustody] at hperm
      exact hperm.eq_nil
    have hnot := List.filter_eq_nil_iff.mp hwaiting t.context (List.mem_map_of_mem ht)
    exact Bool.eq_false_iff.mpr hnot

/-- When the time of a session is up and nothing goes on any more, everybody is answered exactly if no step has lost
a last response and no process that was to close the channel gave up. -/
theorem Opening.everybodyAnswered_iff (service : Service) (transport : Transport) (o : Opening) (moves : List Move)
    (elapsed : Nat) (settled : (o.play service transport moves).system.IsSettled)
    (late : (o.play service transport moves).system.timedOut? session = some elapsed) :
    (o.play service transport moves).EverybodyAnswered elapsed ↔ (o.play service transport moves).IsIntact := by
  obtain ⟨a, hshows, hcourse⟩ := o.course service transport moves
  obtain ⟨hasleep, hstill⟩ := hshows.settled settled
  rw [hshows.timedOut?] at late
  rw [Chronicle.EverybodyAnswered, hshows.sentOver]
  exact hcourse.farewell_iff late hasleep hstill

/-! ### A session whose time is up while its only task sleeps -/

namespace Opening

/-- A service whose handlers sleep for longer than its sessions live, over a queue with so many places. -/
def dozing (places : Nat) : Service where
  settings := { sessionLifetime := 50, writer := { channelCapacity := places } }
  ops := OpRegistry.register {} ⟨"", "eval"⟩ fun _ => .sleep 1000 (.return (.ok ()))

/-- The first task sleeps, and the second one waits, when the time is up; the watch is the third process and the
handler the fourth one. -/
def overslept : List Move :=
  [.submit ⟨.nil, "eval", "", .empty⟩, .submit ⟨.nil, "eval", "", .empty⟩, .turn 0 9 9, .turn 1 9 9, .turn 2 9 9,
    .turn 3 9 9, .ring 50, .turn 2 9 19, .turn 3 9 9, .turn 0 9 9, .turn 1 9 9, .turn 2 9 9]

/-- With places to spare both are answered. -/
theorem everybodyAnswered_overslept :
    let h := (watched "s" 2).play (dozing 4) {} overslept
    h.accepted.length = 2 ∧ h.EverybodyAnswered 50 := by
  intro h
  have hfacts : h.accepted.length = 2 ∧ h.system.IsSettled ∧ h.system.timedOut? session = some 50 ∧ h.IsIntact := by
    decide +kernel
  obtain ⟨haccepted, hsettled, hlate, hintact⟩ := hfacts
  exact ⟨haccepted, (everybodyAnswered_iff (dozing 4) {} (watched "s" 2) overslept 50 hsettled hlate).mpr hintact⟩

/-- One frame of somebody else is with the transport, which stalls, and another one fills the only place of the queue
when the time of the session is up. Then the handler and the worker end before the transport goes on. -/
def cramped : List Move :=
  [.submit ⟨.nil, "eval", "", .empty⟩, .turn 0 9 9, .turn 1 9 9, .turn 2 9 9, .turn 3 9 9,
    .transport ({ · with stalled := true }), .traffic ⟨[0, 0, 0, 0], []⟩, .turn 4 9 9, .turn 0 9 9,
    .traffic ⟨[0, 0, 0, 0], []⟩, .turn 5 9 9, .ring 50, .turn 2 9 9, .turn 3 9 9, .turn 1 9 9, .turn 2 9 9,
    .transport ({ · with stalled := false }), .turn 0 9 9]

/-- The watch waits for a place with the answer to the only task when the worker has it stopped: though the writer
goes on, nobody is answered and the channel stays open. -/
theorem everybodyAnswered_not_cramped :
    let h := (watched "s" 1).play (dozing 1) {} cramped
    h.accepted.length = 1 ∧ h.system.IsSettled ∧ h.system.timedOut? session = some 50 ∧
      (h.system.program? 0).any (!·.isFinished) = true ∧ (h.system.sentOver channel).isEmpty = true ∧
      ¬ h.EverybodyAnswered 50 := by
  intro h
  have hfacts : h.accepted.length = 1 ∧ h.system.IsSettled ∧ h.system.timedOut? session = some 50 ∧
      (h.system.program? 0).any (!·.isFinished) = true ∧ (h.system.sentOver channel).isEmpty = true := by decide +kernel
  obtain ⟨haccepted, hsettled, hlate, hwrites, hsilent⟩ := hfacts
  refine ⟨haccepted, hsettled, hlate, hwrites, hsilent, fun answered => ?_⟩
  exact List.not_mem_nil (List.isEmpty_iff.mp hsilent ▸ answered.1)

end Opening

end GraphServer
