import GraphServer.Proofs.Session.Lineup
import GraphServer.Proofs.Session.Playing

/-!
The tasks of a session one after the other.

* `Course.row_of_still`: when nothing goes on any more, all tasks are answered;
* `Opening.play_inTurn`: **after any moves tasks were executed and answered in the order in which they were accepted**.
-/

namespace GraphServer

open Affairs
open Opening (session channel)

variable {i : SessionId} {c : ChannelId} {o a : Affairs} {whole : Bool} {accepted : List Task} {steps : List Step}
  {limit : Nat}

/-- When nothing goes on any more, all tasks that stood in line are answered. -/
lemma Course.row_of_still (course : Course i c o whole none a accepted steps) (row : Row accepted (a.acting none) a)
    (asleep : a.session.future ≠ none → a.awake = false) (still : ∀ program ∈ a.programs, program.isPending = false) :
    (Sent.answers a.sent).map (·.request) = accepted.map (some ·.request.id) := by
  have hflight := course.attention.flight_of_still asleep still course.staffed
  have hqueue := course.attention.queue_of_still asleep still course.staffed
  obtain ⟨past, rest, haccepted, hrest, hanswers⟩ := row
  have hdue : a.due (a.acting none) = [] := by
    rw [due, line_eq, hflight, hqueue]
    rfl
  rw [hdue, List.map_eq_nil_iff] at hrest
  rw [hanswers, haccepted, hrest, List.append_nil]

/-- How many tasks may wait is settled when the session is opened. -/
lemma Opening.backlog_of_limit {o : Opening} (service : Service) (many : o.limit? = some limit) :
    ∃ backlog, (o.affairs service).session.backlog = some backlog ∧ backlog.limit = limit := by
  cases o with
  | single name => cases many
  | multi name n =>
    cases many
    exact ⟨_, rfl, rfl⟩
  | watched name n =>
    cases many
    rw [affairs]
    split <;> exact ⟨_, rfl, rfl⟩

/-- In a session for many tasks, in which every turn goes on until its process waits or ends and every last response
gets into the queue at once, the tasks are executed and answered one after the other. -/
theorem Opening.play_inTurn (service : Service) (transport : Transport) (o : Opening) (moves : List Move)
    (many : o.limit? = some limit) (whole : (o.play service transport moves).isWhole = true)
    (prompt : ∀ x ∈ (o.play service transport moves).steps, x.IsPrompt channel) :
    (o.play service transport moves).InTurn limit := by
  obtain ⟨a, hshows, hcourse⟩ := o.course service transport moves
  obtain ⟨backlog, hbacklog, rfl⟩ := backlog_of_limit service many
  have hlineup := hcourse.lineup hbacklog whole prompt
  obtain ⟨past, rest, haccepted, -, hanswers⟩ := hlineup.row
  obtain ⟨later, hstarted, -⟩ := hlineup.roll.started
  refine ⟨hcourse.books.custody.nodup, ⟨later, hstarted.symm⟩, hlineup.roll.polled, ?_, fun settled => ?_, ?_⟩
  · rw [hshows.sentOver, hanswers, haccepted, List.map_append]
    exact List.prefix_append ..
  · obtain ⟨hasleep, hstill⟩ := hshows.settled settled
    rw [hshows.sentOver]
    exact hcourse.row_of_still hlineup.row hasleep hstill
  · obtain ⟨b, hb, -, hlength⟩ := hlineup.room
    refine ⟨b.tasks.length, ?_, hlength⟩
    rw [hshows.session, Option.bind_some, Session.queued?, hb, Option.map_some]

/-! ### Three tasks -/

namespace Opening

/-- A service whose handlers sleep before they answer. -/
def napping : Service where
  settings := { sessionLifetime := 15 }
  ops := OpRegistry.register {} ⟨"", "eval"⟩ fun _ => .sleep 10 (.once (.complete (.int 1)))

/-- The time of the first task is declared to be up, the second one is answered by its handler, and the third one by the
watch over the session, which is the third process. -/
def threeNaps : List Move :=
  [.submit ⟨.nil, "eval", "", .empty⟩, .submit ⟨.nil, "eval", "", .empty⟩, .submit ⟨.nil, "eval", "", .empty⟩,
    .turn 0 9 9, .turn 1 9 9, .turn 2 9 9, .turn 3 9 9, .timeout 5 false, .turn 4 9 9, .turn 3 9 9, .turn 1 9 9,
    .turn 5 9 9, .ring 10, .turn 5 9 9, .turn 1 9 9, .turn 6 9 9, .ring 15, .turn 2 9 19, .turn 6 9 9, .turn 1 9 9,
    .turn 2 9 9, .turn 0 9 9]

/-- They are answered in turn. -/
theorem play_inTurn_threeNaps :
    let h := (watched "s" 3).play napping {} threeNaps
    h.accepted.length = 3 ∧ h.started.length = 3 ∧ h.system.IsSettled ∧ h.InTurn 3 := by
  intro h
  have hfacts : h.accepted.length = 3 ∧ h.started.length = 3 ∧ h.system.IsSettled ∧ h.isWhole = true ∧
      ∀ x ∈ h.steps, x.IsPrompt channel := by decide +kernel
  obtain ⟨haccepted, hstarted, hsettled, hwhole, hprompt⟩ := hfacts
  exact ⟨haccepted, hstarted, hsettled, play_inTurn napping {} (watched "s" 3) threeNaps rfl hwhole hprompt⟩

end Opening

end GraphServer
