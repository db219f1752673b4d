import GraphServer.Proofs.Session.Chronicle

/-!
What is said for a request in the course of its handler, if all that is sent gets into the queue.

* `Handler.transcript`: the responses that the handler sends, and the one that is sent for it when it returned without
  a last one;
* `Handler.transcript_answered`: nothing is said after the last response;
* `Handler.exists_transcript`: **a handler streams parts of the result, and then there is one last response**, whatever
  calls it makes, whatever it makes of their outcomes and whatever it returns;
* `Handler.transcript_making`: of calls one after the other it is those before the first one that ends the request, and
  that one;
* `Response.EndsOnce`: responses of which the last one, and no other, is final.
-/

namespace GraphServer

/-! ### Last responses -/

lemma Error.isFinal_status (e : Error) : e.status.isFinal = true := by
  cases e with
  | timeout milliseconds ofSession => cases ofSession <;> rfl
  | _ => rfl

namespace Response

/-- The response ends the request: a call sent it that allows no other, or it was sent for a handler that returned. -/
inductive Ends (request : Uuid) : Response → Prop
  | call {c : Call} (terminal : c.isTerminal = true) : Ends request (c.response request)
  | returned (result : Except Error Unit) : Ends request (System.concluding result request)

/-- The last one of some responses, and no other, is final. -/
def EndsOnce (responses : List Response) : Prop :=
  ∃ parts last, responses = parts ++ [last] ∧ (∀ r ∈ parts, r.isFinal = false) ∧ last.isFinal = true

lemma endsOnce_concat {parts : List Response} {last : Response} :
    EndsOnce (parts ++ [last]) ↔ (∀ r ∈ parts, r.isFinal = false) ∧ last.isFinal = true := by
  refine ⟨?_, fun h => ⟨parts, last, rfl, h⟩⟩
  rintro ⟨parts', last', same, h⟩
  obtain ⟨rfl, hlast⟩ := List.append_inj' same rfl
  exact List.singleton_inj.mp hlast ▸ h

instance (responses : List Response) : Decidable (EndsOnce responses) :=
  decidable_of_iff (responses.getLast?.any (·.isFinal) = true ∧ responses.dropLast.all (!·.isFinal) = true) <| by
    cases responses using List.reverseRecOn with
    | nil => simp [EndsOnce]
    | append_singleton parts last => simp [endsOnce_concat, and_comm]

namespace Ends

variable {u : Uuid} {r : Response}

lemma concludes (h : r.Ends u) : r.concludes = true := by
  cases h with
  | call terminal => exact Call.concludes_response terminal u
  | returned result => exact System.concludes_concluding result u

lemma request (h : r.Ends u) : r.request = some u := by
  cases h with
  | @call c => exact c.request_response u
  | returned result => exact System.request_concluding result u

/-- A last response is final but for the one with which a handler gives up under the status of a part. -/
lemma isFinal_eq_false_iff (h : r.Ends u) :
    r.isFinal = false ↔ ∃ message, r = (Call.fail .partialContent message).response u := by
  refine ⟨fun partial_ => ?_, fun ⟨_, hr⟩ => hr ▸ rfl⟩
  cases h with
  | @call c terminal =>
    cases c with
    | stream data => cases terminal
    | complete data => cases data <;> cases partial_
    | fail status message =>
      have same : (status != .partialContent) = false := partial_
      obtain rfl : status = .partialContent := by simpa using same
      exact ⟨message, rfl⟩
    | failWith e => cases e.isFinal_status.symm.trans partial_
  | returned result =>
    cases result with
    | ok _ => cases partial_
    | error e => cases e.isFinal_status.symm.trans partial_

end Ends

end Response

/-! ### Transcripts -/

namespace Handler

/-- What is said for a request from here on, by its handler and, once that has returned, for it; `answered` tells whether
the last response was sent off, after which every call fails. -/
def transcript (request : Uuid) : Handler → (answered : Bool) → List Response
  | .return result, answered => if answered then [] else [System.concluding result request]
  | .call c next, answered =>
    if answered then (next (.error (.protocol (.alreadyAnswered request)))).transcript request true
    else c.response request :: (next (.ok ())).transcript request c.isTerminal
  | .sleep _ next, answered => next.transcript request answered

variable (u : Uuid)

/-- Nothing is said after the last response, however the handler takes it that its calls fail. -/
lemma transcript_answered (h : Handler) : h.transcript u true = [] := by
  induction h with
  | «return» result => rfl
  | call c next ih => exact ih _
  | sleep milliseconds next ih => exact ih

/-- A call that ends the request is the last thing that is said. -/
lemma transcript_call {c : Call} (terminal : c.isTerminal = true) (next : Except Error Unit → Handler) :
    (Handler.call c next).transcript u false = [c.response u] := by
  change c.response u :: (next (.ok ())).transcript u c.isTerminal = _
  rw [terminal, transcript_answered]

/-- **A handler streams parts of the result, and then there is one last response.** -/
theorem exists_transcript (h : Handler) : ∃ (parts : List Value) (last : Response),
    h.transcript u false = parts.map (fun data => (Call.stream data).response u) ++ [last] ∧ last.Ends u := by
  induction h with
  | «return» result => exact ⟨[], _, rfl, .returned result⟩
  | sleep milliseconds next ih => exact ih
  | call c next ih =>
    cases c with
    | stream data =>
      obtain ⟨parts, last, said, ends⟩ := ih (.ok ())
      exact ⟨data :: parts, last, congrArg _ said, ends⟩
    | _ => exact ⟨[], _, transcript_call u rfl next, .call rfl⟩

/-- Makes calls one after the other, whatever comes of them, and returns. -/
def making (result : Except Error Unit) : List Call → Handler
  | [] => .return result
  | c :: calls => .call c fun _ => making result calls

/-- Of calls one after the other, those before the first one that ends the request are heard, and that one, or else what
is sent for the handler when it has returned. -/
theorem transcript_making (result : Except Error Unit) (calls : List Call) :
    (making result calls).transcript u false =
      (calls.takeWhile (!·.isTerminal)).map (·.response u) ++
        [((calls.find? (·.isTerminal)).map (·.response u)).getD (System.concluding result u)] := by
  induction calls with
  | nil => rfl
  | cons c calls ih =>
    cases terminal : c.isTerminal with
    | true =>
      rw [making, transcript_call u terminal]
      simp [terminal]
    | false =>
      change c.response u :: (making result calls).transcript u c.isTerminal = _
      rw [terminal, ih]
      simp [terminal]

/-- A handler that goes on after its last response is not heard. -/
example : (making (.ok ()) [.stream (.int 1), .complete (.int 2), .stream (.int 3)]).transcript .nil false =
    [(Call.stream (.int 1)).response .nil, (Call.complete (.int 2)).response .nil] := rfl

end Handler

end GraphServer
