import GraphServer.Proofs.Handler.Transcript
import GraphServer.Proofs.Server.Dossier
import GraphServer.Proofs.Server.Tending
import GraphServer.Proofs.Session.Engaged

/-!
What the handler of a request and the process that waits for it say in a step, and what they have still to say.

* `Program.toCome`: what is still to be put into the queue for a request, at the point at which its handler stands or
  once it has returned; `RunPoint.toCome`: the same of the process that went on from the handler;
* `Step.isRefused`: what a process sends in a step gets into no queue, and the process does not wait with it;
* `Step.tells_handler`: **what was to come before a step of the handler is what it puts and what is to come after it**,
  unless it is refused;
* `Step.tells_joining`, `Step.tells_sending`: the same of the process that went on from it.
-/

namespace GraphServer

/-! ### What is to come -/

/-- What is still to be put into the queue for a request whose handler stands at a point. -/
def HandlerPoint.toCome (request : Uuid) (answered : Bool) : HandlerPoint → List Sent
  | .ready h => (h.transcript request answered).map .response
  | .calling w next => w.parcel.meaning.toList ++ ((next (.ok ())).transcript request answered).map .response
  | .sleeping _ next => (next.transcript request answered).map .response

/-- What is still to be put into the queue for a request by its handler and, once that has returned, for it. -/
def Program.toCome (request : Uuid) (answered : Bool) : Program → List Sent
  | .handler _ point => point.toCome request answered
  | .finished (some result) => ((Handler.return result).transcript request answered).map .response
  | _ => []

/-- What is still to be put into the queue by a process that does not wait for the handler any more. -/
def RunPoint.toCome : RunPoint → List Sent
  | .sending w => w.parcel.meaning.toList
  | _ => []

/-- The context on which a handler is to call next. -/
def Program.calls? : Program → Option ContextId
  | .handler k (.ready (.call ..)) => some k
  | _ => none

/-! ### Steps -/

namespace Step

variable {x : Step} {p : ProcessId} {k : ContextId} {c : ChannelId} {y : TaskContext}

/-- Whether a process sends something in a step: it waits with it, it marks a context as answered, or it is a handler
that calls on a context that is not marked. -/
def sends (x : Step) : Bool :=
  x.program.handover?.isSome || x.concluded?.isSome || x.program.calls?.any fun k => !x.before.isConcluded k

/-- Whether what a process sends in a step is refused: it gets into no queue, and the process does not wait with it. -/
def isRefused (x : Step) : Bool :=
  x.sends && x.filed.isEmpty && x.next.handover?.isNone

/-- What is sent over a channel and not refused is put into its queue, or the process waits with it. -/
lemma said_of_posts {s : System} {m : Option Sent} {t : System × Transit} {α : Type} {next : Except Error Unit → α}
    {waiting : Handover → α} {f : α → Program} (attends : x.program.isApart = false)
    (posts : s.Posts c m t.1 t.2) (before : ∀ c', s.sentOver c' = x.before.sentOver c') (after : x.after = t.1)
    (leads : x.next = ((Transit.turn t next waiting).2.map f).program) (idle : ∀ r, (f (next r)).handover? = none)
    (sends : x.sends = true) (accepted : x.isRefused = false) :
    x.put c = m.toList ∧ x.next = f (next (.ok ())) ∨
      x.put c = [] ∧ ∃ w, x.next = f (waiting w) ∧ w.channel = c ∧ w.parcel.meaning = m := by
  obtain ⟨s', t⟩ := t
  cases posts with
  | put quiet sent =>
    refine .inl ⟨Docket.put_eq ?_, leads⟩
    rw [after, sent, if_pos rfl, before]
  | held mute w channel meaning =>
    refine .inr ⟨Docket.put_eq ?_, w, leads, channel, meaning⟩
    rw [after, mute.sent, before, List.append_nil]
  | refused mute e =>
    have filed : x.filed = [] := filed_eq (m := none) (c := 0) attends fun c' => by
      rw [after, mute.sent, before]
      simp
    have over_ : x.next.handover? = none := leads ▸ idle _
    rw [isRefused, sends, filed, over_] at accepted
    cases accepted

lemma sends_of_handover {w : Handover} (waits : x.program.handover? = some w) : x.sends = true := by
  rw [sends, waits]
  rfl

lemma put_of_mute (mute : x.before.Mute x.after) (c : ChannelId) : x.put c = [] :=
  Docket.put_eq (by rw [mute.sent, List.append_nil])

end Step

namespace System

variable {s s' : System} {p : ProcessId} {k : ContextId} {c : ChannelId} {y : TaskContext}

lemma isConcluded_of_known (known : s.contexts[k]? = some y) : s.isConcluded k = y.finished := by
  rw [isConcluded, known, Option.any_some]

lemma isConcluded_of_contexts (same : s'.contexts = s.contexts) : s'.isConcluded k = s.isConcluded k := by
  rw [isConcluded, isConcluded, same]

lemma isConcluded_conclude_self (known : s.contexts[k]? = some y) : (s.conclude k).isConcluded k = true := by
  rw [Docket.isConcluded_conclude s k k (by rw [known]; rfl), decide_eq_true rfl, Bool.true_or]

/-- A call on a marked context fails and changes nothing. -/
lemma call_of_finished (known : s.contexts[k]? = some y) (finished : y.finished = true) (p : ProcessId) (call : Call) :
    s.call p k call = (s, .done (.error (.protocol (.alreadyAnswered y.request)))) := by
  rw [System.call, known]
  exact if_pos finished

/-- A call on a context that is not marked sends a response, and marks the context if it ends the request. -/
lemma call_posts (known : s.contexts[k]? = some y) (unfinished : y.finished = false) (channel : y.channel = some c)
    (p : ProcessId) (call : Call) :
    (if call.isTerminal then s.conclude k else s).Posts c (some (.response (call.response y.request)))
      (s.call p k call).1 (s.call p k call).2 := by
  rw [System.call, known]
  simp only [unfinished, Bool.false_eq_true, ↓reduceIte, sendFor, channel]
  exact .sendResponse _ p c _

/-- The request is answered for its handler, unless it was answered. -/
lemma tryFinish_of_finished (known : s.contexts[k]? = some y) (finished : y.finished = true) (p : ProcessId)
    (r : Uuid → Response) : s.tryFinish p k r = (s, .done (.ok ())) := by
  rw [tryFinish, known]
  exact if_pos finished

lemma tryFinish_posts (known : s.contexts[k]? = some y) (unfinished : y.finished = false) (channel : y.channel = some c)
    (p : ProcessId) (r : Uuid → Response) :
    (s.conclude k).Posts c (some (.response (r y.request))) (s.tryFinish p k r).1 (s.tryFinish p k r).2 := by
  rw [tryFinish, known]
  simp only [unfinished, Bool.false_eq_true, ↓reduceIte, sendFor, channel]
  exact .sendResponse _ p c _

lemma Posts.quiet {m : Option Sent} {t : Transit} (posts : s.Posts c m s' t) : s.Quiet s' := by
  cases posts with
  | put quiet => exact quiet
  | held mute | refused mute => exact mute.toQuiet

end System

/-! ### The handler -/

namespace Step

variable {x : Step} {p : ProcessId} {k : ContextId} {c : ChannelId} {y : TaskContext} {point : HandlerPoint}

/-- A handler makes a call. -/
lemma tells_call {call : Call} {next : Except Error Unit → Handler}
    (program : x.program = .handler k (.ready (.call call next)))
    (after : x.after = (x.before.stepHandler p k (.ready (.call call next))).1)
    (leads : x.next = ((x.before.stepHandler p k (.ready (.call call next))).2.map (.handler k)).program)
    (known : x.before.contexts[k]? = some y) (channel : y.channel = some c) (accepted : x.isRefused = false) :
    x.program.toCome y.request (x.before.isConcluded k) =
        x.put c ++ x.next.toCome y.request (x.after.isConcluded k) ∧
      ∀ w, x.next.handover? = some w → w.channel = c := by
  rw [System.stepHandler, Transit.turn_fst] at after
  rw [System.stepHandler] at leads
  cases finished : y.finished with
  | true =>
    have fails := System.call_of_finished known finished p call
    rw [fails] at after leads
    rw [put_of_mute (after ▸ .refl _), program, leads, after, System.isConcluded_of_known known, finished]
    exact ⟨rfl, fun w waits => by cases waits⟩
  | false =>
    have posts := System.call_posts known finished channel p call
    have unmarked := System.isConcluded_of_known known |>.trans finished
    have calls : x.program.calls? = some k := by rw [program]; rfl
    have sends : x.sends = true := by
      rw [sends, calls, Option.any_some, unmarked, Bool.not_false, Bool.or_true]
    have marked : x.after.isConcluded k = call.isTerminal := by
      rw [after, System.isConcluded_of_contexts posts.quiet.contexts]
      cases terminal : call.isTerminal with
      | true => exact System.isConcluded_conclude_self known
      | false => exact unmarked
    have before (c' : ChannelId) :
        (if call.isTerminal then x.before.conclude k else x.before).sentOver c' = x.before.sentOver c' := by
      split <;> rfl
    have told : x.program.toCome y.request false = .response (call.response y.request) ::
        ((next (.ok ())).transcript y.request call.isTerminal).map .response := by
      rw [program]
      rfl
    rw [unmarked, marked, told]
    obtain ⟨put, goes⟩ | ⟨put, w, waits, bound, meaning⟩ :=
      said_of_posts (by rw [program]; rfl) posts before after leads (fun _ => rfl) sends accepted
    · rw [put, goes]
      exact ⟨rfl, fun w waits => by cases waits⟩
    · rw [put, waits]
      refine ⟨?_, fun w' waits' => by cases waits'; exact bound⟩
      rw [Program.toCome, HandlerPoint.toCome, meaning]
      rfl

/-- **What was to come before a step of a handler is what it puts and what is to come after it.** -/
theorem tells_handler (program : x.program = .handler k point) (taken : x.IsTaken p)
    (known : x.before.contexts[k]? = some y) (channel : y.channel = some c)
    (bound : ∀ w, x.program.handover? = some w → w.channel = c) (accepted : x.isRefused = false) :
    x.program.toCome y.request (x.before.isConcluded k) =
        x.put c ++ x.next.toCome y.request (x.after.isConcluded k) ∧
      ∀ w, x.next.handover? = some w → w.channel = c := by
  obtain ⟨-, turn, hturn, hstep⟩ := taken
  rw [program, System.step, System.liftTurn, Prod.mk.injEq] at hstep
  have after := hstep.1.symm
  have leads : x.next = ((x.before.stepHandler p k point).2.map (.handler k)).program := by
    rw [next, hturn, hstep.2]
    rfl
  have outcome := x.before.stepHandler_outcome p k point
  generalize x.before.stepHandler p k point = z at outcome after leads
  cases outcome with
  | returns | sleeps | waits =>
    have after : x.after = x.before := after
    rw [put_of_mute (after ▸ .refl _), program, leads, after]
    exact ⟨rfl, fun w waits => by cases waits⟩
  | calls => exact tells_call program after leads known channel accepted
  | @resumes w next =>
    have waits : x.program.handover? = some w := by rw [program]; rfl
    rw [Transit.turn_fst] at after
    have posts := System.Posts.resume x.before p w
    rw [bound w waits] at posts
    have same : x.after.isConcluded k = x.before.isConcluded k := by
      rw [after, System.isConcluded_of_contexts posts.quiet.contexts]
    rw [same]
    obtain ⟨put, goes⟩ | ⟨put, v, stays, bound', meaning⟩ :=
      said_of_posts (by rw [program]; rfl) posts (fun _ => rfl) after leads (fun _ => rfl) (sends_of_handover waits)
        accepted
    · rw [put, goes, program]
      exact ⟨rfl, fun v stays => by cases stays⟩
    · rw [put, stays, program]
      refine ⟨?_, fun v' stays' => by cases stays'; exact bound'⟩
      rw [Program.toCome, Program.toCome, HandlerPoint.toCome, HandlerPoint.toCome, meaning]
      rfl
  | wakes spent =>
    have mute : x.before.Mute x.after := after ▸ .spendAt? spent
    rw [put_of_mute mute, program, leads, System.isConcluded_of_contexts mute.contexts]
    exact ⟨rfl, fun w waits => by cases waits⟩

/-- A handler goes on as such or returns. -/
lemma next_of_handler (program : x.program = .handler k point) (taken : x.IsTaken p) :
    x.next.handles? = some k ∨ ∃ result, x.next = .finished (some result) := by
  obtain ⟨-, turn, hturn, hstep⟩ := taken
  rw [program, System.step, System.liftTurn, Prod.mk.injEq] at hstep
  rw [next, hturn, ← hstep.2]
  cases (x.before.stepHandler p k point).2 with
  | go point | wait point => exact .inl rfl
  | done result => exact .inr ⟨result, rfl⟩

/-- Who has ended stays where he is. -/
lemma stays_of_finished {result : Option (Except Error Unit)} (program : x.program = .finished result)
    (taken : x.IsTaken p) : x.next = .finished result ∧ x.after = x.before := by
  obtain ⟨-, turn, hturn, hstep⟩ := taken
  rw [program, System.step, Prod.mk.injEq] at hstep
  rw [next, hturn, ← hstep.2]
  exact ⟨rfl, hstep.1.symm⟩

/-- The same of a handler that may have returned. -/
lemma tells (kind : x.program.handles? = some k ∨ ∃ result, x.program = .finished (some result)) (taken : x.IsTaken p)
    (known : x.before.contexts[k]? = some y) (channel : y.channel = some c)
    (bound : ∀ w, x.program.handover? = some w → w.channel = c) (accepted : x.isRefused = false) :
    (x.next.handles? = some k ∨ ∃ result, x.next = .finished (some result)) ∧
      x.program.toCome y.request (x.before.isConcluded k) =
        x.put c ++ x.next.toCome y.request (x.after.isConcluded k) ∧
      ∀ w, x.next.handover? = some w → w.channel = c := by
  obtain handles | ⟨result, program⟩ := kind
  · cases program : x.program with
    | handler j point =>
      rw [program] at handles
      cases handles
      rw [← program]
      exact ⟨next_of_handler program taken, tells_handler program taken known channel bound accepted⟩
    | _ =>
      rw [program] at handles
      cases handles
  · obtain ⟨leads, after⟩ := stays_of_finished program taken
    rw [put_of_mute (after ▸ .refl _), leads, after, program]
    exact ⟨.inr ⟨result, rfl⟩, rfl, fun w waits => by cases waits⟩

end Step

/-! ### The process that waits for it -/

/-- Past the handler nothing more is to be sent, or the last response waits for the queue of the channel. -/
def RunPoint.IsPast (c : ChannelId) (point : RunPoint) : Prop :=
  point = .over ∨ ∃ w, point = .sending w ∧ w.channel = c

namespace Step

variable {x : Step} {p h : ProcessId} {k : ContextId} {c : ChannelId} {y : TaskContext} {i : SessionId}
  {w : RunPoint → Program} {t : Task} {d : Option Deadline} {v : Handover}

lemma next_of_step {turn : Turn Program} (hturn : x.turn = some turn) : x.next = turn.program := by
  rw [next, hturn]
  rfl

/-- A process that executes a task goes where the execution of the task goes. -/
lemma runOutcome {point : RunPoint} (hw : Executes i w) (program : x.program = w point) (goes : point ≠ .over)
    (taken : x.IsTaken p) :
    ∃ z, x.before.RunOutcome p i point z ∧ x.after = z.1 ∧ x.next = (z.2.map w).program := by
  obtain ⟨-, turn, hturn, hstep⟩ := taken
  rw [program, System.step_eq_stepRun hw goes, System.liftTurn, Prod.mk.injEq] at hstep
  obtain ⟨after, rfl⟩ := hstep
  exact ⟨_, x.before.stepRun_outcome p i point, after.symm, next_of_step hturn⟩

lemma isJoining_lastWords (hw : Executes i w) (z : System × Transit) (h : ProcessId) :
    ((System.lastWords z).2.map w).program.isJoining h = false := by
  obtain ⟨s, t⟩ := z
  obtain rfl | rfl := hw <;> cases t <;> rfl

/-- What the process sends is put into the queue, or the process waits with it. -/
lemma tells_last {s : System} {m : Option Sent} {z : System × Transit} (hw : Executes i w)
    (attends : x.program.isApart = false) (posts : s.Posts c m z.1 z.2)
    (before : ∀ c', s.sentOver c' = x.before.sentOver c') (after : x.after = z.1)
    (leads : x.next = ((System.lastWords z).2.map w).program) (sends : x.sends = true)
    (accepted : x.isRefused = false) :
    ∃ point : RunPoint, x.next = w point ∧ point.IsPast c ∧ m.toList = x.put c ++ point.toCome := by
  have idle : (w .over).handover? = none := by obtain rfl | rfl := hw <;> rfl
  obtain ⟨put, goes⟩ | ⟨put, v, stays, bound, rfl⟩ :=
    said_of_posts attends posts before after leads (fun _ => idle) sends accepted
  · exact ⟨.over, goes, .inl rfl, by rw [put]; exact (List.append_nil _).symm⟩
  · exact ⟨.sending v, stays, .inr ⟨v, rfl, bound⟩, by rw [put]; rfl⟩

/-- The process concludes the context of a handler that has returned, unless it is concluded. -/
lemma tells_concluding {s : System} {result : Except Error Unit} (hw : Executes i w)
    (attends : x.program.isApart = false) (calm : x.before.Calm s) (same : s.contexts = x.before.contexts)
    (after : x.after = (s.tryFinish p k (System.concluding result)).1)
    (leads : x.next = ((System.lastWords (s.tryFinish p k (System.concluding result))).2.map w).program)
    (known : x.before.contexts[k]? = some y) (channel : y.channel = some c) (accepted : x.isRefused = false) :
    ∃ point : RunPoint, x.next = w point ∧ point.IsPast c ∧ x.after.isConcluded k = true ∧
      (Program.finished (some result)).toCome y.request (x.before.isConcluded k) = x.put c ++ point.toCome := by
  have known' : s.contexts[k]? = some y := same ▸ known
  rw [System.isConcluded_of_known known]
  cases finished : y.finished with
  | true =>
    have nothing := System.tryFinish_of_finished known' finished p (System.concluding result)
    rw [nothing] at after leads
    refine ⟨.over, leads, .inl rfl, ?_, ?_⟩
    · rw [after, System.isConcluded_of_known known', finished]
    · have silent : x.put c = [] := Docket.put_eq (by rw [after, calm.sent, List.append_nil])
      rw [silent]
      rfl
  | false =>
    have posts := System.tryFinish_posts known' finished channel p (System.concluding result)
    have entered : x.concluded? = some k :=
      Docket.concluded?_conclude calm.toAdds known' finished rfl (by rw [after, posts.quiet.contexts])
    have sends : x.sends = true := by
      rw [sends, entered, Option.isSome_some, Bool.or_true, Bool.true_or]
    obtain ⟨point, goes, past, told⟩ := tells_last hw attends posts calm.sent after leads sends accepted
    refine ⟨point, goes, past, ?_, told⟩
    rw [after, System.isConcluded_of_contexts posts.quiet.contexts]
    exact System.isConcluded_conclude_self known'

/-- **What a handler left to say is what is put when the process goes on from it, and what is to come after that.** -/
theorem tells_joining (hw : Executes i w) (program : x.program = w (.joining t h d)) (taken : x.IsTaken p)
    (known : x.before.contexts[t.context]? = some y) (channel : y.channel = some c)
    (returned : x.next.isJoining h = false → ∃ result, x.before.result? h = some (some result))
    (accepted : x.isRefused = false) :
    x.next = x.program ∧ x.after = x.before ∨
      ∃ (result : Except Error Unit) (point : RunPoint), x.before.result? h = some (some result) ∧ x.next = w point ∧
        point.IsPast c ∧ x.after.isConcluded t.context = true ∧
        (Program.finished (some result)).toCome y.request (x.before.isConcluded t.context) = x.put c ++ point.toCome := by
  have attends : x.program.isApart = false := by rw [program]; obtain rfl | rfl := hw <;> rfl
  obtain ⟨z, outcome, after, leads⟩ := runOutcome hw program (by simp) taken
  cases outcome with
  | stopped ended =>
    obtain ⟨result, hresult⟩ := returned (by rw [leads]; obtain rfl | rfl := hw <;> rfl)
    cases ended.symm.trans (System.result?_eq_some.mp hresult)
  | @returned _ _ _ result s ended spent =>
    have mute := System.Mute.spend? spent
    have calm : x.before.Calm (s.onSession i fun x => { x with inFlight := none }) :=
      (System.Calm.of_mute mute).trans (.onSession s i _)
    obtain ⟨point, goes, past, marked, told⟩ := tells_concluding hw attends calm mute.contexts
      (after.trans (Transit.turn_fst ..)) leads known channel accepted
    exact .inr ⟨result, point, System.result?_eq_some.mpr ended, goes, past, marked, told⟩
  | expires runs =>
    obtain ⟨result, hresult⟩ := returned (leads ▸ isJoining_lastWords hw _ h)
    cases runs.symm.trans hresult
  | waits => exact .inl ⟨leads.trans program.symm, after⟩

/-- A process that waits with what is to be sent goes on with it. -/
lemma tells_sending (hw : Executes i w) (program : x.program = w (.sending v)) (taken : x.IsTaken p)
    (bound : v.channel = c) (accepted : x.isRefused = false) :
    ∃ point : RunPoint, x.next = w point ∧ point.IsPast c ∧ x.after.isConcluded k = x.before.isConcluded k ∧
      v.parcel.meaning.toList = x.put c ++ point.toCome := by
  have attends : x.program.isApart = false := by rw [program]; obtain rfl | rfl := hw <;> rfl
  have waits : x.program.handover? = some v := program ▸ hw.handover v
  obtain ⟨z, outcome, after, leads⟩ := runOutcome hw program (by simp) taken
  cases outcome
  rw [System.lastWords_fst] at after
  have posts := System.Posts.resume x.before p v
  rw [bound] at posts
  obtain ⟨point, goes, past, told⟩ :=
    tells_last hw attends posts (fun _ => rfl) after leads (sends_of_handover waits) accepted
  exact ⟨point, goes, past, by rw [after, System.isConcluded_of_contexts posts.quiet.contexts], told⟩

/-! ### The beginning -/

/-- When a task is begun, its handler starts. -/
lemma launches (begins : x.begun? = some t) (joins : x.next.isJoining h = true) (taken : x.IsTaken p) :
    ∃ i w d, Executes i w ∧ x.next = w (.joining t h d) ∧ h = x.before.processes.length ∧
      x.after.program? h =
        some (.handler t.context (.ready (x.before.service.ops.handlerOf t.request))) := by
  obtain ⟨starts, u, h', d, joining⟩ := eq_some_of_begun? begins
  obtain ⟨i, w, hw, program⟩ := Executes.exists_of_runPoint starts
  obtain ⟨z, outcome, after, leads⟩ := runOutcome hw program (by simp) taken
  have last (z : System × Transit) (hz : x.next = ((System.lastWords z).2.map w).program) : False := by
    rw [hz, isJoining_lastWords hw] at joins
    cases joins
  have overs (hz : x.next = w .over) : False := by
    rw [hz] at joins
    obtain rfl | rfl := hw <;> cases joins
  cases outcome with
  | strays | dies => exact (overs leads).elim
  | refuses => exact (last _ leads).elim
  | begins =>
    obtain rfl : h = x.before.processes.length := by
      rw [leads] at joins
      obtain rfl | rfl := hw <;> exact (beq_iff_eq.mp joins).symm
    refine ⟨i, w, _, hw, leads, rfl, ?_⟩
    rw [after, System.program?]
    change (System.processes (System.spawn _ _).1)[_]?.map _ = _
    rw [System.getElem?_spawn]
    rfl

end Step

end GraphServer
