import GraphServer.Proofs.Server.Docket
import GraphServer.Proofs.Session.Lineup
import GraphServer.Proofs.Session.Sequence

/-!
What is put into the queue, and for which task.

* `Step.context?`, `Step.frames`: for which task a process acts, and what is put into the queue for it;
* `Step.IsSmooth`, `Affairs.Answers.prompt`: where nothing waits for the queue, a last response is there at once;
* `Course.attributed`: **a response that is put there is for the request of the task for which the process acts**.
-/

namespace GraphServer

open Affairs

variable {i : SessionId} {c : ChannelId} {o a a' b : Affairs} {p : ProcessId} {k : ContextId} {k? : Option ContextId}
  {t : Transit} {s : System} {x z : Step} {steps : List Step} {turn : Turn Program}

/-! ### What is done for a task -/

namespace Step

/-- The context for whose task a process acts in a step. -/
def context? (x : Step) : Option ContextId :=
  match x.program with
  | .handler k _ => some k
  | .timeout i _ _ .start => (x.before.sessions[i]?.bind (·.inFlight)).map (·.context)
  | .timeout _ _ _ (.answering (t :: _)) => some t.context
  | P => (P.runPoint?.bind RunPoint.task?).map (·.context)

/-- What is put into the queue of a channel for a task. -/
def frames (c : ChannelId) (k : ContextId) (steps : List Step) : List Sent :=
  (steps.filter (·.context? = some k)).flatMap (·.put c)

/-- Nothing waits for a queue, and the last response that is sent off in the step is in the queue at once. -/
def IsSmooth (c : ChannelId) (x : Step) : Prop :=
  x.program.handover?.isNone = true ∧ x.next.handover?.isNone = true ∧ x.IsPrompt c

instance (c : ChannelId) (x : Step) : Decidable (x.IsSmooth c) :=
  inferInstanceAs (Decidable (_ ∧ _ ∧ _))

/-- Whatever response is put into the queue is for the request of the task for which the process acts. -/
def IsAttributed (c : ChannelId) (x : Step) : Prop :=
  ∀ r, .response r ∈ x.put c →
    ∃ k m, x.context? = some k ∧ x.before.contexts[k]? = some m ∧ r.request = some m.request

lemma frames_append (c : ChannelId) (k : ContextId) (steps later : List Step) :
    frames c k (steps ++ later) = frames c k steps ++ frames c k later := by
  rw [frames, List.filter_append, List.flatMap_append]
  rfl

lemma frames_singleton (acts : x.context? = some k) : frames c k [x] = x.put c := by
  rw [frames, List.filter_singleton, decide_eq_true acts, cond_true, List.flatMap_singleton]

/-- Nothing is put into a queue for a task by steps that put nothing there or are not taken for it. -/
lemma frames_eq_nil (silent : ∀ x ∈ steps, x.context? = some k → x.put c = []) :
    frames c k steps = [] := by
  refine List.flatMap_eq_nil_iff.mpr fun x hx => ?_
  obtain ⟨hx, acts⟩ := List.mem_filter.mp hx
  exact silent x hx (of_decide_eq_true acts)

end Step

namespace Affairs

/-! ### Last responses that are in the queue at once -/

/-- A last response that is sent off without waiting is in the queue at once. -/
lemma Mails.prompt {r : Response} {u : Transit} {m : TaskContext} (mails : (b.conclude k).Mails c (some (.response r)) a' u)
    (known : b.contexts[k]? = some m) (open_ : m.finished = false) (before : z.before.Shows i c a)
    (contexts : b.contexts = a.contexts) (sent : b.sent = a.sent) (after : z.after.Shows i c a')
    (prompt : z.IsPrompt c) (moves : ∀ w, u ≠ .waiting w) :
    u = .done (.ok ()) ∧ a' = (b.conclude k).put (some (.response r)) ∧ z.put c = [.response r] := by
  cases mails with
  | put =>
    refine ⟨rfl, rfl, Docket.put_eq ?_⟩
    rw [after.sentOver, before.sentOver, ← sent]
    rfl
  | held w => exact absurd rfl (moves w)
  | refused e =>
    -- one more context is answered, and nothing is in the queue for it
    have counts := prompt.2
    rw [before.sentOff, after.sentOff, before.sentOver, after.sentOver, countP_conclude known open_, contexts,
      show (b.conclude k).sent = a.sent from sent] at counts
    omega

/-- The same where the last response is sent off unless one was before. -/
lemma Answers.prompt {r : Uuid → Response} {u : Transit} {m : TaskContext} (answers : b.Answers c k r a' u)
    (known : b.contexts[k]? = some m) (before : z.before.Shows i c a) (contexts : b.contexts = a.contexts)
    (sent : b.sent = a.sent) (after : z.after.Shows i c a') (prompt : z.IsPrompt c) (moves : ∀ w, u ≠ .waiting w) :
    (∃ result, u = .done result) ∧ z.put c = if m.finished then [] else [.response (r m.request)] := by
  cases answers with
  | already known' finished =>
    cases known.symm.trans known'
    refine ⟨⟨_, rfl⟩, Docket.put_eq ?_⟩
    rw [after.sentOver, before.sentOver, ← sent, if_pos finished, List.append_nil]
  | first known' open_ mails =>
    cases known.symm.trans known'
    obtain ⟨rfl, -, put⟩ := mails.prompt known open_ before contexts sent after prompt moves
    rw [open_]
    exact ⟨⟨_, rfl⟩, put⟩

end Affairs

/-! ### For whom a response is -/

/-- What comes to be in a queue are, as far as it goes for responses, those to the request of a context. -/
def Sent.Adds (k? : Option ContextId) (contexts : List TaskContext) (before after : List Sent) : Prop :=
  ∃ put, after = before ++ put ∧
    ∀ r, .response r ∈ put → ∃ k m, k? = some k ∧ contexts[k]? = some m ∧ r.request = some m.request

lemma Sent.Adds.nothing {contexts : List TaskContext} {before after : List Sent} (same : after = before) :
    Adds k? contexts before after :=
  ⟨[], by rw [same, List.append_nil], fun r hr => absurd hr List.not_mem_nil⟩

/-- What is put into a queue by a step is attributed if it is for the context for which the process acts. -/
lemma Step.IsAttributed.of_adds (adds : Sent.Adds z.context? z.before.contexts (z.before.sentOver c) (z.after.sentOver c)) :
    z.IsAttributed c := by
  obtain ⟨put, sent, carries⟩ := adds
  intro r hr
  rw [Docket.put_eq sent] at hr
  exact carries r hr

namespace Affairs

lemma Mails.adds {m : Option Sent} (mails : a.Mails c m a' t)
    (carries : ∀ r, m = some (.response r) →
      ∃ k x, k? = some k ∧ a.contexts[k]? = some x ∧ r.request = some x.request) :
    Sent.Adds k? a.contexts a.sent a'.sent := by
  cases mails with
  | put => exact ⟨m.toList, rfl, fun r hr => carries r (Option.mem_toList.mp hr)⟩
  | held y => exact .nothing rfl
  | refused e => exact .nothing rfl

lemma Answers.adds {r : Uuid → Response} (answers : a.Answers c k r a' t) (request : ∀ u, (r u).request = some u) :
    Sent.Adds (some k) a.contexts a.sent a'.sent := by
  cases answers with
  | already known finished => exact .nothing rfl
  | @first m _ _ known open_ mails =>
    cases mails with
    | put =>
      refine ⟨[.response (r m.request)], rfl, fun r' hr => ⟨k, m, rfl, known, ?_⟩⟩
      cases List.mem_singleton.mp hr
      exact request m.request
    | held y => exact .nothing rfl
    | refused e => exact .nothing rfl

lemma Interrupts.adds {elapsed : Nat} {ofSession : Bool} (interrupts : a.Interrupts c elapsed ofSession a' t) :
    Sent.Adds (a.session.inFlight.map (·.context)) a.contexts a.sent a'.sent := by
  cases interrupts with
  | nobody idle => exact .nothing rfl
  | somebody busy answers =>
    have adds := answers.adds fun _ => rfl
    rw [stop_contexts, stop_sent] at adds
    rw [busy]
    exact adds

/-- Executing a task, responses are put into the queue for that task. -/
lemma RunStep.adds {point : RunPoint} {turn : Turn RunPoint} (staffed : a.Staffed i c)
    (step : a.RunStep c point a' turn) (stands : a.point? = some point) (free : ∀ y, point ≠ .sending y) :
    Sent.Adds (point.task?.map (·.context)) a.contexts a.sent a'.sent := by
  cases step with
  | refuses t handler late answers =>
    have adds := answers.adds fun _ => rfl
    rw [stop_contexts, stop_sent] at adds
    exact adds
  | returned t deadline ended answers => exact answers.adds (System.request_concluding _)
  | expires t h deadline budget interrupts =>
    have adds := interrupts.adds
    cases busy : a.session.inFlight with
    | none =>
      cases interrupts with
      | nobody idle => exact .nothing rfl
      | somebody busy' answers => cases busy.symm.trans busy'
    | some f =>
      -- whom the execution waits for is the handler of the task in flight
      obtain ⟨u, d, joining, context⟩ := staffed.joining f busy
      cases stands.symm.trans joining
      rw [busy, Option.map_some, ← context] at adds
      exact adds
  | mails y => exact absurd rfl (free y)
  | _ => exact .nothing rfl

/-- Bringing the session or the task in it to its end, responses are put into the queue for the tasks that are due. -/
lemma TimeoutStep.adds {elapsed : Nat} {ofSession : Bool} {point : TimeoutPoint} {turn : Turn TimeoutPoint}
    (before : z.before.Shows i c a) (program : z.program = .timeout i elapsed ofSession point)
    (step : a.TimeoutStep c elapsed ofSession point a' turn) (free : ∀ y next, point ≠ .sending y next) :
    Sent.Adds z.context? a.contexts a.sent a'.sent := by
  have starts (h : point = .start) : z.context? = a.session.inFlight.map (·.context) := by
    rw [Step.context?, program, h]
    change (z.before.sessions[i]?.bind _).map _ = _
    rw [before.session]
    rfl
  cases step with
  | expires kind inTime interrupts =>
    rw [starts rfl]
    exact interrupts.adds
  | interrupts kind interrupts =>
    rw [starts rfl]
    exact interrupts.adds
  | answers u rest answers =>
    rw [Step.context?, program]
    exact answers.adds fun _ => rfl
  | closes closes =>
    cases closes with
    | already closed => exact .nothing rfl
    | first notClosed mails => exact mails.adds fun r hr => by cases hr
  | mails y next => exact absurd rfl (free y next)
  | disarms => exact .nothing (disarm_sent a)
  | _ => exact .nothing rfl

end Affairs

namespace System

/-- What a handler puts into a queue by a call is for the request of its context. -/
lemma sentOver_call (s : System) (p : ProcessId) (k : ContextId) (call : Call) (c : ChannelId) :
    Sent.Adds (some k) s.contexts (s.sentOver c) ((s.call p k call).1.sentOver c) := by
  have sends {s' : System} {m : TaskContext} (same : s'.sentOver c = s.sentOver c) (known : s.contexts[k]? = some m) :
      Sent.Adds (some k) s.contexts (s.sentOver c) ((s'.sendFor p m (call.response m.request)).1.sentOver c) := by
    rw [sendFor, ← same]
    split
    next c' _ =>
      have posts := Posts.sendResponse s' p c' (call.response m.request)
      generalize s'.sendResponse p c' (call.response m.request) = x at posts ⊢
      obtain ⟨s'', transit⟩ := x
      cases posts with
      | put quiet sent =>
        refine ⟨_, sent c, fun r hr => ⟨k, m, rfl, known, ?_⟩⟩
        split at hr
        · cases Option.mem_toList.mp hr
          exact call.request_response m.request
        · cases hr
      | held mute | refused mute => exact .nothing (mute.sent c)
    · exact .nothing rfl
  have outcome := s.call_outcome p k call
  generalize s.call p k call = z at outcome ⊢
  cases outcome with
  | strays | late => exact .nothing rfl
  | streams known => exact sends rfl known
  | concludes known => exact sends rfl known

/-- What a handler puts into a queue is for the request of its context, unless it waited with it. -/
lemma sentOver_stepHandler (s : System) (p : ProcessId) (k : ContextId) (c : ChannelId) {point : HandlerPoint}
    (free : ∀ y next, point ≠ .calling y next) :
    Sent.Adds (some k) s.contexts (s.sentOver c) ((s.stepHandler p k point).1.sentOver c) := by
  have outcome := s.stepHandler_outcome p k point
  generalize s.stepHandler p k point = z at outcome ⊢
  cases outcome with
  | returns | sleeps | waits => exact .nothing rfl
  | @calls call next =>
    rw [Transit.turn_fst]
    exact s.sentOver_call p k call c
  | resumes => exact absurd rfl (free _ _)
  | wakes spent => exact .nothing ((Mute.spendAt? spent).sent c)

end System

/-- A step puts responses into the queue for the request of the task for which the process acts. -/
lemma Affairs.Performs.attributed (staffed : a.Staffed i c) (performs : a.Performs i c p z a' turn)
    (taken : z.turn = none ∨ ∃ q, z.IsTaken q) (free : z.program.handover? = none) : z.IsAttributed c := by
  obtain ⟨y, hy, hprogram, -⟩ := performs.process
  obtain ⟨q, -, turn', hturn, hstep⟩ := taken.resolve_left fun stopped => by cases stopped.symm.trans performs.leads
  have of_adds (adds : Sent.Adds z.context? a.contexts a.sent a'.sent) : z.IsAttributed c := by
    rw [← performs.before.contexts, ← performs.before.sentOver, ← performs.after.sentOver] at adds
    exact .of_adds adds
  have effect := performs.effect
  have runs {w : RunPoint → Program} (hw : Executes i w) {point : RunPoint} {turn : Turn RunPoint}
      (program : z.program = w point) (step : a.RunStep c point a' turn) : z.IsAttributed c := by
    have stands : a.point? = some point := by
      rw [staffed.point?_eq hy (by rw [hprogram, program]; exact hw.executes point), hprogram, program, hw.runPoint]
    have acts : z.context? = point.task?.map (·.context) := by
      rw [Step.context?, program]
      rcases hw with rfl | rfl <;> rfl
    refine of_adds (acts ▸ step.adds staffed stands ?_)
    rintro v rfl
    have held : (w (.sending v)).handover? = some v := hw.handover v
    rw [program, held] at free
    cases free
  generalize hP : z.program = P at effect
  cases effect with
  | @handler k point _ turn step =>
    have free : ∀ y next, point ≠ .calling y next := by
      rintro y next rfl
      rw [hP] at free
      cases free
    have adds := z.before.sentOver_stepHandler q k c free
    have after : z.after = (z.before.stepHandler q k point).1 := by
      rw [hP] at hstep
      exact (congrArg Prod.fst hstep).symm
    have acts : z.context? = some k := by rw [Step.context?, hP]
    rw [← after, ← acts] at adds
    exact .of_adds adds
  | single step =>
    cases step with
    | ends => exact of_adds (.nothing (disarm_sent _))
    | runs step => exact runs (.inl rfl) hP step
  | worker step =>
    cases step with
    | ends => exact of_adds (.nothing (disarm_sent _))
    | runs step => exact runs (.inr rfl) hP step
    | _ => exact of_adds (.nothing rfl)
  | timeout elapsed ofSession step =>
    refine of_adds (step.adds performs.before hP ?_)
    rintro v next rfl
    rw [hP] at free
    cases free
  | delivers d point mails => exact of_adds (mails.adds fun r hr => by cases hr)
  | _ => exact of_adds (.nothing rfl)

namespace Course

variable {whole : Bool} {turning : Option ProcessId} {accepted : List Task}

/-- Throughout, a response that is put into the queue is for the request of the task for which the process acts, unless the
process waited with it. -/
theorem attributed (course : Course i c o whole turning a accepted steps)
    (taken : ∀ z ∈ steps, z.turn = none ∨ ∃ p, z.IsTaken p) :
    ∀ z ∈ steps, z.program.handover? = none → z.IsAttributed c := by
  induction course with
  | opens opened => exact fun z hz => absurd hz List.not_mem_nil
  | outside _ _ ih => exact ih taken
  | misses _ _ _ ih => exact ih taken
  | begins _ _ ih => exact ih taken
  | cut _ ih => exact ih taken
  | goes course performs ih =>
    rw [Books.forall_concat] at taken ⊢
    exact ⟨ih taken.1, performs.attributed course.staffed taken.2⟩
  | waits _ course performs _ ih =>
    rw [Books.forall_concat] at taken ⊢
    exact ⟨ih taken.1, performs.attributed course.staffed taken.2⟩
  | ends course performs ih =>
    rw [Books.forall_concat] at taken ⊢
    exact ⟨ih taken.1, performs.attributed course.staffed taken.2⟩
  | @stops _ _ _ _ x p _ _ before after _ ih =>
    rw [Books.forall_concat] at taken ⊢
    have silent : x.put c = [] := Docket.put_eq (by rw [after.sentOver, before.sentOver, List.append_nil]; rfl)
    exact ⟨ih taken.1, fun _ r hr => absurd (silent ▸ hr) List.not_mem_nil⟩

end Course

end GraphServer
