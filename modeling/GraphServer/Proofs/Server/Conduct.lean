import GraphServer.Proofs.Server.Calm
import GraphServer.Proofs.System.Outcomes

/-!
What a step of any process does about the requests.

* `System.Answers`: the last response for a context is sent off, unless one was before;
* `System.Fate`: what becomes of something that a process sends: it is put into the queue of its channel, the process
  waits with it, or it is given up;
* `System.Conduct`: a process concludes at most one context in a step, sends at most one thing, and waits with nothing
  but what it sends;
* `System.behaves_step`: **every step of every process is such**.
-/

namespace GraphServer

/-- Whether a program sends what has nothing to do with the contexts of the server. -/
def Program.isApart : Program → Bool
  | connection .. | delivery .. | writer _ => true
  | _ => false

/-- Whether something waits for a queue at the point. -/
def TimeoutPoint.isSending : TimeoutPoint → Bool
  | sending .. => true
  | _ => false

/-- Whether a program waits with one thing at a time. -/
def Program.isPlain : Program → Bool
  | timeout _ _ _ (.sending _ next) => !next.isSending
  | _ => true

lemma Program.isPlain_of_idle {P : Program} (idle : P.handover? = none) : P.isPlain = true := by
  rw [isPlain.eq_def]
  split
  · cases idle
  · rfl

namespace System

variable {s s' s₁ : System} {c : ChannelId} {k : ContextId} {p : ProcessId} {P N : Program} {y : TaskContext}
  {r : Uuid → Response} {t : Transit} {m : Option Sent}

/-- Processes that are added do not wait with more than one thing. -/
lemma isPlain_of_adds (adds : s.Adds s') (plain : ∀ Q, s.program? p = some Q → Q.isPlain = true)
    (hP : s'.program? p = some P) : P.isPlain = true := by
  cases known : s.program? p with
  | none => exact Program.isPlain_of_idle (adds.idle p P known hP)
  | some Q =>
    obtain rfl := Option.some.inj ((adds.programs p Q known).symm.trans hP)
    exact plain Q known

/-! ### Relations -/

/-- The last response for a context is sent off, unless one was; it goes nowhere if the context has no channel. -/
inductive Answers (s : System) (k : ContextId) (r : Uuid → Response) (s' : System) : Transit → Prop
  | already (same : s' = s) : Answers s k r s' (.done (.ok ()))
  | nowhere {y : TaskContext} (known : s.contexts[k]? = some y) (unfinished : y.finished = false)
    (channel : y.channel = none) (same : s' = s.conclude k) : Answers s k r s' (.done (.ok ()))
  | sends {y : TaskContext} {c : ChannelId} {t : Transit} (known : s.contexts[k]? = some y)
    (unfinished : y.finished = false) (channel : y.channel = some c)
    (posts : (s.conclude k).Posts c (some (.response (r y.request))) s' t) : Answers s k r s' t

/-- What becomes of something that a process sends over a channel, where `N` is its program afterwards. -/
inductive Fate (s : System) (c : ChannelId) (m : Option Sent) (s' : System) (N : Program) : Prop
  | put (quiet : s.Quiet s') (sent : ∀ c', s'.sentOver c' = s.sentOver c' ++ if c' = c then m.toList else [])
    (over_ : N.handover? = none)
  | held (mute : s.Mute s') {h : Handover} (waits : N.handover? = some h) (channel : h.channel = c)
    (meaning : h.parcel.meaning = m)
  | lost (mute : s.Mute s') (over_ : N.handover? = none)

/-- What a process does in a step from the program `P` to the program `N`. -/
inductive Conduct (s : System) (P : Program) (s' : System) (N : Program) : Prop
  /-- It sends nothing. -/
  | calm (calm : s.Calm s') (idle : P.handover? = none) (over_ : N.handover? = none)
  /-- It sends, if anything, what has nothing to do with the contexts. -/
  | apart (apart : P.isApart = true) (gains : s.Gains s') (stays : N.isApart = true ∨ N.isFinished = true)
  /-- It sends off the last response for a context. -/
  | concludes {s₁ : System} {k : ContextId} {y : TaskContext} {c : ChannelId} {r : Response}
    (attends : P.isApart = false) (idle : P.handover? = none) (calm : s.Calm s₁)
    (known : s₁.contexts[k]? = some y) (unfinished : y.finished = false)
    (channel : y.channel = some c) (request : r.request = some y.request) (concluding : r.concludes = true)
    (fate : (s₁.conclude k).Fate c (some (.response r)) s' N)
  /-- It concludes a context that has no channel. -/
  | retires {s₁ : System} {k : ContextId} {y : TaskContext} (attends : P.isApart = false) (idle : P.handover? = none)
    (calm : s.Calm s₁) (known : s₁.contexts[k]? = some y) (unfinished : y.finished = false) (channel : y.channel = none)
    (same : s' = s₁.conclude k) (over_ : N.handover? = none)
  /-- A handler sends a part of the result. -/
  | streams {k : ContextId} {point : HandlerPoint} {y : TaskContext} {c : ChannelId} {r : Response}
    (handles : P = .handler k point) (idle : P.handover? = none) (known : s.contexts[k]? = some y)
    (unfinished : y.finished = false) (channel : y.channel = some c) (request : r.request = some y.request)
    (partial_ : r.concludes = false) (fate : s.Fate c (some (.response r)) s' N)
  /-- It closes a channel. -/
  | closes {s₁ : System} {c : ChannelId} (idle : P.handover? = none) (calm : s.Mute s₁)
    (fate : s₁.Fate c (some .close) s' N)
  /-- It goes on with what it waits with. -/
  | carries {h : Handover} (attends : P.isApart = false) (waits : P.handover? = some h)
    (fate : s.Fate h.channel h.parcel.meaning s' N)

/-! ### Sending -/

lemma Fate.quiet (fate : s.Fate c m s' N) : s.Quiet s' := by
  cases fate with
  | put quiet => exact quiet
  | held mute | lost mute => exact mute.toQuiet

/-- The fate of something, as far as the turn of its sender tells it. -/
lemma Posts.fate {x : System × Transit} (posts : s.Posts c m x.1 x.2) {α : Type} {next : Except Error Unit → α}
    {waiting : Handover → α} {f : α → Program} (goesOn : ∀ r, (f (next r)).handover? = none)
    (waits : ∀ h, (f (waiting h)).handover? = some h) :
    s.Fate c m (Transit.turn x next waiting).1 ((Transit.turn x next waiting).2.map f).program := by
  obtain ⟨s', t⟩ := x
  cases posts with
  | put quiet sent => exact .put quiet sent (goesOn _)
  | held mute h channel meaning => exact .held mute (waits h) channel meaning
  | refused mute e => exact .lost mute (goesOn _)

/-- The context is marked and its response is sent off. -/
lemma sendFor_answers {y : TaskContext} {r : Uuid → Response} (known : s.contexts[k]? = some y)
    (unfinished : y.finished = false) (p : ProcessId) :
    s.Answers k r ((s.conclude k).sendFor p y (r y.request)).1 ((s.conclude k).sendFor p y (r y.request)).2 := by
  rw [sendFor]
  split
  next c channel => exact .sends known unfinished channel (.sendResponse _ p c _)
  next channel => exact .nowhere known unfinished channel rfl

lemma tryFinish_answers (s : System) (p : ProcessId) (k : ContextId) (r : Uuid → Response) :
    s.Answers k r (s.tryFinish p k r).1 (s.tryFinish p k r).2 := by
  have outcome := s.tryFinish_outcome p k r
  generalize s.tryFinish p k r = x at outcome ⊢
  cases outcome with
  | strays | late => exact .already rfl
  | concludes known unfinished => exact sendFor_answers known unfinished p

/-- The task in flight is answered for, if there is one. -/
lemma interrupt_answers (s : System) (p : ProcessId) (i : SessionId) (elapsed : Nat) (ofSession : Bool) :
    ∃ s₁ k, s.Calm s₁ ∧ s₁.Answers k (timeoutResponse elapsed ofSession) (s.interrupt p i elapsed ofSession).1
      (s.interrupt p i elapsed ofSession).2 := by
  have outcome := s.interrupt_outcome p i elapsed ofSession
  generalize s.interrupt p i elapsed ofSession = x at outcome ⊢
  cases outcome with
  | rests => exact ⟨s, 0, .refl s, .already rfl⟩
  | @stops x f =>
    exact ⟨_, f.context, (Calm.onSession s i _).trans (.abort _ f.handler), tryFinish_answers _ p f.context _⟩

lemma closeChannel_posts (s : System) (p : ProcessId) (c : ChannelId) :
    s.closeChannel p c = (s, .done (.ok ())) ∨
      ∃ s₁, s.Mute s₁ ∧ s₁.Posts c (some .close) (s.closeChannel p c).1 (s.closeChannel p c).2 := by
  rw [closeChannel]
  split
  · exact .inl rfl
  · split
    · exact .inl rfl
    · have mute : s.Mute (s.onChannel c fun x => { x with closed := true }) := .onChannel s c fun _ => rfl
      exact .inr ⟨_, mute, .send _ p c .close⟩

section Turn

variable {α : Type} {x : System × Transit} {next : Except Error Unit → α} {waiting : Handover → α} {f : α → Program}

/-- An answer is the conduct of a process that waited with nothing. -/
lemma Answers.conduct (calm : s.Calm s₁) (answers : s₁.Answers k r x.1 x.2) (request : ∀ u, (r u).request = some u)
    (concluding : ∀ u, (r u).concludes = true) (attends : P.isApart = false)
    (idle : P.handover? = none) (goesOn : ∀ r, (f (next r)).handover? = none)
    (waits : ∀ h, (f (waiting h)).handover? = some h) :
    s.Conduct P (Transit.turn x next waiting).1 ((Transit.turn x next waiting).2.map f).program := by
  obtain ⟨s', t⟩ := x
  cases answers with
  | already same =>
    cases same
    exact .calm calm idle (goesOn _)
  | nowhere known unfinished channel same => exact .retires attends idle calm known unfinished channel same (goesOn _)
  | sends known unfinished channel posts =>
    exact .concludes attends idle calm known unfinished channel (request _) (concluding _) (posts.fate goesOn waits)

end Turn

/-! ### Handlers -/

lemma conduct_call (s : System) (p : ProcessId) (k : ContextId) (call : Call) (next : Except Error Unit → Handler) :
    let turn := Transit.turn (s.call p k call) (fun r => HandlerPoint.ready (next r)) (.calling · next)
    s.Conduct (.handler k (.ready (.call call next))) turn.1 (turn.2.map (.handler k)).program := by
  intro turn
  subst turn
  have outcome := s.call_outcome p k call
  generalize s.call p k call = x at outcome ⊢
  cases outcome with
  | strays | late => exact .calm (.refl s) rfl rfl
  | concludes known unfinished terminal =>
    have answers := sendFor_answers (r := call.response) known unfinished p
    exact answers.conduct (.refl s) (Call.request_response call) (Call.concludes_response terminal) rfl rfl
      (fun _ => rfl) fun _ => rfl
  | @streams y known unfinished streaming =>
    rw [sendFor]
    split
    next c channel =>
      refine .streams rfl rfl known unfinished channel (Call.request_response call y.request) ?_
        ((Posts.sendResponse s p c _).fate (fun _ => rfl) fun _ => rfl)
      cases call with
      | stream data => rfl
      | _ => cases streaming
    next => exact .calm (.refl s) rfl rfl

lemma conduct_handler (s : System) (p : ProcessId) (k : ContextId) (point : HandlerPoint) :
    s.Conduct (.handler k point) (s.stepHandler p k point).1
      ((s.stepHandler p k point).2.map (.handler k)).program := by
  have outcome := s.stepHandler_outcome p k point
  generalize s.stepHandler p k point = x at outcome ⊢
  cases outcome with
  | returns | sleeps | waits => exact .calm (.refl s) rfl rfl
  | calls => exact conduct_call s p k _ _
  | resumes => exact .carries rfl rfl ((Posts.resume s p _).fate (fun _ => rfl) fun _ => rfl)
  | wakes spent => exact .calm (.of_mute (.spendAt? spent)) rfl rfl

/-! ### The execution of tasks -/

/-- How the execution of a task stands in the program of a process. -/
structure Frames (wrap : RunPoint → Program) : Prop where
  idle : ∀ t handler deadline, (wrap (.start t)).handover? = none ∧ (wrap (.joining t handler deadline)).handover? = none
  over_ : (wrap .over).handover? = none
  waits : ∀ h, (wrap (.sending h)).handover? = some h
  attends : ∀ point, (wrap point).isApart = false

lemma conduct_run {wrap : RunPoint → Program} (w : Frames wrap) (s : System) (p : ProcessId) (i : SessionId)
    (point : RunPoint) :
    s.Conduct (wrap point) (s.stepRun p i point).1 ((s.stepRun p i point).2.map wrap).program := by
  have last {s₁ : System} {k : ContextId} {r : Uuid → Response} {x : System × Transit} (calm : s.Calm s₁)
      (answers : s₁.Answers k r x.1 x.2) (request : ∀ u, (r u).request = some u)
      (concluding : ∀ u, (r u).concludes = true) (idle : (wrap point).handover? = none) :
      s.Conduct (wrap point) (lastWords x).1 ((lastWords x).2.map wrap).program :=
    answers.conduct calm request concluding (w.attends _) idle (fun _ => w.over_) w.waits
  have launched (t : Task) : s.Calm (s.launch t) := .spawn s rfl
  have starts (t : Task) := (w.idle t 0 none).1
  have joins (t : Task) (handler : ProcessId) (deadline : Option Deadline) := (w.idle t handler deadline).2
  have outcome := s.stepRun_outcome p i point
  generalize s.stepRun p i point = z at outcome ⊢
  cases outcome with
  | strays => exact .calm (.refl s) (starts _) w.over_
  | begins => exact .calm ((launched _).trans (.onSession _ i _)) (starts _) (joins ..)
  | dies => exact .calm ((launched _).trans (.abort _ _)) (starts _) w.over_
  | refuses =>
    exact last ((launched _).trans (.abort _ _)) (tryFinish_answers _ p _ _) (fun _ => rfl)
      (concludes_timeoutResponse _ _) (starts _)
  | stopped ended spent => exact .calm ((Calm.of_mute (.spend? spent)).trans (.onSession _ i _)) (joins ..) w.over_
  | returned ended spent =>
    exact last ((Calm.of_mute (.spend? spent)).trans (.onSession _ i _)) (tryFinish_answers _ p _ _)
      (request_concluding _) (concludes_concluding _) (joins ..)
  | @expires _ _ d s' _ spent =>
    obtain ⟨s₁, k, calm, answers⟩ := interrupt_answers s' p i d.budget false
    exact last ((Calm.of_mute (.spendAt? spent)).trans calm) answers (fun _ => rfl) (concludes_timeoutResponse _ _)
      (joins ..)
  | waits => exact .calm (.refl s) (joins ..) (joins ..)
  | resumes => exact .carries (w.attends _) (w.waits _) ((Posts.resume s p _).fate (fun _ => w.over_) w.waits)
  | leaves => exact .calm (.refl s) w.over_ rfl

lemma conduct_single (s : System) (p : ProcessId) (i : SessionId) (point : RunPoint) :
    s.Conduct (.single i point) (s.stepSingle p i point).1 ((s.stepSingle p i point).2.map (.single i)).program := by
  have frames : Frames (.single i) := ⟨fun _ _ _ => ⟨rfl, rfl⟩, rfl, fun _ => rfl, fun _ => rfl⟩
  have outcome := s.stepSingle_outcome p i point
  generalize s.stepSingle p i point = z at outcome ⊢
  cases outcome with
  | ends => exact .calm (.finishSession s i) rfl rfl
  | runs => exact conduct_run frames s p i point

lemma conduct_worker (s : System) (p : ProcessId) (i : SessionId) (point : WorkerPoint) :
    s.Conduct (.worker i point) (s.stepWorker p i point).1 ((s.stepWorker p i point).2.map (.worker i)).program := by
  have outcome := s.stepWorker_outcome p i point
  generalize s.stepWorker p i point = z at outcome ⊢
  cases outcome with
  | strays | rests | waits | leaves => exact .calm (.refl s) rfl rfl
  | takes | hears => exact .calm (.onSession s i _) rfl rfl
  | ends => exact .calm (.finishSession s i) rfl rfl
  | runs =>
    have frames : Frames fun point => .worker i (.running point) :=
      ⟨fun _ _ _ => ⟨rfl, rfl⟩, rfl, fun _ => rfl, fun _ => rfl⟩
    rw [Turn.map_map]
    exact conduct_run frames s p i _

/-! ### Time -/

/-- A turn is a process's conduct, and the process waits with one thing at a time after it. -/
structure Behaves (s : System) (P : Program) (x : System × Turn Program) : Prop where
  conduct : s.Conduct P x.1 x.2.program
  plain : x.2.program.isPlain = true

section Timeout

variable {i : SessionId} {elapsed : Nat} {ofSession : Bool} {next : TimeoutPoint} {x : System × Transit}

lemma handover?_timeout (h : next.isSending = false) : (Program.timeout i elapsed ofSession next).handover? = none := by
  cases next with
  | sending h next => cases h
  | _ => rfl

/-- What is sent before a point at which nothing waits. -/
lemma isPlain_answerThen (x : System × Transit) (h : next.isSending = false) :
    ((answerThen x next).2.map (.timeout i elapsed ofSession)).program.isPlain = true := by
  obtain ⟨s, t⟩ := x
  cases t with
  | done r => exact Program.isPlain_of_idle (handover?_timeout h)
  | waiting y =>
    change (!next.isSending) = true
    rw [h]
    rfl

/-- A last response that is sent off before such a point. -/
lemma Answers.behaves (calm : s.Calm s₁) (answers : s₁.Answers k r x.1 x.2) (request : ∀ u, (r u).request = some u)
    (concluding : ∀ u, (r u).concludes = true) (attends : P.isApart = false) (idle : P.handover? = none)
    (plain : next.isSending = false) :
    s.Behaves P (liftTurn (answerThen x next) (.timeout i elapsed ofSession)) :=
  ⟨answers.conduct calm request concluding attends idle (fun _ => handover?_timeout plain) fun _ => rfl,
    isPlain_answerThen x plain⟩

lemma behaves_timeout (s : System) (p : ProcessId) (i : SessionId) (elapsed : Nat) (ofSession : Bool)
    (point : TimeoutPoint) (plain : (Program.timeout i elapsed ofSession point).isPlain = true) :
    s.Behaves (.timeout i elapsed ofSession point)
      (liftTurn (s.stepTimeout p i elapsed ofSession point) (.timeout i elapsed ofSession)) := by
  have outcome := s.stepTimeout_outcome p i elapsed ofSession point
  generalize s.stepTimeout p i elapsed ofSession point = z at outcome ⊢
  cases outcome with
  | late | leaves => exact ⟨.calm (.refl s) rfl rfl, rfl⟩
  | strays visits =>
    obtain ⟨rfl, -⟩ | rfl | rfl := visits <;> exact ⟨.calm (.refl s) rfl rfl, rfl⟩
  | expires =>
    obtain ⟨s₁, k, calm, answers⟩ := interrupt_answers (s.onSession i fun _ => _) p i elapsed true
    exact answers.behaves ((Calm.onSession s i _).trans calm) (fun _ => rfl) (concludes_timeoutResponse _ _) rfl rfl rfl
  | interrupts =>
    obtain ⟨s₁, k, calm, answers⟩ := interrupt_answers s p i elapsed false
    exact answers.behaves calm (fun _ => rfl) (concludes_timeoutResponse _ _) rfl rfl rfl
  | drains => exact ⟨.calm (.onSession s i _) rfl rfl, rfl⟩
  | answers =>
    exact (tryFinish_answers s p _ _).behaves (.refl s) (fun _ => rfl) (concludes_timeoutResponse _ _) rfl rfl rfl
  | notifies => exact ⟨.calm (.notify s i) rfl rfl, rfl⟩
  | @closes _ x =>
    refine ⟨?_, isPlain_answerThen _ rfl⟩
    obtain already | ⟨s₁, mute, posts⟩ := closeChannel_posts s p x.channel
    · rw [already]
      exact .calm (.refl s) rfl rfl
    · have fate : s₁.Fate x.channel (some .close) (answerThen (s.closeChannel p x.channel) .disarming).1
          ((answerThen (s.closeChannel p x.channel) .disarming).2.map (.timeout i elapsed ofSession)).program :=
        posts.fate (fun _ => rfl) fun _ => rfl
      exact .closes rfl mute fate
  | disarms => exact ⟨.calm (.disarm s i) rfl rfl, rfl⟩
  | resumes =>
    have waitless := (Bool.not_eq_true' _).mp plain
    exact ⟨.carries rfl rfl ((Posts.resume s p _).fate (fun _ => handover?_timeout waitless) fun _ => rfl),
      isPlain_answerThen _ waitless⟩

end Timeout

lemma behaves_lifetime (s : System) (i : SessionId) (milliseconds : Nat) (due : Option Nat) :
    s.Behaves (.lifetime i milliseconds due) (s.stepLifetime i milliseconds due) := by
  have outcome := s.stepLifetime_outcome i milliseconds due
  generalize s.stepLifetime i milliseconds due = z at outcome ⊢
  cases outcome with
  | sets | waits => exact ⟨.calm (.refl s) rfl rfl, rfl⟩
  | rings spent => exact ⟨.calm (.of_mute (.spendAt? spent)) rfl rfl, rfl⟩

/-! ### What has nothing to do with contexts -/

lemma read_gains (s : System) (n : ConnectionId) (x : Connection) : s.Gains (s.read n x).1 := by
  have onConnection (s : System) (f : Connection → Connection) : s.Mute (s.onConnection n f) :=
    .of_channels (.onConnection s n f) rfl
  have outcome := s.read_outcome n x
  generalize s.read n x = y at outcome ⊢
  cases outcome with
  | waits => exact .refl s
  | ends spent => exact .of_mute (.spend? spent)
  | cuts spent | jams spent => exact .of_mute ((Mute.spend? spent).trans (onConnection _ _))

lemma handle_gains (s : System) (p : ProcessId) (n : ConnectionId) (x : Connection) (frame : Bytes)
    (rest : List Bytes) : s.Gains (s.handle p n x frame rest).1 := by
  have shaken : s.Gains (s.shake n x frame) := .of_mute (.of_channels (.onConnection s n _) rfl)
  have outcome := s.handle_outcome p n x frame rest
  generalize s.handle p n x frame rest = y at outcome ⊢
  cases outcome with
  | unopened | undecoded =>
    rw [Transit.turn_fst]
    exact shaken.trans (.of_posts (.sendResponse _ p x.channel _))
  | accepts => exact shaken.trans (.of_calm (.route _ x.channel _))
  | replies =>
    rw [Transit.turn_fst]
    exact (shaken.trans (.of_calm (.route _ x.channel _))).trans (.of_posts (.sendResponse _ p x.channel _))

lemma closeChannel_gains (s : System) (p : ProcessId) (c : ChannelId) : s.Gains (s.closeChannel p c).1 := by
  obtain already | ⟨s₁, mute, posts⟩ := closeChannel_posts s p c
  · rw [already]
  · exact (Gains.of_mute mute).trans (.of_posts posts)

lemma stepConnection_gains (s : System) (p : ProcessId) (n : ConnectionId) (point : ConnectionPoint) :
    s.Gains (s.stepConnection p n point).1 := by
  have outcome := s.stepConnection_outcome p n point
  generalize s.stepConnection p n point = y at outcome ⊢
  cases outcome with
  | strays | handled => exact .refl s
  | starts => exact .of_calm (.spawnWriter s _)
  | reads => exact read_gains s n _
  | handles => exact handle_gains s p n _ _ _
  | replies | excuses =>
    rw [Transit.turn_fst]
    exact .of_posts (.resume s p _)
  | @ends x =>
    rw [hangUp_fst]
    exact (Gains.of_calm (.closeBoundTo s x.channel)).trans (closeChannel_gains _ p x.channel)
  | closes =>
    rw [hangUp_fst]
    exact .of_posts (.resume s p _)

lemma stepDelivery_gains (s : System) (p : ProcessId) (c : ChannelId) (d : Delivery) (point : DeliveryPoint) :
    s.Gains (s.stepDelivery p c d point).1 := by
  cases point with
  | start =>
    have delivered : s.Gains (s.deliver p c d).1 := by
      cases d with
      | response r | reply r => exact .of_posts (.sendResponse s p c r)
      | close => exact closeChannel_gains s p c
      | parcel parcel => exact .of_posts (.send s p c parcel)
    rw [stepDelivery]
    rcases hx : s.deliver p c d with ⟨s', r | hand⟩ <;> rw [hx] at delivered <;> exact delivered
  | sending h =>
    have resumed : s.Gains (s.resume p h).1 := .of_posts (.resume s p h)
    rw [stepDelivery]
    rcases hx : s.resume p h with ⟨s', r | hand⟩ <;> rw [hx] at resumed <;> exact resumed

lemma stepWriter_mute (s : System) (c : ChannelId) : s.Mute (s.stepWriter c).1 := by
  rw [stepWriter]
  split
  · exact .refl s
  next x _ =>
    split
    next outbound woken _ =>
      split
      next s' hspent =>
        have mute : s.Mute s' := by
          split at hspent
          · exact .spend? hspent
          · cases hspent
            rfl
        exact (mute.trans (.onOutbound s' c _)).trans (.wakeAll _ woken)
      · exact .refl s
    · split <;> exact .refl s

/-! ### Every step -/

lemma behaves_apart {α : Type} {f : α → Program} {x : System × Turn α} (apart : P.isApart = true) (gains : s.Gains x.1)
    (stays : ∀ y, (f y).isApart = true) (plain : ∀ y, (f y).isPlain = true) : s.Behaves P (liftTurn x f) := by
  obtain ⟨s', turn⟩ := x
  cases turn with
  | go y => exact ⟨.apart apart gains (.inl (stays y)), plain y⟩
  | wait y => exact ⟨.apart apart gains (.inl (stays y)), plain y⟩
  | done r => exact ⟨.apart apart gains (.inr rfl), rfl⟩

/-- What holds of a program at each of its points and of one that has ended holds after a turn. -/
lemma test_lift {α : Type} {f : α → Program} (turn : Turn α) {test : Program → Bool} {b : Bool}
    (goes : ∀ y, test (f y) = b) (ended : ∀ r, test (.finished r) = b) : test (turn.map f).program = b := by
  cases turn with
  | go y => exact goes y
  | wait y => exact goes y
  | done r => exact ended _

/-- A process that has to do with contexts goes on as one. -/
lemma isApart_step (s : System) (p : ProcessId) (attends : P.isApart = false) :
    (s.step p P).2.program.isApart = false := by
  cases P with
  | lifetime i milliseconds due =>
    have outcome := s.stepLifetime_outcome i milliseconds due
    rw [step]
    generalize s.stepLifetime i milliseconds due = z at outcome ⊢
    cases outcome <;> rfl
  | finished result => rfl
  | handler | single | worker | timeout => exact test_lift _ (fun _ => rfl) fun _ => rfl
  | writer | connection | delivery => cases attends

/-- **Every step of every process** concludes at most one context, and sends at most one thing or goes on with one. -/
theorem behaves_step (s : System) (p : ProcessId) {P : Program} (plain : P.isPlain = true) :
    s.Behaves P (s.step p P) := by
  cases P with
  | handler k point => exact ⟨conduct_handler s p k point, test_lift _ (fun _ => rfl) fun _ => rfl⟩
  | single i point => exact ⟨conduct_single s p i point, test_lift _ (fun _ => rfl) fun _ => rfl⟩
  | worker i point => exact ⟨conduct_worker s p i point, test_lift _ (fun _ => rfl) fun _ => rfl⟩
  | lifetime i milliseconds due => exact behaves_lifetime s i milliseconds due
  | timeout i elapsed ofSession point => exact behaves_timeout s p i elapsed ofSession point plain
  | writer c => exact behaves_apart rfl (.of_mute (stepWriter_mute s c)) (fun _ => rfl) fun _ => rfl
  | connection n point => exact behaves_apart rfl (stepConnection_gains s p n point) (fun _ => rfl) fun _ => rfl
  | delivery c d point => exact behaves_apart rfl (stepDelivery_gains s p c d point) (fun _ => rfl) fun _ => rfl
  | finished result => exact ⟨.calm (.refl s) rfl rfl, rfl⟩

end System

end GraphServer
