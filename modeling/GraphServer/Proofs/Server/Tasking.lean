import GraphServer.Proofs.Server.Tending
import GraphServer.Proofs.Server.Working

/-!
The processes of a server keep its sessions tended.

* `System.Executes`: what the process does that executes the tasks of a session;
* `System.executes_run`, `System.executes_single`, `System.executes_worker`: every step of it is such;
* `System.Tidy.step`: **every step of a process other than a connection's keeps all sessions tended**, unless
  the time of a session is up or somebody has to wait for a queue.
-/

namespace GraphServer.System

variable {held : SessionId → ContextId → Prop} {s s' s'' : System} {i : SessionId} {x x' : Session} {r : ProcessId}
  {k : ContextId} {P N : Program} {y : Process} {turning : Option ProcessId} {skip : Option SessionId}

/-! ### Where a process goes on -/

/-- What becomes of a server after a step of a process, and whether it still has its turn. -/
inductive Goes (s : System) (r : ProcessId) : Turn Program → Option ProcessId → System → Prop
  | go (N : Program) : Goes s r (.go N) (some r) (s.setProgram r N)
  | wait (N : Program) : Goes s r (.wait N) none (s.suspend r N)
  | done (result : Except Error Unit) : Goes s r (.done result) none (s.finish r (some result))

/-- A turn that does not end a process leads to a program that has not ended. -/
def Turn.Lasts (turn : Turn Program) : Prop :=
  ∀ result, turn.program = .finished result → ∃ r, turn = .done r

lemma Turn.Lasts.unfinished {turn : Turn Program} (h : Turn.Lasts turn) (goes : ∀ result, turn ≠ .done result) :
    turn.program.isFinished = false := by
  cases hN : turn.program with
  | finished result =>
    obtain ⟨r, rfl⟩ := h result hN
    cases goes r rfl
  | _ => rfl

lemma Goes.moves {turn : Turn Program} (g : s.Goes r turn turning s') (lasts : Turn.Lasts turn) :
    s.Moves r turn.program s' := by
  cases g with
  | go N => exact .setProgram s r (lasts.unfinished nofun)
  | wait N => exact .suspend s r (lasts.unfinished nofun)
  | done result => exact .finish s r (some result)

/-! ### The process of a session -/

lemma Known.of_attends (idle : P.handover? = none) (attends : P.attends i = true) (staffed : s.executor? i = some r) :
    s.Known held r { program := P } := by
  refine ⟨?_, idle, nofun⟩
  cases P with
  | single j point | worker j point =>
    obtain rfl : j = i := beq_iff_eq.mp attends
    exact staffed
  | _ => cases attends

/-- A step of the process that executes the tasks of a session leaves them in its hands, and it waits only where it may
rest or for its next turn. -/
structure Executes (held : SessionId → ContextId → Prop) (i : SessionId) (s s' : System) (turn : Turn Program) : Prop where
  deals : Deals held i s s'
  contexts : s'.contexts = s.contexts ∨ ∃ k, held i k ∧ s'.contexts = (s.conclude k).contexts
  session : ∃ x, s'.sessions[i]? = some x ∧ s'.InHands held i x turn.program ∧
    ∀ N, turn = .wait N → s'.allowance = 0 ∨ s'.MayRest x N
  lasts : Turn.Lasts turn

/-- A step of the process that executes the tasks of a session leaves all sessions tended. -/
lemma Tidy.executes (h : Tidy held (some r) none s) (hr : s.processes[r]? = some y) (attends : y.program.attends i = true)
    {turn : Turn Program} (e : Executes held i s s' turn) (idle : turn.program.handover? = none)
    (g : s'.Goes r turn turning s'') : Tidy held turning none s'' := by
  obtain ⟨d, -, ⟨x', hx', hands, rests⟩, lasts⟩ := e
  have m := g.moves lasts
  obtain ⟨unhandled, unwatched, unfinished, alone⟩ := Program.only_attends attends
  have known := h.known r y hr
  have lives : y.cancelled = false := Bool.eq_false_iff.mpr fun hc => by
    obtain handles | watch | ended := known.spared hc
    · exact handles unhandled
    · cases unwatched.symm.trans watch
    · cases unfinished.symm.trans ended
  have staffed : s'.executor? i = some r := (d.executor? i).trans (known.attends attends)
  obtain ⟨y', hy', program, cancelled⟩ := d.processes r y hr
  have lives' : y'.cancelled = false := by
    obtain same | watch | ⟨k, handles, -⟩ := cancelled
    · exact same.trans lives
    · cases unwatched.symm.trans watch
    · cases unhandled.symm.trans handles
  -- nobody waits for a process that executes tasks
  have apart {a : ProcessId} {k : ContextId} (ha : s'.Answering a k) : a ≠ r := by
    rintro rfl
    obtain ⟨z, hz, -, handles | ⟨result, ended⟩⟩ := ha <;> obtain rfl := Option.some.inj (hy'.symm.trans hz)
    · cases unhandled.symm.trans (program ▸ handles)
    · rw [← program, ended] at unfinished
      cases unfinished
  have after : s'.Known held r { program := turn.program } := by
    obtain attends' | ⟨result, ended⟩ := hands.attends
    · exact .of_attends idle attends' staffed
    · exact ⟨by rw [ended]; trivial, idle, nofun⟩
  have moved : Tidy held turning (some i) s'' := by
    refine ((h.excepting i).deals d fun j _ hj _ hji => hj (congrArg some hji.symm)).move m hy'
      (program ▸ unfinished) (fun j hj => congrArg some (alone j (program ▸ hj)).symm) ?_ ?_ ?_ turning
    · intro j handles
      cases unhandled.symm.trans (program ▸ handles)
    · intro watch
      cases unwatched.symm.trans (program ▸ watch)
    · rw [lives']
      exact after
  refine moved.including fun z hz => ?_
  obtain rfl := Option.some.inj (hx'.symm.trans (m.sessions ▸ hz))
  have future : x'.future = some r := by rwa [executor?, hx', Option.bind_some] at staffed
  refine ⟨r, { y' with program := turn.program }, future, m.getElem?_self hy', lives',
    hands.frame (fun _ => Iff.rfl) ?_ ?_ ?_, ?_⟩
  · rintro a k - - ha
    obtain ⟨z, hz, rest⟩ := ha
    exact ⟨z, (m.getElem?_of_ne (apart ⟨z, hz, rest⟩)).trans hz, rest⟩
  · intro k hk
    rwa [isConcluded, m.contexts]
  · intro p Q hQ kind
    have other : p ≠ r := by
      rintro rfl
      obtain rfl := Option.some.inj ((program?_of_getElem? hy').symm.trans hQ)
      rw [program, unwatched, unfinished] at kind
      exact kind.elim Bool.false_ne_true Bool.false_ne_true
    exact ⟨Q, (m.program?_of_ne other).trans hQ, kind⟩
  · cases g with
    | go N => exact .inl rfl
    | done result => exact .inr (.inr (.finished rfl))
    | wait N =>
      refine .inr ((rests N rfl).imp isAwake_suspend fun rest => rest.mono rfl fun a joins unended => ?_)
      obtain ⟨k, -, -, ha⟩ := hands.joins a joins
      rwa [result?, m.program?_of_ne (apart ha)]

/-- What the process finds that executes the tasks of a session. -/
lemma Tidy.hands (h : Tidy held turning none s) (hr : s.processes[r]? = some y) (attends : y.program.attends i = true) :
    ∃ x, s.sessions[i]? = some x ∧ s.InHands held i x y.program ∧ x.timedOut = none ∧ x.killed = false := by
  have staffed := (h.known r y hr).attends attends
  rw [executor?, Option.bind_eq_some_iff] at staffed
  obtain ⟨x, hx, future⟩ := staffed
  obtain ⟨q, z, hq, hz, -, hands, -⟩ := (h.tended i x (Option.some_ne_none i).symm hx).staffed
  obtain rfl := Option.some.inj (future.symm.trans hq)
  obtain rfl := Option.some.inj (hr.symm.trans hz)
  exact ⟨x, hx, hands, h.lives i x hx⟩

/-! ### One task -/

/-- How the execution of a task stands in the program of a process. -/
structure Hosts (i : SessionId) (wrap : RunPoint → Program) : Prop extends Orderly.Wraps i wrap where
  waits : ∀ h, (wrap (.sending h)).handover? = some h
  tasks : ∀ point, (wrap point).task? = (Program.single i point).task?
  awake : ∀ point, (wrap point).isResting = false
  kinds : ∀ point point', (wrap point).isSingle = (wrap point').isSingle

variable {wrap : RunPoint → Program} {point point' : RunPoint}

lemma Session.waiting_congr (same : x'.backlog = x.backlog) : x'.waiting = x.waiting := by
  rw [Session.waiting, Session.waiting, same]

/-- The tasks stay in the hands of the process while it executes one of them. -/
lemma InHands.runs (h : s.InHands held i x (wrap point)) (w : Hosts i wrap) (d : Deals held i s s')
    (backlog : x'.backlog = x.backlog) (accepting : x'.accepting = x.accepting) (watch : x'.cancelFuture = x.cancelFuture)
    (joins : ∀ a, (wrap point').isJoining a = true →
      ∃ k, (wrap point').task? = some k ∧ x'.inFlight = some ⟨k, a⟩ ∧ s'.Answering a k)
    (keeps : ∀ k, (wrap point').task? = some k → (wrap point).task? = some k)
    (leaves : ∀ k, (wrap point).task? = some k → s'.isConcluded k = true ∨ (wrap point').task? = some k) :
    s'.InHands held i x' (wrap point') where
  attends := .inl (w.attends _)
  lone none_ := accepting.trans (h.lone (backlog ▸ none_))
  kind single := backlog.trans (h.kind ((w.kinds _ _).trans single))
  ended ended := by cases (isFinished_of_attends (w.attends point')).symm.trans ended
  heard rests := by cases (w.awake point').symm.trans rests
  joins := joins
  tasks k hk := h.tasks k (hk.imp (Session.waiting_congr backlog ▸ ·) (keeps k))
  cared k hk := by
    rw [Session.waiting_congr backlog]
    obtain concluded | waits | runs := h.cared k hk
    · exact .inl (d.isConcluded concluded)
    · exact .inr (.inl waits)
    · exact (leaves k runs).imp_right .inr
  watched p hp := by
    obtain ⟨Q, hQ, kind⟩ := h.watched p (watch ▸ hp)
    exact ⟨Q, d.program? hQ, kind⟩

/-! #### Answering -/

lemma Deals.tryFinish (s : System) (p : ProcessId) (owned : held i k) (response : Uuid → Response) :
    Deals held i s (s.tryFinish p k response).1 := by
  have outcome := s.tryFinish_outcome p k response
  generalize s.tryFinish p k response = z at outcome ⊢
  cases outcome with
  | strays | late => exact .refl held i s
  | concludes => exact (conclude s i owned).trans (.of_rouses (.sendFor _ p _ _) held i)

/-- Who answers for a context marks it, and no other one. -/
lemma contexts_tryFinish (s : System) (p : ProcessId) (k : ContextId) (response : Uuid → Response) :
    (s.tryFinish p k response).1.contexts = s.contexts ∨
      (s.tryFinish p k response).1.contexts = (s.conclude k).contexts := by
  have outcome := s.tryFinish_outcome p k response
  generalize s.tryFinish p k response = z at outcome ⊢
  cases outcome with
  | strays | late => exact .inl rfl
  | concludes => exact .inr (Quiet.sendFor _ p _ _).contexts

lemma isConcluded_tryFinish (s : System) (p : ProcessId) (known : k < s.contexts.length) (response : Uuid → Response) :
    (s.tryFinish p k response).1.isConcluded k = true := by
  have outcome := s.tryFinish_outcome p k response
  generalize s.tryFinish p k response = z at outcome ⊢
  cases outcome with
  | strays unknown => cases unknown.symm.trans (List.getElem?_eq_getElem known)
  | late hy finished => rw [isConcluded, hy, Option.any_some, finished]
  | concludes hy =>
    rw [isConcluded, (Quiet.sendFor _ p _ _).contexts]
    change (s.contexts.modify k fun x => { x with finished := true })[k]?.any _ = true
    rw [List.getElem?_modify_eq, hy]
    rfl

/-- A last word for which nobody waits ends the execution. -/
lemma lastWords_of_idle {x : System × Transit} (w : Hosts i wrap)
    (idle : ((lastWords x).2.map wrap).program.handover? = none) : (lastWords x).2 = .go .over := by
  obtain ⟨s', t⟩ := x
  cases t with
  | done result => rfl
  | waiting h => cases (w.waits h).symm.trans idle

lemma Turn.lasts_go (N : Program) (unfinished : N.isFinished = false) : Turn.Lasts (.go N) := by
  rintro result h
  rw [show N = _ from h] at unfinished
  cases unfinished

lemma Turn.lasts_wait (N : Program) (unfinished : N.isFinished = false) : Turn.Lasts (.wait N) := by
  rintro result h
  rw [show N = _ from h] at unfinished
  cases unfinished

/-! #### The steps -/

section Run

variable {t : Task} {handler : ProcessId} {deadline : Option Deadline}

/-- A process that goes on with the execution of a task. -/
lemma Executes.goes (w : Hosts i wrap) (d : Deals held i s s')
    (contexts : s'.contexts = s.contexts ∨ ∃ k, held i k ∧ s'.contexts = (s.conclude k).contexts)
    (hx' : s'.sessions[i]? = some x') (hands : s'.InHands held i x' (wrap point)) :
    Executes held i s s' (Turn.map wrap (.go point)) :=
  ⟨d, contexts, ⟨x', hx', hands, fun _ h => by cases h⟩, Turn.lasts_go _ (isFinished_of_attends (w.attends _))⟩

/-- A task begins: it is in flight, and its new handler is waited for. -/
lemma Executes.begins (w : Hosts i wrap) (hands : s.InHands held i x (wrap (.start t)))
    (hx : s.sessions[i]? = some x) :
    Executes held i s ((s.launch t).onSession i fun _ => { x with inFlight := some ⟨t.context, s.processes.length⟩ })
      (Turn.map wrap (.go (.joining t s.processes.length deadline))) := by
  have owned : held i t.context := hands.tasks _ (.inr (w.tasks _))
  have known : s.Known held s.processes.length
      { program := .handler t.context (.ready (s.service.ops.handlerOf t.request)) } :=
    ⟨⟨i, owned⟩, rfl, fun h => absurd h Bool.false_ne_true⟩
  have launched : Deals held i s (s.launch t) := .spawn s i known
  have hlaunched : (s.launch t).sessions[i]? = some x := launch_sessions s t ▸ hx
  generalize hs : (s.launch t).onSession i (fun _ => { x with inFlight := some ⟨t.context, s.processes.length⟩ }) = s'
  have d : Deals held i s s' := hs ▸ launched.trans (.onSession held _ i fun z hz => by
    cases hlaunched.symm.trans hz
    exact ⟨rfl, rfl, rfl⟩)
  have hx' : s'.sessions[i]? = some { x with inFlight := some ⟨t.context, s.processes.length⟩ } := by
    rw [← hs, onSession, List.getElem?_modify_eq, hlaunched]
    rfl
  have started : s'.processes[s.processes.length]? =
      some { program := .handler t.context (.ready (s.service.ops.handlerOf t.request)) } := by
    rw [← hs]
    exact getElem?_spawn s _
  refine .goes w d (.inl (hs ▸ contexts_spawn s _)) hx'
    (hands.runs w d rfl rfl rfl (fun a ha => ?_) (fun k hk => ?_) fun k hk => .inr ?_)
  · obtain rfl : s.processes.length = a := beq_iff_eq.mp ((w.joins _ a).symm.trans ha)
    exact ⟨t.context, w.tasks _, rfl, _, started, rfl, .inl rfl⟩
  · rwa [w.tasks] at hk ⊢
  · rwa [w.tasks] at hk ⊢

lemma Deals.land (held : SessionId → ContextId → Prop) (s : System) (i : SessionId) :
    Deals held i s (s.onSession i fun x => { x with inFlight := none }) :=
  .onSession held s i fun _ _ => ⟨rfl, rfl, rfl⟩

/-- The task in flight is answered for, after which the session goes on. -/
lemma Executes.answers (w : Hosts i wrap) (hands : s.InHands held i x (wrap (.joining t handler deadline)))
    (d : Deals held i s s') (contexts : s'.contexts = s.contexts)
    (hx' : s'.sessions[i]? = some { x with inFlight := none }) (known : t.context < s.contexts.length)
    (response : Uuid → Response) :
    Executes held i s (s'.tryFinish r t.context response).1 (Turn.map wrap (.go .over)) := by
  have task : (wrap (.joining t handler deadline)).task? = some t.context := w.tasks _
  have owned : held i t.context := hands.tasks _ (.inr task)
  have d' := d.trans (.tryFinish s' r owned response)
  have marked : (s'.tryFinish r t.context response).1.isConcluded t.context = true :=
    isConcluded_tryFinish s' r (contexts ▸ known) response
  rw [← (Still.tryFinish s' r t.context response).sessions] at hx'
  refine .goes w d' ?_ hx' (hands.runs w d' rfl rfl rfl (fun a ha => ?_) (fun k hk => ?_) fun k hk => ?_)
  · refine (contexts_tryFinish s' r t.context response).imp (·.trans contexts) fun h => ⟨_, owned, h.trans ?_⟩
    rw [conclude, conclude, onContext, onContext, contexts]
  · cases (w.joins _ a).symm.trans ha
  · cases (w.tasks _).symm.trans hk
  · cases task.symm.trans hk
    exact .inl marked

/-- The task whose handler is waited for is in flight, and its handler was not stopped. -/
lemma InHands.awaits (w : Hosts i wrap) (hands : s.InHands held i x (wrap (.joining t handler deadline))) :
    x.inFlight = some ⟨t.context, handler⟩ ∧ s.Answering handler t.context := by
  obtain ⟨k, hk, flight, answering⟩ := hands.joins handler ((w.joins _ handler).trans (beq_self_eq_true _))
  obtain rfl : t.context = k := Option.some.inj ((w.tasks _).symm.trans hk)
  exact ⟨flight, answering⟩

/-- The handler has returned, and the task is answered for. -/
lemma Executes.returns (w : Hosts i wrap) (hands : s.InHands held i x (wrap (.joining t handler deadline)))
    (hx : s.sessions[i]? = some x) (bound : t.context < s.contexts.length) {s₁ : System} (spent : s.spend? = some s₁)
    (response : Uuid → Response) :
    Executes held i s ((s₁.onSession i fun x => { x with inFlight := none }).tryFinish r t.context response).1
      (Turn.map wrap (.go .over)) := by
  have rouses := Rouses.spend? spent
  have landed : Deals held i s (s₁.onSession i fun x => { x with inFlight := none }) :=
    (Deals.of_rouses rouses held i).trans (.land held s₁ i)
  refine .answers w hands landed rouses.contexts ?_ bound response
  rw [onSession, List.getElem?_modify_eq, rouses.sessions, hx]
  rfl

/-- The time of the task is over: its handler is stopped, and the task is answered for. -/
lemma Executes.expires (w : Hosts i wrap) (hands : s.InHands held i x (wrap (.joining t handler deadline)))
    (hx : s.sessions[i]? = some x) (bound : t.context < s.contexts.length) {due : Nat} {s₁ : System}
    (spent : s.spendAt? due = some s₁) (budget : Nat) :
    Executes held i s (s₁.interrupt r i budget false).1 (Turn.map wrap (.go .over)) := by
  have owned : held i t.context := hands.tasks _ (.inr (w.tasks _))
  obtain ⟨flight, answering⟩ := hands.awaits w
  have rouses := Rouses.spendAt? spent
  have interrupted : s₁.interrupt r i budget false =
      ((s₁.onSession i fun x => { x with inFlight := none }).abort handler).replyTimeout r t.context budget false := by
    rw [interrupt, rouses.sessions, hx]
    dsimp only
    rw [flight]
  have landed : Deals held i s (s₁.onSession i fun x => { x with inFlight := none }) :=
    (Deals.of_rouses rouses held i).trans (.land held s₁ i)
  have stopped := landed.trans <| .abort _ i handler fun P hP => by
    obtain ⟨z, hz, -, handles | ⟨result, ended⟩⟩ := answering <;>
      cases (landed.program? (program?_of_getElem? hz)).symm.trans hP
    · exact .inr (.inr ⟨_, handles, owned⟩)
    · exact .inl (by rw [ended]; rfl)
  rw [interrupted]
  refine .answers w hands stopped ((abort_contexts _ handler).trans rouses.contexts) ?_ bound _
  rw [abort_sessions, onSession, List.getElem?_modify_eq, rouses.sessions, hx]
  rfl

end Run

lemma executes_run (w : Hosts i wrap) (h : Tidy held (some r) none s) (hr : s.processes[r]? = some y)
    (hP : y.program = wrap point) (unfinished : point ≠ .over)
    (idle : ((s.stepRun r i point).2.map wrap).program.handover? = none) :
    Executes held i s (s.stepRun r i point).1 ((s.stepRun r i point).2.map wrap) := by
  obtain ⟨x, hx, hands, inTime, alive⟩ := h.hands hr (hP ▸ w.attends _)
  rw [hP] at hands
  have bound {t : Task} (runs : (wrap point).task? = some t.context) : t.context < s.contexts.length :=
    (h.bounds i _ (hands.tasks _ (.inr runs))).2
  have outcome := s.stepRun_outcome r i point
  generalize s.stepRun r i point = z at outcome idle ⊢
  cases outcome with
  | strays unknown => cases hx.symm.trans unknown
  | begins known =>
    cases hx.symm.trans known
    exact .begins w hands hx
  | dies known killed =>
    cases hx.symm.trans known
    cases alive.symm.trans killed
  | refuses known _ late =>
    cases hx.symm.trans known
    cases inTime.symm.trans late
  | stopped ended =>
    obtain ⟨-, z, hz, -, handles | ⟨result, returned⟩⟩ := hands.awaits w <;>
      have program : z.program = .finished none := Option.some.inj ((program?_of_getElem? hz).symm.trans ended)
    · rw [program] at handles
      cases handles
    · cases returned.symm.trans program
  | returned ended spent =>
    rw [lastWords_of_idle w idle, lastWords_fst]
    exact .returns w hands hx (bound (w.tasks _)) spent _
  | expires runs spent =>
    rw [lastWords_of_idle w idle, lastWords_fst]
    exact .expires w hands hx (bound (w.tasks _)) spent _
  | waits rests =>
    refine ⟨.refl held i s, .inl rfl, ⟨x, hx, hands, fun N hN => ?_⟩, Turn.lasts_wait _ (isFinished_of_attends (w.attends _))⟩
    cases hN
    exact rests.imp_right fun unended => .joining ((w.joins _ _).trans (beq_self_eq_true _)) unended.1
  | resumes => cases (w.waits _).symm.trans (hP ▸ (h.known r y hr).idle)
  | leaves => exact absurd rfl unfinished

/-! ### The tasks of a session -/

/-- A session ends in which nothing waits. -/
lemma Executes.finishes (hands : s.InHands held i x P) (hx : s.sessions[i]? = some x) (idle : P.task? = none)
    (empty : x.waiting = []) : Executes held i s (s.finishSession i) (.done (.ok ())) := by
  have ended : Deals held i s (s.onSession i Session.finish) := .onSession held s i fun _ _ => ⟨rfl, rfl, rfl⟩
  have hx' : (s.onSession i Session.finish).sessions[i]? = some x.finish := by
    rw [onSession, List.getElem?_modify_eq, hx]
    rfl
  have d : Deals held i s (s.finishSession i) := ended.trans <| .disarm fun z hz p hp => by
    cases hx'.symm.trans hz
    exact hands.watched p hp
  refine ⟨d, .inl ?_, ⟨x.finish, (congrArg (·[i]?) (abortAll_sessions _ _)).trans hx', ?_, fun _ h => by cases h⟩,
    fun _ _ => ⟨_, rfl⟩⟩
  · refine Eq.trans ?_ (show (s.onSession i Session.finish).contexts = s.contexts from rfl)
    rw [finishSession, System.disarm]
    cases ((s.onSession i Session.finish).sessions[i]?.bind (·.cancelFuture)) with
    | none => rfl
    | some p => exact abort_contexts _ p
  · constructor
    case attends => exact .inr ⟨_, rfl⟩
    case lone => exact fun _ => rfl
    case kind => exact fun h => by cases h
    case ended => exact fun _ => ⟨empty, rfl⟩
    case heard => exact fun h => by cases h
    case joins => exact fun _ h => by cases h
    case tasks =>
      rintro k (waits | runs)
      · rw [show x.finish.waiting = [] from empty] at waits
        cases waits
      · cases runs
    case cared =>
      intro k hk
      obtain concluded | waits | runs := hands.cared k hk
      · exact .inl (d.isConcluded concluded)
      · rw [empty] at waits
        cases waits
      · cases idle.symm.trans runs
    case watched =>
      intro p hp
      obtain ⟨Q, hQ, kind⟩ := hands.watched p hp
      exact ⟨Q, d.program? hQ, kind⟩

lemma executes_single {point : RunPoint} (h : Tidy held (some r) none s) (hr : s.processes[r]? = some y)
    (hP : y.program = .single i point) (idle : ((s.stepSingle r i point).2.map (.single i)).program.handover? = none) :
    Executes held i s (s.stepSingle r i point).1 ((s.stepSingle r i point).2.map (.single i)) := by
  have w : Hosts i (.single i) :=
    ⟨⟨fun _ => beq_self_eq_true i, fun _ _ => rfl⟩, fun _ => rfl, fun _ => rfl, fun _ => rfl, fun _ _ => rfl⟩
  have outcome := s.stepSingle_outcome r i point
  generalize s.stepSingle r i point = z at outcome idle ⊢
  cases outcome with
  | ends =>
    obtain ⟨x, hx, hands, -⟩ := h.hands hr (hP ▸ w.attends _)
    rw [hP] at hands
    refine .finishes hands hx rfl ?_
    rw [Session.waiting, hands.kind rfl]
  | runs goes => exact executes_run w h hr hP goes idle

/-- The worker of a session goes on without executing a task. -/
lemma InHands.pauses {point point' : WorkerPoint} (h : s.InHands held i x (.worker i point)) (d : Deals held i s s')
    (at_ : (Program.worker i point).task? = none) (next : (Program.worker i point').task? = none)
    (backlog : x'.backlog = none ↔ x.backlog = none) (waiting : x'.waiting = x.waiting)
    (accepting : x'.accepting = x.accepting) (watch : x'.cancelFuture = x.cancelFuture)
    (heard : (Program.worker i point').isResting = true → x'.isNotified = true ∨ x'.waiting = []) :
    s'.InHands held i x' (.worker i point') where
  attends := .inl (beq_self_eq_true i)
  lone none_ := accepting.trans (h.lone (backlog.mp none_))
  kind single := by cases single
  ended ended := by cases ended
  heard := heard
  joins a ha := by
    cases point' with
    | running point' => cases point' <;> first | cases ha | cases next
    | _ => cases ha
  tasks k hk := h.tasks k (hk.imp (waiting ▸ ·) fun runs => by cases next.symm.trans runs)
  cared k hk := by
    rw [waiting]
    obtain concluded | waits | runs := h.cared k hk
    · exact .inl (d.isConcluded concluded)
    · exact .inr (.inl waits)
    · cases at_.symm.trans runs
  watched p hp := by
    obtain ⟨Q, hQ, kind⟩ := h.watched p (watch ▸ hp)
    exact ⟨Q, d.program? hQ, kind⟩

lemma Session.waiting_of_dequeue? (h : x.dequeue? = none) : x.waiting = [] := by
  cases hb : x.backlog with
  | none => simp only [Session.waiting, hb]
  | some b =>
    cases htasks : b.tasks with
    | nil => simp only [Session.waiting, hb, htasks, List.map_nil]
    | cons t rest =>
      simp only [Session.dequeue?, hb, htasks] at h
      cases h

lemma Session.waiting_setNotified (x : Session) (notified : Bool) : (x.setNotified notified).waiting = x.waiting := by
  rw [Session.waiting, Session.waiting, Session.setNotified]
  cases x.backlog <;> rfl

/-- The worker of a session takes the first task that waits. -/
lemma InHands.takes {point : WorkerPoint} {t : Task} (h : s.InHands held i x (.worker i point)) (d : Deals held i s s')
    (at_ : (Program.worker i point).task? = none) (taken : x.dequeue? = some (t, x')) :
    s'.InHands held i x' (.worker i (.running (.start t))) := by
  obtain ⟨b, rest, hb, htasks, rfl⟩ := Session.dequeue?_eq_some taken
  have waiting : x.waiting = t.context :: rest.map (·.context) := by
    rw [Session.waiting, hb]
    dsimp only
    rw [htasks]
    rfl
  constructor
  case attends => exact .inl (beq_self_eq_true i)
  case lone => exact fun h => by cases h
  case kind => exact fun h => by cases h
  case ended => exact fun h => by cases h
  case heard => exact fun h => by cases h
  case joins => exact fun _ h => by cases h
  case tasks =>
    rintro k (waits | runs) <;> refine h.tasks k (.inl ?_) <;> rw [waiting]
    · exact List.mem_cons_of_mem _ waits
    · cases runs
      exact List.mem_cons_self
  case cared =>
    intro k hk
    obtain concluded | waits | runs := h.cared k hk
    · exact .inl (d.isConcluded concluded)
    · rw [waiting] at waits
      obtain rfl | waits := List.mem_cons.mp waits
      · exact .inr (.inr rfl)
      · exact .inr (.inl waits)
    · cases at_.symm.trans runs
  case watched =>
    intro p hp
    obtain ⟨Q, hQ, kind⟩ := h.watched p hp
    exact ⟨Q, d.program? hQ, kind⟩

lemma executes_worker {point : WorkerPoint} (h : Tidy held (some r) none s) (hr : s.processes[r]? = some y)
    (hP : y.program = .worker i point) (idle : ((s.stepWorker r i point).2.map (.worker i)).program.handover? = none) :
    Executes held i s (s.stepWorker r i point).1 ((s.stepWorker r i point).2.map (.worker i)) := by
  obtain ⟨x, hx, hands, -⟩ := h.hands hr (by rw [hP]; exact beq_self_eq_true i)
  rw [hP] at hands
  have goes {s' : System} {x' : Session} {point' : WorkerPoint} (d : Deals held i s s') (contexts : s'.contexts = s.contexts)
      (hx' : s'.sessions[i]? = some x') (hands' : s'.InHands held i x' (.worker i point')) :
      Executes held i s s' (Turn.map (.worker i) (.go point')) :=
    ⟨d, .inl contexts, ⟨x', hx', hands', fun _ h => by cases h⟩, Turn.lasts_go _ rfl⟩
  have outcome := s.stepWorker_outcome r i point
  generalize s.stepWorker r i point = z at outcome idle ⊢
  cases outcome with
  | strays unknown => cases hx.symm.trans unknown
  | @takes _ x' _ known taken =>
    cases hx.symm.trans known
    have d : Deals held i s (s.onSession i fun _ => x') := .onSession held s i fun z hz => by
      cases hx.symm.trans hz
      obtain ⟨b, rest, -, -, rfl⟩ := Session.dequeue?_eq_some taken
      exact ⟨rfl, rfl, rfl⟩
    refine goes d rfl ?_ (hands.takes d rfl taken)
    rw [onSession, List.getElem?_modify_eq, hx]
    rfl
  | rests known empty =>
    cases hx.symm.trans known
    exact goes (.refl held i s) rfl hx (hands.pauses (.refl held i s) rfl rfl .rfl rfl rfl rfl fun _ =>
      .inr (Session.waiting_of_dequeue? empty))
  | ends known empty =>
    cases hx.symm.trans known
    exact .finishes hands hx rfl (Session.waiting_of_dequeue? empty)
  | hears =>
    have d : Deals held i s (s.onSession i (·.setNotified false)) := .onSession held s i fun _ _ => ⟨rfl, rfl, rfl⟩
    have hx' : (s.onSession i (·.setNotified false)).sessions[i]? = some (x.setNotified false) := by
      rw [onSession, List.getElem?_modify_eq, hx]
      rfl
    exact goes d rfl hx'
      (hands.pauses d rfl rfl Option.map_eq_none_iff (Session.waiting_setNotified x false) rfl rfl
        fun h => absurd h Bool.false_ne_true)
  | waits unnotified =>
    rw [hx] at unnotified
    refine ⟨.refl held i s, .inl rfl, ⟨x, hx, hands, fun N hN => ?_⟩, Turn.lasts_wait _ rfl⟩
    cases hN
    exact .inr (.resting rfl unnotified)
  | leaves =>
    exact goes (.refl held i s) rfl hx (hands.pauses (.refl held i s) rfl rfl .rfl rfl rfl rfl
      fun h => absurd h Bool.false_ne_true)
  | runs unfinished =>
    have w : Hosts i fun point => .worker i (.running point) :=
      ⟨⟨fun _ => beq_self_eq_true i, fun point _ => by cases point <;> rfl⟩, fun _ => rfl,
        fun point => by cases point <;> rfl, fun _ => rfl, fun _ _ => rfl⟩
    rw [Turn.map_map] at idle ⊢
    exact executes_run w h hr hP unfinished idle

/-! ### Other processes -/

lemma Turn.lasts_map {α : Type} (turn : Turn α) {f : α → Program} (unfinished : ∀ point, (f point).isFinished = false) :
    Turn.Lasts (turn.map f) := by
  cases turn with
  | go point => exact Turn.lasts_go _ (unfinished point)
  | wait point => exact Turn.lasts_wait _ (unfinished point)
  | done result => exact fun _ _ => ⟨result, rfl⟩

/-- A context of a task that was accepted is marked as answered, which leaves all sessions tended. -/
lemma Tidy.conclude (h : Tidy held turning none s) (owned : held i k) : Tidy held turning none (s.conclude k) :=
  h.deals (.conclude s s.sessions.length owned) fun _ _ _ hx => ((List.getElem?_eq_some_iff.mp hx).1).ne

/-- A step of a process that executes no tasks, and wakes processes at most. -/
lemma Tidy.passes (h : Tidy held (some r) none s) (hr : s.processes[r]? = some y)
    (unfinished : y.program.isFinished = false) (aloof : ∀ j, y.program.attends j = false) (rouses : s.Rouses s')
    {turn : Turn Program} (lasts : Turn.Lasts turn)
    (handles : ∀ k, y.program.handles? = some k →
      turn.program.handles? = some k ∨ ∃ result, turn.program = .finished (some result))
    (watch : y.program.isWatch = true → turn.program.isWatch = true ∨ turn.program.isFinished = true)
    (known : s.Known held r { y with program := turn.program }) (g : s'.Goes r turn turning s'') :
    Tidy held turning none s'' := by
  have hr' : s'.processes[r]? = some y := by rw [rouses.processes, hr]
  refine (h.rouses rouses).move (g.moves lasts) hr' unfinished (fun j hj => ?_)
    (fun k hk => (handles k hk).imp_right .inl) watch (known.of_sessions rouses.sessions) turning
  cases (aloof j).symm.trans hj

/-- What a call of a handler does about its context, and what it does beside that. -/
lemma rouses_stepHandler (s : System) (p : ProcessId) (k : ContextId) (point : HandlerPoint) :
    ∃ s', (s' = s ∨ s' = s.conclude k) ∧ s'.Rouses (s.stepHandler p k point).1 := by
  have outcome := s.stepHandler_outcome p k point
  generalize s.stepHandler p k point = z at outcome ⊢
  cases outcome with
  | returns | sleeps | waits => exact ⟨s, .inl rfl, .refl s⟩
  | @calls call =>
    rw [Transit.turn_fst]
    have outcome := s.call_outcome p k call
    generalize s.call p k call = z at outcome ⊢
    cases outcome with
    | strays | late => exact ⟨s, .inl rfl, .refl s⟩
    | streams => exact ⟨s, .inl rfl, .sendFor s p _ _⟩
    | concludes => exact ⟨_, .inr rfl, .sendFor _ p _ _⟩
  | resumes =>
    rw [Transit.turn_fst]
    exact ⟨s, .inl rfl, .resume s p _⟩
  | wakes spent => exact ⟨s, .inl rfl, .spendAt? spent⟩

namespace Tidy

lemma stepHandler {point : HandlerPoint} (h : Tidy held (some r) none s) (hr : s.processes[r]? = some y)
    (hP : y.program = .handler k point) (idle : ((s.stepHandler r k point).2.map (.handler k)).program.handover? = none)
    (g : (s.stepHandler r k point).1.Goes r ((s.stepHandler r k point).2.map (.handler k)) turning s'') :
    Tidy held turning none s'' := by
  obtain ⟨i, owned⟩ : ∃ i, held i k := (h.known r y hr).handles (by rw [hP]; rfl)
  obtain ⟨s₁, effect, rouses⟩ := rouses_stepHandler s r k point
  obtain ⟨h₁, hr₁⟩ : Tidy held (some r) none s₁ ∧ s₁.processes[r]? = some y := by
    obtain rfl | rfl := effect
    · exact ⟨h, hr⟩
    · exact ⟨h.conclude owned, hr⟩
  generalize (s.stepHandler r k point).2 = turn at idle g
  refine h₁.passes hr₁ (by rw [hP]; rfl) (by simp [hP, Program.attends]) rouses (Turn.lasts_map turn fun _ => rfl)
    (fun j hj => ?_) (fun watch => by rw [hP] at watch; cases watch) ⟨?_, idle, fun _ => ?_⟩ g <;> cases turn
  case refine_1.done result => exact .inr ⟨_, rfl⟩
  case refine_2.done result => trivial
  case refine_3.done result => exact .inr (.inr rfl)
  case refine_1.go | refine_1.wait =>
    rw [hP] at hj
    exact .inl hj
  case refine_2.go | refine_2.wait => exact ⟨i, owned⟩
  case refine_3.go | refine_3.wait => exact .inl (Option.some_ne_none k)

lemma stepLifetime {milliseconds : Nat} {due : Option Nat} (h : Tidy held (some r) none s) (hr : s.processes[r]? = some y)
    (hP : y.program = .lifetime i milliseconds due)
    (g : (s.stepLifetime i milliseconds due).1.Goes r (s.stepLifetime i milliseconds due).2 turning s'') :
    Tidy held turning none s'' := by
  have bound : i < s.sessions.length := by
    have expected := (h.known r y hr).expected
    rwa [hP] at expected
  have goes {s' : System} {turn : Turn Program} (g : s'.Goes r turn turning s'') (rouses : s.Rouses s')
      (lasts : Turn.Lasts turn) (watch : turn.program.isWatch = true) (expected : s.Expects held r turn.program)
      (idle : turn.program.handover? = none) : Tidy held turning none s'' :=
    h.passes hr (by rw [hP]; rfl) (by simp [hP, Program.attends]) rouses lasts (fun j hj => by rw [hP] at hj; cases hj)
      (fun _ => .inl watch) ⟨expected, idle, fun _ => .inr (.inl watch)⟩ g
  have outcome := s.stepLifetime_outcome i milliseconds due
  generalize s.stepLifetime i milliseconds due = z at outcome g
  cases outcome with
  | sets => exact goes g (.refl s) (Turn.lasts_go _ rfl) rfl bound rfl
  | rings spent => exact goes g (.spendAt? spent) (Turn.lasts_go _ rfl) rfl ⟨bound, rfl, rfl⟩ rfl
  | waits => exact goes g (.refl s) (Turn.lasts_wait _ rfl) rfl bound rfl

lemma stepWriter {c : ChannelId} (h : Tidy held (some r) none s) (hr : s.processes[r]? = some y)
    (hP : y.program = .writer c) (g : (s.stepWriter c).1.Goes r ((s.stepWriter c).2.map .writer) turning s'') :
    Tidy held turning none s'' := by
  refine h.passes hr (by rw [hP]; rfl) (by simp [hP, Program.attends]) (.stepWriter s c) (Turn.lasts_map _ fun _ => rfl)
    (fun j hj => by rw [hP] at hj; cases hj) (fun watch => by rw [hP] at watch; cases watch) ⟨?_, ?_, fun hc => ?_⟩ g
  · cases (s.stepWriter c).2 <;> trivial
  · cases (s.stepWriter c).2 <;> rfl
  · obtain handled | watches | ended := (h.known r y hr).spared hc
    · exact absurd (by rw [hP]; rfl) handled
    · rw [hP] at watches
      cases watches
    · rw [hP] at ended
      cases ended

/-- The end of a session's time does not come if the time of no session is up after it. -/
lemma not_timeout {elapsed : Nat} {ofSession : Bool} {point : TimeoutPoint} (h : Tidy held (some r) none s)
    (hr : s.processes[r]? = some y) (hP : y.program = .timeout i elapsed ofSession point)
    (inTime : ∀ x ∈ (s.stepTimeout r i elapsed ofSession point).1.sessions, x.timedOut = none) : False := by
  have expected := (h.known r y hr).expected
  rw [hP] at expected
  obtain ⟨bound, rfl, rfl⟩ := expected
  have hx := List.getElem?_eq_getElem bound
  rw [stepTimeout, if_pos rfl, hx, Option.bind_some, Session.expire?_of_inTime (h.lives i _ hx).1] at inTime
  dsimp only at inTime
  rw [answerThen, Transit.turn_fst] at inTime
  obtain ⟨x', hx', follows⟩ := (Tends.interrupt (s.onSession i fun _ => _) r i elapsed true).follows
    { s.sessions[i] with timedOut := some elapsed, accepting := false } (by
      rw [onSession, List.getElem?_modify_eq, hx]
      rfl)
  have late := follows.timedOut rfl
  rw [inTime x' (List.mem_of_getElem? hx')] at late
  cases late

/-- Every step of a process other than a connection's leaves all sessions tended. -/
lemma step (h : Tidy held (some r) none s) (hr : s.processes[r]? = some y) (unfinished : y.program.isFinished = false)
    (apart : ∀ n point, y.program ≠ .connection n point)
    (inTime : ∀ x ∈ (s.step r y.program).1.sessions, x.timedOut = none)
    (idle : (s.step r y.program).2.program.handover? = none)
    (g : (s.step r y.program).1.Goes r (s.step r y.program).2 turning s'') : Tidy held turning none s'' := by
  cases hP : y.program with
  | handler k point =>
    rw [hP] at idle g
    exact h.stepHandler hr hP idle g
  | single i point =>
    rw [hP] at idle g
    exact h.executes hr (by rw [hP]; exact beq_self_eq_true i) (executes_single h hr hP idle) idle g
  | worker i point =>
    rw [hP] at idle g
    exact h.executes hr (by rw [hP]; exact beq_self_eq_true i) (executes_worker h hr hP idle) idle g
  | lifetime i milliseconds due =>
    rw [hP] at g
    exact h.stepLifetime hr hP g
  | timeout i elapsed ofSession point =>
    rw [hP] at inTime
    exact (h.not_timeout hr hP inTime).elim
  | writer c =>
    rw [hP] at g
    exact h.stepWriter hr hP g
  | connection n point => exact absurd hP (apart n point)
  | delivery c d point =>
    have expected := (h.known r y hr).expected
    rw [hP] at expected
    exact expected.elim
  | finished result =>
    rw [hP] at unfinished
    cases unfinished

/-- Every step of a process other than a connection's does something for one session. If it marks a context as answered,
the process is the handler for it, or executes the tasks of the session that accepted the request. -/
lemma deals_step (h : Tidy held (some r) none s) (hr : s.processes[r]? = some y)
    (apart : ∀ n point, y.program ≠ .connection n point)
    (inTime : ∀ x ∈ (s.step r y.program).1.sessions, x.timedOut = none)
    (idle : (s.step r y.program).2.program.handover? = none) :
    (∃ i, Deals held i s (s.step r y.program).1) ∧
      ((s.step r y.program).1.contexts = s.contexts ∨ ∃ i k, (s.step r y.program).1.contexts = (s.conclude k).contexts ∧
        held i k ∧ (y.program.attends i = true ∨ y.program.handles? = some k)) := by
  have executes {P : Program} {i : SessionId} {turn : Turn Program} {s' : System} (attends : P.attends i = true)
      (e : Executes held i s s' turn) :
      (∃ i, Deals held i s s') ∧ (s'.contexts = s.contexts ∨ ∃ i k, s'.contexts = (s.conclude k).contexts ∧
        held i k ∧ (P.attends i = true ∨ P.handles? = some k)) :=
    ⟨⟨i, e.deals⟩, e.contexts.imp_right fun ⟨k, owned, same⟩ => ⟨i, k, same, owned, .inl attends⟩⟩
  have rouses {P : Program} {s' : System} (rouses : s.Rouses s') :
      (∃ i, Deals held i s s') ∧ (s'.contexts = s.contexts ∨ ∃ i k, s'.contexts = (s.conclude k).contexts ∧
        held i k ∧ (P.attends i = true ∨ P.handles? = some k)) :=
    ⟨⟨0, .of_rouses rouses held 0⟩, .inl rouses.contexts⟩
  cases hP : y.program with
  | handler k point =>
    obtain ⟨i, owned⟩ := (h.known r y hr).handles (show y.program.handles? = some k by rw [hP]; rfl)
    obtain ⟨s₁, rfl | rfl, same⟩ := rouses_stepHandler s r k point
    · exact rouses same
    · exact ⟨⟨i, (Deals.conclude s i owned).trans (.of_rouses same held i)⟩,
        .inr ⟨i, k, same.contexts, owned, .inr rfl⟩⟩
  | single i point =>
    rw [hP] at idle
    exact executes (beq_self_eq_true i) (executes_single h hr hP idle)
  | worker i point =>
    rw [hP] at idle
    exact executes (beq_self_eq_true i) (executes_worker h hr hP idle)
  | lifetime i milliseconds due =>
    have outcome := s.stepLifetime_outcome i milliseconds due
    rw [System.step]
    generalize s.stepLifetime i milliseconds due = z at outcome ⊢
    cases outcome with
    | sets | waits => exact rouses (.refl s)
    | rings spent => exact rouses (.spendAt? spent)
  | timeout i elapsed ofSession point =>
    rw [hP] at inTime
    exact (h.not_timeout hr hP inTime).elim
  | writer c => exact rouses (.stepWriter s c)
  | connection n point => exact absurd hP (apart n point)
  | delivery c d point =>
    have expected := (h.known r y hr).expected
    rw [hP] at expected
    exact expected.elim
  | finished result => exact rouses (.refl s)

/-! ### Turns -/

/-- A process that is given its turn. -/
lemma takesTurn (h : Tidy held none none s) (r : ProcessId) (allowance : Nat) :
    Tidy held (some r) none { s with ready := s.ready.erase r, allowance } := by
  refine h.carry rfl rfl ⟨[], (List.append_nil _).symm, nofun⟩ fun q attentive => ?_
  by_cases hq : q = r
  · exact .inl (congrArg some hq.symm)
  · refine .inr (isAwake_iff.mpr ((isAwake_iff.mp (attentive.resolve_left nofun)).imp_left fun ready => ?_))
    exact (List.mem_erase_of_ne hq).mpr ready

/-- The turn of a process is cut short. -/
lemma pauses (h : Tidy held (some r) skip s) : Tidy held none skip (s.wake r) := by
  have woken := Rouses.wake s r
  refine h.carry woken.sessions woken.processes ⟨[], by rw [woken.contexts, List.append_nil], nofun⟩ fun q attentive => ?_
  refine .inr (attentive.elim (fun turn => ?_) (woken.awake q))
  cases turn
  exact isAwake_wake s r

/-- A process ends that was stopped. -/
lemma cancel (h : Tidy held (some r) none s) (hr : s.processes[r]? = some y) (unfinished : y.program.isFinished = false)
    (stopped : y.cancelled = true) : Tidy held none none (s.cancel r y.program) := by
  have known := h.known r y hr
  rw [System.cancel, known.idle]
  refine h.move (.finish s r none) hr unfinished (fun j hj => ?_) (fun _ _ => .inr (.inr stopped))
    (fun _ => .inr rfl) ⟨trivial, rfl, fun _ => .inr (.inr rfl)⟩ none
  obtain ⟨unhandled, unwatched, -⟩ := Program.only_attends hj
  obtain handled | watches | ended := known.spared stopped
  · exact absurd unhandled handled
  · cases unwatched.symm.trans watches
  · cases unfinished.symm.trans ended

end Tidy

end GraphServer.System
