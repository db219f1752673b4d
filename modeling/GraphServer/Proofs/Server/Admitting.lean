import GraphServer.Proofs.Server.Tasking

/-!
The sessions of a server while requests are routed to them.

* `System.holding`: one more task was accepted;
* `System.Tidy.recruit`, `System.Tidy.alerted`: a process is started for a new session, or that of an old one is notified;
* `System.Tidy.route`: **a request that is routed leaves all sessions tended, and if it is not answered at once, then its
  task is in the hands of the session to which it was routed**.
-/

namespace GraphServer

/-- The name of the session that a request is to close. -/
def Request.closes? (r : Request) : Option String :=
  if r.op = closeOp then r.session? else none

namespace System

variable {held held' : SessionId → ContextId → Prop} {s s' : System} {i j : SessionId} {x x' : Session} {k l : ContextId}
  {P N : Program} {y : Process} {turning : Option ProcessId} {skip : Option SessionId} {c : ChannelId} {name : String}
  {request : Request}

/-- One more task was accepted. -/
def holding (held : SessionId → ContextId → Prop) (i : SessionId) (k : ContextId) (j : SessionId) (l : ContextId) : Prop :=
  held j l ∨ j = i ∧ l = k

lemma holding_iff_of_ne (other : j ≠ i) : holding held i k j l ↔ held j l :=
  or_iff_left fun h => other h.1

/-- A worker that is notified has heard of all that waits. -/
lemma Session.noted (x : Session) : (x.setNotified true).isNotified = true ∨ (x.setNotified true).waiting = [] := by
  rw [Session.isNotified, Session.waiting, Session.setNotified]
  cases x.backlog with
  | none => exact .inr rfl
  | some b => exact .inl rfl

namespace Tidy

/-! ### One more session, one more task -/

/-- A task is accepted for the session that is excepted. -/
lemma hold (h : Tidy held turning (some i) s) (unheld : ∀ j, ¬ held j k) (hi : i < s.sessions.length)
    (hk : k < s.contexts.length) : Tidy (holding held i k) turning (some i) s where
  tended j x hj hx := by
    obtain ⟨q, y, future, hy, lives, hands, alert⟩ := (h.tended j x hj hx).staffed
    refine ⟨q, y, future, hy, lives, hands.frame (fun l => holding_iff_of_ne fun hji => hj (congrArg some hji.symm)) ?_ ?_ ?_,
      alert⟩
    · exact fun _ _ _ _ => id
    · exact fun _ => id
    · exact fun p Q hQ kind => ⟨Q, hQ, kind⟩
  known p y hy := by
    obtain ⟨expected, idle, spared⟩ := h.known p y hy
    refine ⟨?_, idle, spared⟩
    cases hP : y.program <;> rw [hP] at expected <;> first | exact expected | exact expected.imp fun _ => .inl
  contexts l y hy := ⟨(h.contexts l y hy).1, fun finished => ((h.contexts l y hy).2 finished).imp fun _ => .inl⟩
  bounds j l owned := by
    obtain owned | ⟨rfl, rfl⟩ := owned
    · exact h.bounds j l owned
    · exact ⟨hi, hk⟩
  sole j j' l owned owned' := by
    obtain owned | ⟨rfl, rfl⟩ := owned <;> obtain owned' | ⟨rfl, hl⟩ := owned'
    · exact h.sole j j' l owned owned'
    · exact absurd (hl ▸ owned) (unheld j)
    · exact absurd owned' (unheld j')
    · rfl
  lives := h.lives

/-- A session is opened. -/
lemma addSession (h : Tidy held turning none s) {x : Session} (inTime : x.timedOut = none) (alive : x.killed = false) :
    Tidy held turning (some s.sessions.length) (s.addSession x).1 where
  tended j x hj hx := by
    have hlt : j < s.sessions.length := by
      have hle := (List.getElem?_eq_some_iff.mp hx).1
      rw [System.addSession, List.length_append, List.length_singleton] at hle
      exact Nat.lt_of_le_of_ne (Nat.le_of_lt_succ hle) fun heq => hj (congrArg some heq.symm)
    obtain ⟨q, y, future, hy, lives, hands, alert⟩ :=
      (h.tended j x nofun ((List.getElem?_append_left hlt).symm.trans hx)).staffed
    exact ⟨q, y, future, hy, lives,
      hands.frame (fun _ => Iff.rfl) (fun _ _ _ _ => id) (fun _ => id) fun p Q hQ kind => ⟨Q, hQ, kind⟩,
      alert.imp_right (.imp_right fun rest => rest.mono rfl fun _ _ => id)⟩
  known p y hy := by
    obtain ⟨expected, idle, spared⟩ := h.known p y hy
    refine ⟨expected.congr (fun i hi => ?_) (by simp [System.addSession]), idle, spared⟩
    rw [executor?, Option.bind_eq_some_iff] at hi ⊢
    obtain ⟨x, hx, future⟩ := hi
    exact ⟨x, (List.getElem?_append_left (List.getElem?_eq_some_iff.mp hx).1).trans hx, future⟩
  contexts := h.contexts
  bounds j k owned := by
    refine ⟨(h.bounds j k owned).1.trans_le ?_, (h.bounds j k owned).2⟩
    simp [System.addSession]
  sole := h.sole
  lives j z hz := by
    rw [System.addSession] at hz
    by_cases hj : j < s.sessions.length
    · exact h.lives j z ((List.getElem?_append_left hj).symm.trans hz)
    · rw [List.getElem?_append_right (not_lt.mp hj)] at hz
      obtain rfl := List.mem_singleton.mp (List.mem_of_getElem? hz)
      exact ⟨inTime, alive⟩

/-- A process is started for the session that is excepted. -/
lemma recruit (h : Tidy held turning (some i) s) (hx : s.sessions[i]? = some x)
    (future : x.future = some s.processes.length) (attends : N.attends i = true) (idle : N.handover? = none)
    (hands : (s.spawn N).1.InHands held i x N) : Tidy held turning none (s.spawn N).1 := by
  have staffed : s.executor? i = some s.processes.length := by rw [executor?, hx, Option.bind_some, future]
  have d : Deals held i s (s.spawn N).1 := .spawn s i (.of_attends idle attends staffed)
  refine (h.deals d fun j _ hj _ hji => hj (congrArg some hji.symm)).including fun z hz => ?_
  rw [sessions_spawn, hx] at hz
  cases hz
  exact ⟨_, { program := N }, future, getElem?_spawn s N, rfl, hands, .inr (.inl (isAwake_wake _ _))⟩

/-- A session changes, and is notified of it. -/
lemma alerted {f : Session → Session} (h : Tidy held turning none s) (h' : Tidy held' turning (some i) s)
    (hx : s.sessions[i]? = some x) (same : (f x).future = x.future ∧ (f x).timedOut = x.timedOut ∧ (f x).killed = x.killed)
    (hands : ∀ P, s.InHands held i x P → s.InHands held' i ((f x).setNotified true) P) :
    Tidy held' turning none ((s.onSession i f).notify i) := by
  have changed : Deals held' i s ((s.onSession i f).onSession i (·.setNotified true)) :=
    .trans (.onSession held' s i fun z hz => by cases hx.symm.trans hz; exact same)
      (.onSession held' _ i fun _ _ => ⟨rfl, rfl, rfl⟩)
  have hx₂ : ((s.onSession i f).onSession i (·.setNotified true)).sessions[i]? = some ((f x).setNotified true) := by
    rw [onSession, List.getElem?_modify_eq, onSession, List.getElem?_modify_eq, hx]
    rfl
  obtain ⟨q, y, future, hy, lives, inHands, alert⟩ := (h.tended i x (Option.some_ne_none i).symm hx).staffed
  have woken : (s.onSession i f).notify i =
      ((s.onSession i f).onSession i (·.setNotified true)).wakeIf q (·.isResting) := by
    rw [notify, hx₂, Option.bind_some, show ((f x).setNotified true).future = some q from same.1.trans future]
  rw [woken]
  have rouses := Rouses.wakeIf ((s.onSession i f).onSession i (·.setNotified true)) q (·.isResting)
  refine ((h'.deals changed fun j _ hj _ hji => hj (congrArg some hji.symm)).rouses rouses).including fun z hz => ?_
  obtain rfl := Option.some.inj ((rouses.sessions ▸ hx₂).symm.trans hz)
  have processes : (((s.onSession i f).onSession i (·.setNotified true)).wakeIf q (·.isResting)).processes = s.processes :=
    rouses.processes
  have program (p : ProcessId) :
      (((s.onSession i f).onSession i (·.setNotified true)).wakeIf q (·.isResting)).program? p = s.program? p := by
    rw [program?, program?, processes]
  refine ⟨q, y, same.1.trans future, processes ▸ hy, lives, (hands _ inHands).frame (fun _ => Iff.rfl) ?_ ?_ ?_,
    alert.imp_right fun alert => ?_⟩
  · rintro a k - - ⟨w, hw, answers⟩
    exact ⟨w, processes ▸ hw, answers⟩
  · intro k hk
    rw [isConcluded, rouses.contexts]
    exact hk
  · exact fun p Q hQ kind => ⟨Q, (program p).trans hQ, kind⟩
  · obtain awake | rest := alert
    · exact .inl (rouses.awake q awake)
    · cases rest with
      | finished ended => exact .inr (.finished ended)
      | resting resting unnotified => exact .inl (isAwake_wakeIf (program?_of_getElem? hy) resting)
      | joining joins unended => exact .inr (.joining joins (by rwa [result?, program]))

lemma closeMulti (h : Tidy held turning none s) (i : SessionId) : Tidy held turning none (s.closeMulti i) := by
  cases hx : s.sessions[i]? with
  | none =>
    have same (s : System) (f : Session → Session) (hnone : s.sessions[i]? = none) : s.onSession i f = s := by
      rw [onSession, List.modify_eq_self (List.getElem?_eq_none_iff.mp hnone)]
    rw [System.closeMulti, same s _ hx, notify, same s _ hx, hx]
    exact h
  | some x =>
    refine h.alerted (h.excepting i) hx ⟨rfl, rfl, rfl⟩ fun P hands => ?_
    constructor
    case attends => exact hands.attends
    case lone => exact fun _ => rfl
    case kind => exact fun single => by rw [Session.setNotified, Session.stopAccepting, hands.kind single]; rfl
    case ended => exact fun ended => ⟨(Session.waiting_setNotified _ _).trans (hands.ended ended).1, rfl⟩
    case heard => exact fun _ => Session.noted _
    case joins => exact hands.joins
    case tasks => exact fun k hk => hands.tasks k (hk.imp_left (Session.waiting_setNotified x.stopAccepting true ▸ ·))
    case cared =>
      intro k owned
      rw [Session.waiting_setNotified]
      exact hands.cared k owned
    case watched => exact hands.watched

/-- A task is put behind those that wait in a session. -/
lemma enqueue {b : Backlog} {t : Task} (h : Tidy held turning none s) (hx : s.sessions[i]? = some x)
    (accepting : x.accepting = true) (backlog : x.backlog = some b) (unheld : ∀ j, ¬ held j t.context)
    (hk : t.context < s.contexts.length) (queued : x.enqueue b t = .ok x') :
    Tidy (holding held i t.context) turning none ((s.onSession i fun _ => x').notify i) := by
  obtain ⟨-, rfl⟩ := Session.enqueue_eq_ok queued
  refine h.alerted ((h.excepting i).hold unheld (List.getElem?_eq_some_iff.mp hx).1 hk) hx ⟨rfl, rfl, rfl⟩
    fun P hands => ?_
  have waiting : (Session.setNotified { x with backlog := some { b with tasks := b.tasks ++ [t] } } true).waiting =
      x.waiting ++ [t.context] := by
    rw [Session.waiting_setNotified, Session.waiting, Session.waiting, backlog]
    exact List.map_append
  constructor
  case attends => exact hands.attends
  case lone => exact fun h => by cases h
  case kind => exact fun single => by cases backlog.symm.trans (hands.kind single)
  case ended => exact fun ended => by cases accepting.symm.trans (hands.ended ended).2
  case heard => exact fun _ => Session.noted _
  case joins => exact hands.joins
  case tasks =>
    rintro k (waits | runs)
    · rw [waiting] at waits
      obtain waits | new := List.mem_append.mp waits
      · exact .inl (hands.tasks k (.inl waits))
      · exact .inr ⟨rfl, List.mem_singleton.mp new⟩
    · exact .inl (hands.tasks k (.inr runs))
  case cared =>
    rw [waiting]
    rintro k (owned | ⟨-, rfl⟩)
    · exact (hands.cared k owned).imp_right (.imp_left (List.mem_append_left _))
    · exact .inr (.inl (List.mem_append_right _ (List.mem_singleton_self _)))
  case watched => exact hands.watched

end Tidy

/-! ### Opening sessions -/

lemma onSession_wake (s : System) (i : SessionId) (f : Session → Session) (p : ProcessId) :
    (s.wake p).onSession i f = (s.onSession i f).wake p := by
  by_cases awake : p ∈ s.ready
  · rw [wake, if_pos awake, wake, if_pos (show p ∈ (s.onSession i f).ready from awake)]
  · rw [wake, if_neg awake, wake, if_neg (show p ∉ (s.onSession i f).ready from awake)]
    rfl

/-- What happens to sessions does not matter to a process that is started. -/
lemma onSession_spawn (s : System) (i : SessionId) (f : Session → Session) (P : Program) :
    (s.spawn P).1.onSession i f = ((s.onSession i f).spawn P).1 :=
  onSession_wake (s.addProcess P).1 i f s.processes.length

lemma modify_concat {α : Type} (xs : List α) (x : α) (f : α → α) : (xs ++ [x]).modify xs.length f = xs ++ [f x] := by
  simp [List.modify_eq_take_drop]

lemma onSession_addSession (s : System) (x : Session) (f : Session → Session) :
    (s.addSession x).1.onSession s.sessions.length f = (s.addSession (f x)).1 := by
  rw [addSession, addSession, onSession, modify_concat]

lemma openMulti_eq (s : System) (name : String) (c : ChannelId) (limit : Nat) :
    s.openMulti name c limit =
      (((s.addSession
          { name, channel := c, backlog := some { limit := max limit 1 }, future := some s.processes.length }).1.spawn
        (.worker s.sessions.length .choosing)).1, s.sessions.length) := by
  rw [openMulti]
  dsimp only
  rw [onSession_spawn]
  congr 3
  exact onSession_addSession s _ _

/-- Filling the hook of the watch changes the hook at most. -/
lemma setHook_cancelFuture (x : Session) (p : ProcessId) :
    (x.setHook .cancelFuture p).toOption.getD x = { x with cancelFuture := some (x.cancelFuture.getD p) } := by
  rw [Session.setHook, Session.hook?]
  split
  next q hq => rw [hq]; exact congrArg (fun hook => { x with cancelFuture := hook }) hq
  next hq => rw [hq]; rfl

namespace Tidy

/-- A session for many tasks is opened, with its worker. -/
lemma openMulti (h : Tidy held turning none s) (name : String) (c : ChannelId) (limit : Nat) :
    Tidy held turning none (s.openMulti name c limit).1 := by
  rw [openMulti_eq]
  refine (h.addSession rfl rfl).recruit List.getElem?_concat_length rfl (beq_self_eq_true _) rfl ?_
  constructor
  case attends => exact .inl (beq_self_eq_true _)
  case lone => exact fun h => by cases h
  case kind => exact fun h => by cases h
  case ended => exact fun h => by cases h
  case heard => exact fun h => by cases h
  case joins => exact fun _ h => by cases h
  case tasks =>
    rintro k (waits | runs)
    · cases waits
    · cases runs
  case cared => exact fun k owned => absurd (h.bounds _ k owned).1 (lt_irrefl _)
  case watched => exact fun _ h => by cases h

/-- A session learns which process watches its time. -/
lemma watch {p : ProcessId} (h : Tidy held turning none s) (program : s.program? p = some N) (watches : N.isWatch = true) :
    Tidy held turning none (s.onSession i fun x => (x.setHook .cancelFuture p).toOption.getD x) := by
  rw [funext fun x => setHook_cancelFuture x p]
  have d : Deals held i s (s.onSession i fun x => { x with cancelFuture := some (x.cancelFuture.getD p) }) :=
    .onSession held s i fun _ _ => ⟨rfl, rfl, rfl⟩
  refine ((h.excepting i).deals d fun j _ hj _ hji => hj (congrArg some hji.symm)).including fun z hz => ?_
  rw [onSession, List.getElem?_modify_eq, Option.map_eq_map, Option.map_eq_some_iff] at hz
  obtain ⟨x, hx, rfl⟩ := hz
  obtain ⟨q, y, future, hy, lives, hands, alert⟩ := (h.tended i x (Option.some_ne_none i).symm hx).staffed
  have hands' :
      (s.onSession i fun x => { x with cancelFuture := some (x.cancelFuture.getD p) }).InHands held i x y.program :=
    hands.frame (fun _ => Iff.rfl) (fun _ _ _ _ => id) (fun _ => id) fun p Q hQ kind => ⟨Q, hQ, kind⟩
  refine ⟨q, y, future, hy, lives, { hands' with watched := fun p' hp' => ?_ },
    alert.imp_right (.imp_right fun rest => rest.mono rfl fun _ _ => id)⟩
  cases hook : x.cancelFuture with
  | none =>
    rw [hook] at hp'
    cases hp'
    exact ⟨N, program, .inl watches⟩
  | some p'' =>
    rw [hook] at hp'
    cases hp'
    exact hands.watched _ hook

/-- The watch over the lifetime of a session starts. -/
lemma armLifetime (h : Tidy held turning none s) (hi : i < s.sessions.length) :
    Tidy held turning none (s.armLifetime i) := by
  rw [System.armLifetime]
  dsimp only
  split
  · exact h
  generalize hN : Program.lifetime i s.service.settings.sessionLifetime none = N
  have known : s.Known held s.processes.length { program := N } := hN ▸ ⟨hi, rfl, fun h => absurd h Bool.false_ne_true⟩
  have started : Tidy held turning none (s.spawn N).1 :=
    h.deals (.spawn s s.sessions.length known) fun _ _ _ hx => ((List.getElem?_eq_some_iff.mp hx).1).ne
  exact started.watch (program?_of_getElem? (getElem?_spawn s N)) (by rw [← hN]; rfl)

lemma retable (h : Tidy held turning none s) (table : SessionTable) : Tidy held turning none { s with table } :=
  h.carry rfl rfl ⟨[], (List.append_nil _).symm, nofun⟩ fun _ => id

lemma getOrCreate (h : Tidy held turning none s) (name : String) (c : ChannelId) :
    Tidy held turning none (s.getOrCreate name c).1 := by
  have pruned : Tidy held turning none s.prune := h.retable _
  have outcome := s.getOrCreate_outcome name c
  generalize s.getOrCreate name c = z at outcome ⊢
  cases outcome with
  | finds | elsewhere | full => exact pruned
  | opens =>
    refine ((pruned.openMulti name c _).armLifetime ?_).retable _
    rw [openMulti_eq, sessions_spawn]
    simp [System.addSession]

end Tidy

/-! ### Contexts -/

lemma contexts_notify (s : System) (i : SessionId) : (s.notify i).contexts = s.contexts := by
  rw [notify]
  split
  · exact (Quiet.wakeIf _ _ _).contexts
  · rfl

lemma contexts_submitTask (s : System) (i : SessionId) (t : Task) : (s.submitTask i t).1.contexts = s.contexts := by
  have outcome := s.submitTask_outcome i t
  generalize s.submitTask i t = z at outcome ⊢
  cases outcome with
  | strays | closed | full => rfl
  | engages => exact contexts_spawn _ _
  | enqueues => exact contexts_notify _ i

lemma contexts_getOrCreate (s : System) (name : String) (c : ChannelId) :
    (s.getOrCreate name c).1.contexts = s.contexts := by
  have outcome := s.getOrCreate_outcome name c
  generalize s.getOrCreate name c = z at outcome ⊢
  cases outcome with
  | finds | elsewhere | full => rfl
  | opens =>
    rw [enroll, openMulti_eq, armLifetime]
    dsimp only
    split
    · exact contexts_spawn _ _
    · exact (contexts_spawn _ _).trans (contexts_spawn _ _)

/-! ### Requests -/

/-- The tasks that were accepted, after a request that is answered at once or accepted by a session. -/
def heldAfter (held : SessionId → ContextId → Prop) (i : SessionId) (k : ContextId) :
    (reply? : Option Response) → SessionId → ContextId → Prop
  | some _ => held
  | none => holding held i k

/-- The session to which a request is routed that arrived over a channel. -/
def addressee (s : System) (c : ChannelId) (request : Request) : SessionId :=
  match request.session? with
  | none => (s.single c).2
  | some name => (s.getOrCreate name c).2.toOption.getD 0

/-- A session for one task that has none gets it. -/
lemma submitTask_lone (hx : s.sessions[i]? = some x) (accepting : x.accepting = true) (lone : x.backlog = none) (t : Task) :
    s.submitTask i t = ((((s.onSession i Session.stopAccepting).onSession i fun x =>
      (x.setHook .future s.processes.length).toOption.getD x).spawn (.single i (.start t))).1, .ok true) := by
  rw [submitTask, hx]
  dsimp only
  rw [if_pos accepting, lone, onSession_spawn]
  rfl

/-- The session for one task is opened and gets it. -/
lemma submit_single (s : System) (c : ChannelId) (request : Request) : ∃ s' : System,
    (s.single c).1.submit c (s.single c).2 request =
      ((s'.spawn (.single s.sessions.length (.start ⟨request, s.contexts.length⟩))).1, none) ∧
    s'.sessions = s.sessions ++
      [{ name := "", channel := c, accepting := false, future := some s.processes.length }] ∧
    s'.processes = s.processes ∧ s'.contexts = s.contexts ++ [{ request := request.id, channel := some c }] ∧
    s'.ready = s.ready ∧ s'.aside = s.aside := by
  obtain ⟨s₁, made, sessions, processes, contexts, ready, aside⟩ : ∃ s₁ : System,
      (s.single c).1.makeTask request c = (s₁, ⟨request, s.contexts.length⟩) ∧
      s₁.sessions = s.sessions ++ [{ name := "", channel := c }] ∧ s₁.processes = s.processes ∧
      s₁.contexts = s.contexts ++ [{ request := request.id, channel := some c }] ∧ s₁.ready = s.ready ∧
      s₁.aside = s.aside := ⟨_, rfl, rfl, rfl, rfl, rfl, rfl⟩
  have hx : s₁.sessions[s.sessions.length]? = some { name := "", channel := c } := by
    rw [sessions, List.getElem?_concat_length]
  rw [submit, made]
  dsimp only
  rw [show (s.single c).2 = s.sessions.length from rfl, submitTask_lone hx rfl rfl]
  refine ⟨_, rfl, ?_, processes, contexts, ready, aside⟩
  rw [onSession, onSession, sessions, modify_concat, modify_concat, processes]
  rfl

namespace Tidy

/-- The number of a context that is not known yet belongs to no task. -/
lemma unheld (h : Tidy held turning skip s) (j : SessionId) : ¬ held j s.contexts.length :=
  fun owned => (h.bounds j _ owned).2.ne rfl

lemma makeTask (h : Tidy held turning none s) (request : Request) : Tidy held turning none (s.makeTask request 0).1 :=
  h.carry rfl rfl ⟨_, rfl, fun _ hy => by rw [List.mem_singleton.mp hy]; exact ⟨rfl, rfl⟩⟩ fun _ => id

/-- A request for one task gets a session of its own. -/
lemma single (h : Tidy held turning none s) (request : Request) :
    ((s.single 0).1.submit 0 (s.single 0).2 request).2 = none ∧
      Tidy (holding held (s.single 0).2 s.contexts.length) turning none
        ((s.single 0).1.submit 0 (s.single 0).2 request).1 := by
  obtain ⟨s', submitted, sessions, processes, contexts, ready, aside⟩ := submit_single s 0 request
  rw [submitted, show (s.single 0).2 = s.sessions.length from rfl]
  refine ⟨rfl, ?_⟩
  have opened : Tidy held turning (some s.sessions.length) s' := by
    have added := h.addSession (x := { name := "", channel := 0, accepting := false, future := some s.processes.length })
      rfl rfl
    refine added.carry sessions processes ⟨_, contexts, fun y hy => ?_⟩ fun q alert => ?_
    · rw [List.mem_singleton.mp hy]
      exact ⟨rfl, rfl⟩
    · rwa [isAwake_iff, ready, aside, ← isAwake_iff]
  have owned : Tidy (holding held s.sessions.length s.contexts.length) turning (some s.sessions.length) s' := by
    refine opened.hold h.unheld ?_ ?_
    · rw [sessions, List.length_append]
      exact Nat.lt_add_one _
    · rw [contexts, List.length_append]
      exact Nat.lt_add_one _
  refine owned.recruit (by rw [sessions, List.getElem?_concat_length]) (by rw [processes]) (beq_self_eq_true _) rfl ?_
  constructor
  case attends => exact .inl (beq_self_eq_true _)
  case lone => exact fun _ => rfl
  case kind => exact fun _ => rfl
  case ended => exact fun h => by cases h
  case heard => exact fun h => by cases h
  case joins => exact fun _ h => by cases h
  case tasks =>
    rintro k (waits | runs)
    · cases waits
    · cases runs
      exact .inr ⟨rfl, rfl⟩
  case cared =>
    rintro k (owned | ⟨-, rfl⟩)
    · exact absurd (h.bounds _ k owned).1 (lt_irrefl _)
    · exact .inr (.inr rfl)
  case watched => exact fun _ h => by cases h

/-- A request for a session for many tasks waits in it, or is answered at once. -/
lemma submit (h : Tidy held turning none s) (i : SessionId) (request : Request) :
    Tidy (heldAfter held i s.contexts.length (s.submit 0 i request).2) turning none (s.submit 0 i request).1 := by
  have made := h.makeTask request
  have known : s.contexts.length < (s.makeTask request 0).1.contexts.length := by
    rw [System.makeTask, addContext, List.length_append]
    exact Nat.lt_add_one _
  have unheld (j : SessionId) : ¬ held j (Task.mk request s.contexts.length).context := h.unheld j
  have outcome := s.submit_outcome 0 i request
  generalize s.submit 0 i request = z at outcome ⊢
  cases outcome with
  | refuses => exact made
  | @accepts s' accepted =>
    have outcome := (s.makeTask request 0).1.submitTask_outcome i ⟨request, s.contexts.length⟩
    rw [show (s.makeTask request 0).1.submitTask i ⟨request, s.contexts.length⟩ = (s', .ok true) from accepted] at outcome
    cases outcome with
    | engages hx accepting lone =>
      obtain ⟨_, _, _, _, _, hands, _⟩ := (made.tended i _ (Option.some_ne_none i).symm hx).staffed
      cases accepting.symm.trans (hands.lone lone)
    | enqueues hx accepting backlog queued => exact made.enqueue hx accepting backlog unheld known queued

lemma closeSession (h : Tidy held turning none s) (name : String) : Tidy held turning none (s.closeSession name).1 := by
  rw [System.closeSession]
  split
  · exact h
  · exact (h.retable _).closeMulti _

/-- **A request that is routed** leaves all sessions tended; if it is not answered at once, its task is in the hands of the
session to which it was routed. -/
lemma route (h : Tidy held turning none s) (request : Request) :
    Tidy (heldAfter held (s.addressee 0 request) s.contexts.length (s.route 0 request).2) turning none
      (s.route 0 request).1 := by
  rw [addressee]
  have outcome := s.route_outcome 0 request
  generalize s.route 0 request = z at outcome ⊢
  cases outcome with
  | lone unnamed =>
    obtain ⟨accepted, tidy⟩ := h.single request
    rw [unnamed]
    dsimp only
    rw [accepted]
    exact tidy
  | closes => exact h.closeSession _
  | @enters name i named works got =>
    have submitted := (h.getOrCreate name 0).submit i request
    rw [contexts_getOrCreate] at submitted
    rw [named]
    dsimp only
    rw [got]
    exact submitted
  | refused => exact h.getOrCreate _ 0

end Tidy

/-! ### Replies -/

/-- A request that is submitted is refused, or its context is the new one. -/
lemma submit_cases (s : System) (c : ChannelId) (i : SessionId) (request : Request) :
    (∃ e, (s.submit c i request).2 = some (refusal request.id (.rejected e))) ∨
      (s.submit c i request).2 = none ∧
        (s.submit c i request).1.contexts = s.contexts ++ [{ request := request.id, channel := some c }] := by
  have contexts := contexts_submitTask (s.makeTask request c).1 i (s.makeTask request c).2
  have outcome := s.submit_outcome c i request
  generalize s.submit c i request = z at outcome ⊢
  cases outcome with
  | accepts accepted =>
    rw [accepted] at contexts
    exact .inr ⟨rfl, contexts⟩
  | refuses => exact .inl ⟨_, rfl⟩

/-- What becomes of a request that is routed. -/
lemma route_cases (s : System) (c : ChannelId) (request : Request) :
    (∃ name, request.closes? = some name ∧
      (s.route c request).2 = some (closeResponse request.id name (s.table.find? name).isSome)) ∨
    request.closes? = none ∧ ((∃ e, (s.route c request).2 = some (refusal request.id (.rejected e))) ∨
      (s.route c request).2 = none ∧
        (s.route c request).1.contexts = s.contexts ++ [{ request := request.id, channel := some c }]) := by
  rw [Request.closes?]
  have outcome := s.route_outcome c request
  generalize s.route c request = z at outcome ⊢
  cases outcome with
  | lone unnamed =>
    rw [unnamed, ite_self]
    exact .inr ⟨rfl, submit_cases (s.single c).1 c (s.single c).2 request⟩
  | @closes name named closes =>
    refine .inl ⟨name, by rw [if_pos closes, named], ?_⟩
    rw [closeSession]
    cases s.table.find? name <;> rfl
  | @enters name i named works got =>
    rw [if_neg works, ← contexts_getOrCreate s name c]
    exact .inr ⟨rfl, submit_cases (s.getOrCreate name c).1 c i request⟩
  | refused named works =>
    rw [if_neg works]
    exact .inr ⟨rfl, .inl ⟨_, rfl⟩⟩

end System

end GraphServer
