import GraphServer.Proofs.Server.Visit

/-!
Every message that a client sends is answered once.

* `Happening.isPrivate`: what can happen to a server on which there is one client and nobody else;
* `Annals.visit_play`: whatever happens of this kind leaves the server as it has to stand;
* `System.Tidy.concluded_of_isAtRest`: **at rest, every task that was accepted is answered**;
* `Annals.answered_of_isAtRest`: **at rest, the answers in the queue are those to the messages, one for each**.
-/

namespace GraphServer

open GraphServer.System

namespace Happening

/-- Whether it can happen to a server on which there is one client and nobody else. -/
def isPrivate : Happening → Bool
  | turn .. | bringBack | ring _ | wait _ | transport .. | abandon _ => true
  | receive n _ | endInbound n | disconnect n => n == 0
  | _ => false

/-- The bytes that arrive. -/
def arrival : Happening → Bytes
  | receive _ bytes => bytes
  | _ => []

/-- Whether no more bytes will arrive. -/
def endsInbound : Happening → Bool
  | endInbound _ | disconnect _ => true
  | _ => false

end Happening

namespace System

/-- Whether nothing can go on: nobody is awake, and no handler is at work. -/
def IsAtRest (s : System) : Prop :=
  s.ready = [] ∧ s.aside = [] ∧ ∀ y ∈ s.processes, y.program.handles? = none

instance (s : System) : Decidable s.IsAtRest :=
  inferInstanceAs (Decidable (_ ∧ _ ∧ _))

variable {held : SessionId → ContextId → Prop} {s : System} {i : SessionId} {k : ContextId}

lemma IsAtRest.isAwake (h : s.IsAtRest) (p : ProcessId) : s.isAwake p = false := by
  rw [Bool.eq_false_iff, ne_eq, isAwake_iff, h.1, h.2.1]
  simp

/-- At rest, every task that was accepted is answered. -/
lemma Tidy.concluded_of_isAtRest (h : Tidy held none none s) (rest : s.IsAtRest) (owned : held i k) :
    s.isConcluded k = true := by
  obtain ⟨x, hx⟩ : ∃ x, s.sessions[i]? = some x := ⟨_, List.getElem?_eq_getElem (h.bounds i k owned).1⟩
  obtain ⟨q, y, -, hy, -, hands, alert⟩ := (h.tended i x nofun hx).staffed
  -- neither is there a task that waits, nor one that is executed
  have idle (none_ : x.waiting = []) (unengaged : y.program.task? = none) : s.isConcluded k = true := by
    obtain concluded | waits | runs := hands.cared k owned
    · exact concluded
    · rw [none_] at waits
      cases waits
    · cases unengaged.symm.trans runs
  obtain turn | awake | sleeps := alert
  · cases turn
  · cases (rest.isAwake q).symm.trans awake
  · cases sleeps with
    | finished ended =>
      refine idle (hands.ended ended).1 ?_
      cases hP : y.program with
      | finished result => rfl
      | _ => rw [hP] at ended; cases ended
    | resting rests unnotified =>
      refine idle ((hands.heard rests).resolve_left fun notified => by cases unnotified.symm.trans notified) ?_
      cases hP : y.program with
      | worker j point =>
        cases point with
        | resting => rfl
        | _ => rw [hP] at rests; cases rests
      | _ => rw [hP] at rests; cases rests
    | @joining a joins unended =>
      obtain ⟨l, -, -, z, hz, -, handles | ⟨result, ended⟩⟩ := hands.joins a joins
      · cases (rest.2.2 z (List.mem_of_getElem? hz)).symm.trans handles
      · rw [result?, program?_of_getElem? hz, ended] at unended
        cases unended

end System

namespace Annals

variable {service : Service} {bodies : List Bytes} {arrived : Bytes} {ended : Bool} {a : Annals} {e : Entry} {r : Response}
  {happenings : List Happening}

/-! ### All that happens -/

/-- What there is when the client has connected. -/
lemma start_connect (service : Service) (transport : Transport) :
    (start service).next (.connect transport) =
      { system :=
          { service
            ready := [0]
            processes := [{ program := .connection 0 .start }]
            channels := [{ outbound := { queue := { settings := service.settings.writer }, transport } }]
            connections := [{ channel := 0, process := 0, splitter := { maximum := service.settings.maxFrameSize } }] } } :=
  rfl

/-- The client has connected. -/
lemma visit_start (service : Service) (bodies : List Bytes) (transport : Transport) :
    Visit service bodies [] false none ((start service).next (.connect transport)) := by
  rw [start_connect]
  constructor
  case tidy =>
    constructor
    case known =>
      intro p y hy
      cases p with
      | zero =>
        cases hy
        exact ⟨⟨rfl, rfl⟩, rfl, nofun⟩
      | succ p => cases hy
    case bounds =>
      rintro i k ⟨e, he, -⟩
      cases he
    case sole =>
      rintro i j k ⟨e, he, -⟩
      cases he
    case tended =>
      intro i x _ hx
      cases hx
    case contexts =>
      intro k y hy
      cases hy
    case lives =>
      intro i x hx
      cases hx
  case reckoned =>
    refine ⟨.refl _, List.nodup_nil, fun k => ?_, fun k r hc => absurd hc List.not_mem_nil,
      fun k r hc => absurd hc List.not_mem_nil, List.nodup_nil, fun e he => absurd he List.not_mem_nil⟩
    exact iff_of_false Bool.false_ne_true List.not_mem_nil
  case hears =>
    exact ⟨_, _, ⟨rfl, rfl, rfl, rfl, rfl, rfl, [], .start, .start service.settings bodies 0 0⟩, .inr (.inl rfl)⟩
  case served => exact fun e he => absurd he List.not_mem_nil

/-- Whatever happens leaves the server as it has to stand. -/
lemma visit_next (h : Visit service bodies arrived ended none a) {happening : Happening} (alone : happening.isPrivate = true)
    (open_ : ended = true → happening.arrival = [])
    (sends : Sends service.settings bodies (arrived ++ happening.arrival))
    (fair : ∀ e ∈ (a.next happening).steps, e.2.Delivers 0 ∧ e.2.Spares) :
    Visit service bodies (arrived ++ happening.arrival) (ended || happening.endsInbound) none (a.next happening) := by
  have rouses {s' : System} (r : a.system.Rouses s') (calm : a.system.Calm s') :
      Visit service bodies (arrived ++ []) (ended || false) none { a with system := s' } := by
    rw [List.append_nil, Bool.or_false]
    exact h.quiet (h.tidy.rouses r) r.contexts (calm.sent 0) (h.hears.rouses r)
  have reached (f : Connection → Connection) : Tidy a.Holds none none ((a.system.onConnection 0 f).wakeReader 0) := by
    have changed : Tidy a.Holds none none (a.system.onConnection 0 f) :=
      h.tidy.carry rfl rfl ⟨[], (List.append_nil _).symm, nofun⟩ fun _ => id
    exact changed.rouses (.wakeReader _ 0)
  cases happening with
  | turn p allowance more =>
    change Sends service.settings bodies (arrived ++ []) at sends
    change Visit service bodies (arrived ++ []) (ended || false) none _
    rw [List.append_nil] at sends ⊢
    rw [Bool.or_false]
    exact h.turn sends p allowance more fair
  | bringBack => exact rouses (.bringBack _) (.of_mute (.bringBack _))
  | ring now => exact rouses (.ring _ now) (.of_mute (.ring _ now))
  | wait wall => exact rouses (.of_same ⟨⟨rfl, rfl, rfl, rfl⟩, rfl⟩ rfl rfl rfl) (.of_same rfl rfl rfl)
  | transport c f => exact rouses (.onTransport _ c f) (.onTransport _ c f)
  | abandon c => exact rouses (.abandon _ c) (.abandon _ c)
  | receive n bytes =>
    obtain rfl : n = 0 := beq_iff_eq.mp alone
    change Visit service bodies (arrived ++ bytes) (ended || false) none _
    rw [Bool.or_false]
    exact h.quiet (reached _) (Quiet.receive _ 0 bytes).contexts ((Calm.receive _ 0 bytes).sent 0)
      (h.hears.receive bytes open_)
  | endInbound n =>
    obtain rfl : n = 0 := beq_iff_eq.mp alone
    change Visit service bodies (arrived ++ []) (ended || true) none _
    rw [List.append_nil, Bool.or_true]
    exact h.quiet (reached _) (Quiet.endInbound _ 0).contexts ((Calm.endInbound _ 0).sent 0) h.hears.endInbound
  | disconnect n =>
    obtain rfl : n = 0 := beq_iff_eq.mp alone
    change Visit service bodies (arrived ++ []) (ended || true) none _
    rw [List.append_nil, Bool.or_true]
    have severed : (a.system.endInbound 0).Rouses (a.system.disconnect 0) := by
      obtain ⟨y, P, listens, -⟩ := h.hears.listens
      rw [System.disconnect, listens.connections]
      exact .onChannel _ _ _
    have tidy := (reached fun y => { y with inboundEnded := true }).rouses severed
    exact h.quiet tidy (Quiet.disconnect _ 0).contexts ((Calm.disconnect _ 0).sent 0) (h.hears.endInbound.rouses severed)
  | _ => cases alone

lemma steps_next (a : Annals) (happening : Happening) : ∃ taken, (a.next happening).steps = a.steps ++ taken := by
  cases happening with
  | turn p allowance more => exact ⟨_, rfl⟩
  | _ => exact ⟨[], (List.append_nil _).symm⟩

lemma play_append (a : Annals) (happenings : List Happening) (happening : Happening) :
    a.play (happenings ++ [happening]) = (a.play happenings).next happening :=
  List.foldl_append

/-- **All that happens leaves the server as it has to stand.** -/
lemma visit_play (service : Service) (transport : Transport) (alone : ∀ h ∈ happenings, h.isPrivate = true)
    (stream : happenings.Pairwise fun h h' => h.endsInbound = true → h'.arrival = [])
    (sends : Sends service.settings bodies (happenings.flatMap Happening.arrival))
    (fair : ∀ e ∈ ((start service).play (.connect transport :: happenings)).steps, e.2.Delivers 0 ∧ e.2.Spares) :
    Visit service bodies (happenings.flatMap Happening.arrival) (happenings.any Happening.endsInbound) none
      ((start service).play (.connect transport :: happenings)) := by
  induction happenings using List.reverseRecOn with
  | nil => exact visit_start service bodies transport
  | append_singleton happenings happening ih =>
    rw [← List.cons_append, play_append] at fair ⊢
    rw [List.flatMap_append, List.flatMap_singleton] at sends ⊢
    rw [List.any_append, List.any_cons, List.any_nil, Bool.or_false]
    obtain ⟨streams, -, apart⟩ := List.pairwise_append.mp stream
    obtain ⟨taken, steps⟩ := steps_next ((start service).play (.connect transport :: happenings)) happening
    have before := ih (fun h hh => alone h (List.mem_append_left _ hh)) streams sends.of_append fun e he =>
      fair e (steps ▸ List.mem_append_left _ he)
    refine visit_next before (alone happening (List.mem_append_right _ List.mem_cons_self)) (fun ended => ?_) sends fair
    obtain ⟨h, hh, ends⟩ := List.any_eq_true.mp ended
    exact apart h hh happening List.mem_cons_self ends

/-! ### The answers -/

/-- The answer to a request is put into the queue for a context by a process of a session: the one that executes its tasks,
or the handler of the request. -/
def Concludes (a : Annals) (i : SessionId) (k : ContextId) (r : Response) : Prop :=
  ∃ x ∈ a.steps, x.2.conclusion? 0 = some (k, r) ∧ (x.2.program.attends i = true ∨ x.2.program.handles? = some k)

/-- What the answer to a message is. -/
def Fits (a : Annals) (e : Entry) (r : Response) : Prop :=
  match e.system.service.codec.decodeRequest e.body with
  | .error _ => e.account = .replied r ∧ r.request = some .nil ∧ r.status = .serializationError
  | .ok request => r.request = some request.id ∧
    match request.closes? with
    | some name => e.account = .replied r ∧
        r.status = if (e.system.table.find? name).isSome then .noContent else .serverError
    | none => e.account = .replied r ∧ r.status = .tooManyRequests ∨ ∃ i k, e.account = .accepted i k ∧ a.Concludes i k r

lemma fits_of_replied (a : Annals) (h : e.account = .replied r) : a.Fits e r := by
  have what := Entry.replied h
  rw [Fits]
  cases hd : e.system.service.codec.decodeRequest e.body with
  | error err =>
    rw [hd] at what
    obtain rfl : r = unreadable err := what
    exact ⟨h, rfl, rfl⟩
  | ok request =>
    rw [hd] at what
    dsimp only at what ⊢
    cases closes : request.closes? with
    | some name =>
      rw [closes] at what
      obtain rfl : r = closeResponse request.id name (e.system.table.find? name).isSome := what
      rw [closeResponse]
      split
      next found => exact ⟨rfl, by rw [h, closeResponse, if_pos found], by rw [if_pos found]⟩
      next missing => exact ⟨rfl, by rw [h, closeResponse, if_neg missing], by rw [if_neg missing]; rfl⟩
    | none =>
      rw [closes] at what
      obtain ⟨err, rfl⟩ := what
      exact ⟨rfl, .inl ⟨h, rfl⟩⟩

/-- The accounts of a list of bodies, in another order. -/
lemma map_answer_perm (a : Annals) (es : List Entry) : (es.map (a.answer? ·.account)).Perm
    ((es.filterMap (·.account.reply?)).map some ++ (es.filterMap (·.account.context?)).map (a.conclusions.lookup ·)) := by
  induction es with
  | nil => rfl
  | cons e es ih =>
    rw [List.map_cons, List.filterMap_cons, List.filterMap_cons]
    cases e.account with
    | replied r => exact ih.cons (some r)
    | accepted i k => exact (ih.cons (a.conclusions.lookup k)).trans List.perm_middle.symm

/-- If the contexts that are marked are those of the requests that were accepted, then the answers in the queue are those to
the bodies that were handled, one for each. -/
lemma Reckoned.perm (h : a.Reckoned) (same : ∀ k, a.system.isConcluded k = true ↔ ∃ i, a.Holds i k) :
    (a.entries.map (a.answer? ·.account)).Perm ((Sent.answers (a.system.sentOver 0)).map some) := by
  have keys : (a.entries.filterMap (·.account.context?)).Perm (a.conclusions.map (·.1)) := by
    refine (List.perm_ext_iff_of_nodup h.distinct h.once).mpr fun k => ?_
    rw [← h.marked, same, List.mem_filterMap]
    constructor
    · rintro ⟨e, he, context⟩
      cases account : e.account with
      | replied r => rw [account] at context; cases context
      | accepted i j =>
        rw [account] at context
        cases context
        exact ⟨i, e, he, account⟩
    · rintro ⟨i, e, he, account⟩
      exact ⟨e, he, by rw [account]; rfl⟩
  have values : (a.conclusions.map (·.1)).map (a.conclusions.lookup ·) = (a.conclusions.map (·.2)).map some := by
    rw [List.map_map, List.map_map]
    exact List.map_congr_left fun c hc => lookup_of_nodup h.once hc
  calc (a.entries.map (a.answer? ·.account)).Perm
        ((a.entries.filterMap (·.account.reply?)).map some ++
          (a.entries.filterMap (·.account.context?)).map (a.conclusions.lookup ·)) := map_answer_perm a a.entries
    List.Perm _ ((a.entries.filterMap (·.account.reply?)).map some ++
          (a.conclusions.map (·.1)).map (a.conclusions.lookup ·)) := (keys.map _).append_left _
    List.Perm _ ((a.entries.filterMap (·.account.reply?) ++ a.conclusions.map (·.2)).map some) := by
      rw [values, List.map_append]
    List.Perm _ ((Sent.answers (a.system.sentOver 0)).map some) := h.queued.symm.map _

/-- **Every message that a client sends is answered once.** A client connects to a server of which nobody else makes use,
and sends messages in frames, the first one behind the content type of the server. Bytes arrive in any pieces, processes
have their turns in any order and for any number of steps, and time passes in any way. Suppose that every answer which is
sent is put into the queue at once, and that no session's time is up or is killed. Whenever nobody is awake and no handler
is at work, there are as many last responses in the queue as messages were sent. The messages were handled in order,
each has one of the responses for itself, and this one fits: it tells that the message cannot be read; or it names the
request and tells whether the session was known that was to be closed, refuses the request, or was put by a process of the
one session that accepted it. -/
theorem answered_of_isAtRest (service : Service) (transport : Transport) {happenings : List Happening} {bodies : List Bytes}
    (positive : 1 ≤ service.settings.contentType.utf8ByteSize) (short : service.settings.contentType.utf8ByteSize ≤ 255)
    (alone : ∀ h ∈ happenings, h.isPrivate = true)
    (stream : happenings.Pairwise fun h h' => h.endsInbound = true → h'.arrival = [])
    (within : (Greedy.of (happenings.flatMap Happening.arrival)).Within service.settings.maxFrameSize)
    (frames : (Greedy.of (happenings.flatMap Happening.arrival)).bodies =
      HandshakeEncoder.encodeAll { contentType := service.settings.contentType } bodies) :
    let a := (start service).play (.connect transport :: happenings)
    (∀ e ∈ a.steps, e.2.Delivers 0 ∧ e.2.Spares) → a.system.IsAtRest →
      (Sent.answers (a.system.sentOver 0)).length = bodies.length ∧
      a.entries.map (·.body) = bodies ∧
      (a.entries.map (a.answer? ·.account)).Perm ((Sent.answers (a.system.sentOver 0)).map some) ∧
      (a.entries.filterMap (·.account.context?)).Nodup ∧
      ∀ e ∈ a.entries, e.system.service = service ∧ ∃ r, a.answer? e.account = some r ∧ a.Fits e r := by
  intro a fair rest
  have h : Visit service bodies (happenings.flatMap Happening.arrival) (happenings.any Happening.endsInbound) none a :=
    visit_play service transport alone stream ⟨positive, short, within, frames ▸ List.prefix_rfl⟩ fair
  have all : a.entries.map (·.body) = bodies := h.hears.complete (rest.isAwake 0) frames
  have perm := h.reckoned.perm fun k =>
    ⟨fun concluded => by
      obtain ⟨y, hy, finished⟩ := (Option.any_eq_true _ _).mp concluded
      exact (h.tidy.contexts k y hy).2 finished,
    fun ⟨i, holds⟩ => h.tidy.concluded_of_isAtRest rest holds⟩
  refine ⟨?_, all, perm, h.reckoned.distinct, fun e he => ⟨h.served e he, ?_⟩⟩
  · rw [← all, List.length_map, ← List.length_map some, ← perm.length_eq, List.length_map]
  cases account : e.account with
  | replied r => exact ⟨r, rfl, fits_of_replied a account⟩
  | accepted i k =>
    have holds : a.Holds i k := ⟨e, he, account⟩
    obtain ⟨⟨l, r⟩, hc, rfl⟩ := List.mem_map.mp ((h.reckoned.marked k).mp (h.tidy.concluded_of_isAtRest rest holds))
    obtain ⟨request, y, decoded, hy, named⟩ := h.reckoned.requested e he i l account
    obtain ⟨z, hz, names⟩ := h.reckoned.named l r hc
    obtain ⟨j, holds', by_⟩ := h.reckoned.worked l r hc
    obtain ⟨request', decoded', closes, -⟩ := Entry.accepted account
    cases decoded.symm.trans decoded'
    cases hy.symm.trans hz
    obtain rfl := h.tidy.sole i j l holds holds'
    refine ⟨r, lookup_of_nodup h.reckoned.once hc, ?_⟩
    rw [Fits, decoded]
    dsimp only
    rw [closes]
    exact ⟨names.trans (congrArg some named), .inr ⟨i, l, account, by_⟩⟩

/-- A service whose content type is one letter, and which knows no operation. -/
def oneLetter : Service where
  settings := { contentType := "g" }

/-- The body of a request without a name of its own, whose operation and arguments are given. -/
def anonymous (op arguments : Bytes) : Bytes :=
  129 :: List.replicate 16 0 ++ op ++ [0, 0, 0, 0] ++ arguments

/-- One argument, which names a session. -/
def inSession : Bytes :=
  [0, 0, 0, 1, 3, 0, 0, 0, 0, 7, 115, 101, 115, 115, 105, 111, 110, 3, 0, 0, 0, 0, 1, 97]

/-- What cannot be read, a request for an operation that nobody knows, one to close a session that nobody opened, and one
in a session. -/
def fourBodies : List Bytes :=
  [[], anonymous [0, 0, 0, 1, 120] [0, 0, 0, 0], anonymous [0, 0, 0, 5, 99, 108, 111, 115, 101] inSession,
    anonymous [0, 0, 0, 1, 120] inSession]

/-- The four bodies in frames. -/
def fourFrames : Bytes :=
  (HandshakeEncoder.encodeAll { contentType := "g" } fourBodies).flatMap fun body => Bytes.ofNat 4 body.length ++ body

/-- The frames arrive in two pieces, and everybody has turns until nobody is awake. -/
def fourArrive : List Happening :=
  [.turn 0 128 9, .receive 0 (fourFrames.take 10), .turn 0 128 9, .receive 0 (fourFrames.drop 10), .turn 0 128 9,
    .turn 1 128 9, .turn 2 128 9, .turn 3 128 9, .turn 4 128 9, .turn 5 128 9, .turn 6 128 9, .turn 2 128 9, .turn 3 128 9,
    .turn 1 128 9]

/-- The annals of the server to which the four bodies were sent. -/
def fourAnswered : Annals :=
  (start oneLetter).play (.connect {} :: fourArrive)

/-- The four bodies are answered. -/
theorem answered_of_isAtRest_fourBodies :
    (∀ e ∈ fourAnswered.steps, e.2.Delivers 0 ∧ e.2.Spares) ∧ fourAnswered.system.IsAtRest ∧
      (Sent.answers (fourAnswered.system.sentOver 0)).length = 4 ∧ fourAnswered.entries.map (·.body) = fourBodies := by
  have fair : (∀ e ∈ fourAnswered.steps, e.2.Delivers 0 ∧ e.2.Spares) ∧ fourAnswered.system.IsAtRest := by decide +kernel
  have cut : Greedy.of (fourArrive.flatMap Happening.arrival) =
      ⟨HandshakeEncoder.encodeAll { contentType := "g" } fourBodies, .length, []⟩ := by cbv
  have within : (Greedy.of (fourArrive.flatMap Happening.arrival)).Within FrameSplitter.defaultMaximum := by
    rw [cut]
    exact ⟨by decide, fun n h => by cases h⟩
  obtain ⟨number, all, -⟩ := answered_of_isAtRest oneLetter {} (by decide) (by decide) (by decide) (by decide) within
    (congrArg Greedy.bodies cut) fair.1 fair.2
  exact ⟨fair.1, fair.2, number, all⟩

end Annals

end GraphServer
