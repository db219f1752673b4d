import GraphServer.Proofs.System.Outcomes

/-!
What a request to a server, or a step of a connection, can come to.

* `System.SubmitTaskOutcome`, `System.GetOrCreateOutcome`, `System.RouteOutcome`: a task for a session, asking for the
  session with a name, and a request that arrived over a channel;
* `System.ReadOutcome`, `System.HandleOutcome`, `System.ConnectionOutcome`: what arrived, a frame of it, and a step of the
  server's end of a connection;
* `System.stepConnection_outcome` and its kin: **each has one of these outcomes**, with what was found on the way to it.
-/

namespace GraphServer.System

variable {s : System}

/-! ### Tasks -/

/-- What submitting a task to a session comes to. -/
inductive SubmitTaskOutcome (s : System) (i : SessionId) (t : Task) : System × Except Error Bool → Prop
  | strays (unknown : s.sessions[i]? = none) : SubmitTaskOutcome s i t (s, .ok false)
  | closed {x : Session} (known : s.sessions[i]? = some x) (shut : x.accepting = false) :
    SubmitTaskOutcome s i t (s, .ok false)
  | engages {x : Session} (known : s.sessions[i]? = some x) (accepting : x.accepting = true) (lone : x.backlog = none) :
    SubmitTaskOutcome s i t
      (((s.onSession i Session.stopAccepting).spawn (.single i (.start t))).1.onSession i fun x =>
        (x.setHook .future s.processes.length).toOption.getD x, .ok true)
  | full {x : Session} {b : Backlog} (known : s.sessions[i]? = some x) (accepting : x.accepting = true)
    (many : x.backlog = some b) (full : b.limit ≤ b.tasks.length) :
    SubmitTaskOutcome s i t (s, .error (.rejected (.queueFull x.name b.tasks.length)))
  | enqueues {x x' : Session} {b : Backlog} (known : s.sessions[i]? = some x) (accepting : x.accepting = true)
    (many : x.backlog = some b) (queued : x.enqueue b t = .ok x') :
    SubmitTaskOutcome s i t ((s.onSession i fun _ => x').notify i, .ok true)

lemma submitTask_outcome (s : System) (i : SessionId) (t : Task) : s.SubmitTaskOutcome i t (s.submitTask i t) := by
  rw [submitTask]
  split
  next unknown => exact .strays unknown
  next x known =>
    split
    next accepting =>
      split
      next lone => exact .engages known accepting lone
      next b many =>
        by_cases full : b.limit ≤ b.tasks.length
        · rw [Session.enqueue_of_full full]
          exact .full known accepting many full
        · have queued := Session.enqueue_of_room (s := x) (Nat.not_le.mp full) t
          rw [queued]
          exact .enqueues known accepting many queued
    next shut => exact .closed known (Bool.eq_false_iff.mpr shut)

/-- What submitting a request to a session comes to. -/
inductive SubmitOutcome (s : System) (c : ChannelId) (i : SessionId) (request : Request) : System × Option Response → Prop
  | accepts {s' : System} (accepted : (s.makeTask request c).1.submitTask i (s.makeTask request c).2 = (s', .ok true)) :
    SubmitOutcome s c i request (s', none)
  | refuses {e : Rejection} : SubmitOutcome s c i request ((s.makeTask request c).1, some (refusal request.id (.rejected e)))

lemma submit_outcome (s : System) (c : ChannelId) (i : SessionId) (request : Request) :
    s.SubmitOutcome c i request (s.submit c i request) := by
  have outcome := (s.makeTask request c).1.submitTask_outcome i (s.makeTask request c).2
  rw [submit]
  dsimp only
  split
  next accepted => exact .accepts accepted
  next refused =>
    rw [refused] at outcome
    cases outcome <;> exact .refuses
  next refused =>
    rw [refused] at outcome
    cases outcome
    exact .refuses

/-- What submitting a request does is what submitting its task does. -/
lemma submit_fst (s : System) (c : ChannelId) (i : SessionId) (request : Request) :
    (s.submit c i request).1 = ((s.makeTask request c).1.submitTask i (s.makeTask request c).2).1 := by
  rw [submit]
  dsimp only
  split <;> next heq => rw [heq]

/-! ### Sessions -/

/-- The server with a session for many tasks opened under a name, and a watch over its lifetime if that is limited. -/
def enroll (s : System) (name : String) (c : ChannelId) (limit : Nat) : System :=
  let opened := (s.openMulti name c limit).1.armLifetime s.sessions.length
  { opened with table := opened.table.insert name s.sessions.length }

/-- What asking for the session with a name comes to. -/
inductive GetOrCreateOutcome (s : System) (name : String) (c : ChannelId) : System × Except Error SessionId → Prop
  | finds {i : SessionId} (known : s.prune.table.find? name = some i) (bound : s.prune.isBound i c = true) :
    GetOrCreateOutcome s name c (s.prune, .ok i)
  | elsewhere {i : SessionId} (known : s.prune.table.find? name = some i) (unbound : s.prune.isBound i c = false) :
    GetOrCreateOutcome s name c (s.prune, .error (.rejected (.boundElsewhere name)))
  | full (unknown : s.prune.table.find? name = none)
    (full : s.service.settings.maxConcurrentSessions ≤ s.prune.table.named.length) :
    GetOrCreateOutcome s name c (s.prune, .error (.rejected (.tooManySessions s.service.settings.maxConcurrentSessions)))
  | opens (unknown : s.prune.table.find? name = none)
    (room : s.prune.table.named.length < s.service.settings.maxConcurrentSessions) :
    GetOrCreateOutcome s name c (s.prune.enroll name c s.service.settings.maxQueuedTasks, .ok s.sessions.length)

lemma getOrCreate_outcome (s : System) (name : String) (c : ChannelId) :
    s.GetOrCreateOutcome name c (s.getOrCreate name c) := by
  rw [getOrCreate]
  dsimp only
  split
  next i known =>
    split
    next bound => exact .finds known bound
    next unbound => exact .elsewhere known (Bool.eq_false_iff.mpr unbound)
  next unknown =>
    split
    next full => exact .full unknown full
    next room => exact .opens unknown (Nat.not_le.mp room)

lemma rejected_of_getOrCreate {name : String} {c : ChannelId} {e : Error} (h : (s.getOrCreate name c).2 = .error e) :
    ∃ r, e = .rejected r := by
  have outcome := s.getOrCreate_outcome name c
  generalize s.getOrCreate name c = x at outcome h
  cases outcome with
  | finds | opens => cases h
  | elsewhere | full =>
    cases h
    exact ⟨_, rfl⟩

/-- What a request that arrived over a channel comes to. -/
inductive RouteOutcome (s : System) (c : ChannelId) (request : Request) : System × Option Response → Prop
  | lone (unnamed : request.session? = none) : RouteOutcome s c request ((s.single c).1.submit c (s.single c).2 request)
  | closes {name : String} (named : request.session? = some name) (closes : request.op = Request.closeOp) :
    RouteOutcome s c request
      ((s.closeSession name).1, some (closeResponse request.id name (s.closeSession name).2))
  | enters {name : String} {i : SessionId} (named : request.session? = some name) (works : request.op ≠ Request.closeOp)
    (got : (s.getOrCreate name c).2 = .ok i) : RouteOutcome s c request ((s.getOrCreate name c).1.submit c i request)
  | refused {name : String} {e : Rejection} (named : request.session? = some name) (works : request.op ≠ Request.closeOp)
    (got : (s.getOrCreate name c).2 = .error (.rejected e)) :
    RouteOutcome s c request ((s.getOrCreate name c).1, some (refusal request.id (.rejected e)))

lemma route_outcome (s : System) (c : ChannelId) (request : Request) : s.RouteOutcome c request (s.route c request) := by
  rw [route]
  split
  next unnamed => exact .lone unnamed
  next name named =>
    split
    next closes => exact .closes named closes
    next works =>
      split
      next s' i got =>
        have enters := RouteOutcome.enters named works (congrArg Prod.snd got)
        rwa [got] at enters
      next s' e got =>
        obtain ⟨e, rfl⟩ := rejected_of_getOrCreate (congrArg Prod.snd got)
        have refused := RouteOutcome.refused named works (congrArg Prod.snd got)
        rwa [got] at refused

/-! ### Connections -/

/-- What reading what arrived over a connection comes to. -/
inductive ReadOutcome (s : System) (n : ConnectionId) (x : Connection) : System × Turn ConnectionPoint → Prop
  | waits (rests : s.allowance = 0 ∨ x.inbound.isEmpty = true ∧ x.inboundEnded = false) :
    ReadOutcome s n x (s, .wait .reading)
  | ends {s' : System} (spent : s.spend? = some s') (empty : x.inbound.isEmpty = true) (ended : x.inboundEnded = true) :
    ReadOutcome s n x (s', .go (.ending (.ok ())))
  | cuts {s' : System} {frames : List Bytes} (spent : s.spend? = some s') (arrived : x.inbound.isEmpty = false)
    (pushed : (x.splitter.push (x.inbound.take readLimit)).1 = .ok frames) :
    ReadOutcome s n x
      (s'.onConnection n fun y =>
        { y with splitter := (x.splitter.push (x.inbound.take readLimit)).2, inbound := y.inbound.drop readLimit },
        .go (.handling frames))
  | jams {s' : System} {e : Error} (spent : s.spend? = some s') (arrived : x.inbound.isEmpty = false)
    (pushed : (x.splitter.push (x.inbound.take readLimit)).1 = .error e) :
    ReadOutcome s n x
      (s'.onConnection n fun y =>
        { y with splitter := (x.splitter.push (x.inbound.take readLimit)).2, inbound := y.inbound.drop readLimit },
        .go (.ending (.error e)))

lemma read_outcome (s : System) (n : ConnectionId) (x : Connection) : s.ReadOutcome n x (s.read n x) := by
  rw [read]
  split
  next unspent =>
    split at unspent
    next idle =>
      rw [Bool.and_eq_true_iff, Bool.not_eq_true'] at idle
      exact .waits (.inr idle)
    next => exact .waits (.inl (allowance_of_spend? unspent))
  next s' spent =>
    split at spent
    next => cases spent
    next busy =>
      split
      next empty =>
        rw [empty, Bool.true_and, Bool.not_eq_true', Bool.not_eq_false] at busy
        exact .ends spent empty busy
      next arrived =>
        rw [Bool.not_eq_true] at arrived
        dsimp only
        split
        next frames pushed => exact .cuts spent arrived pushed
        next e pushed => exact .jams spent arrived pushed

/-- The server with the content type remembered that a frame announces. -/
def shake (s : System) (n : ConnectionId) (x : Connection) (frame : Bytes) : System :=
  s.onConnection n fun y => { y with handshake := (openEnvelope s.service.settings x.handshake frame).2 }

/-- What handling a frame comes to. -/
inductive HandleOutcome (s : System) (p : ProcessId) (n : ConnectionId) (x : Connection) (frame : Bytes)
    (rest : List Bytes) : System × Turn ConnectionPoint → Prop
  | unopened {e : Error} (opened : (openEnvelope s.service.settings x.handshake frame).1 = .error e) :
    HandleOutcome s p n x frame rest
      (Transit.turn ((s.shake n x frame).sendResponse p x.channel (unreadable e)) (fun _ => .ending (.error e))
        (.excusing · (.ending (.error e))))
  | undecoded {body : Bytes} {e : Error} (opened : (openEnvelope s.service.settings x.handshake frame).1 = .ok body)
    (decoded : s.service.codec.decodeRequest body = .error e) :
    HandleOutcome s p n x frame rest
      (Transit.turn ((s.shake n x frame).sendResponse p x.channel (unreadable e)) (fun _ => .handling rest)
        (.excusing · (.handling rest)))
  | accepts {body : Bytes} {request : Request}
    (opened : (openEnvelope s.service.settings x.handshake frame).1 = .ok body)
    (decoded : s.service.codec.decodeRequest body = .ok request)
    (routed : ((s.shake n x frame).route x.channel request).2 = none) :
    HandleOutcome s p n x frame rest (((s.shake n x frame).route x.channel request).1, .go (.handling rest))
  | replies {body : Bytes} {request : Request} {r : Response}
    (opened : (openEnvelope s.service.settings x.handshake frame).1 = .ok body)
    (decoded : s.service.codec.decodeRequest body = .ok request)
    (routed : ((s.shake n x frame).route x.channel request).2 = some r) :
    HandleOutcome s p n x frame rest
      (Transit.turn (((s.shake n x frame).route x.channel request).1.sendResponse p x.channel r) (afterReply rest)
        (.replying · rest))

lemma handle_outcome (s : System) (p : ProcessId) (n : ConnectionId) (x : Connection) (frame : Bytes)
    (rest : List Bytes) : s.HandleOutcome p n x frame rest (s.handle p n x frame rest) := by
  rw [handle]
  dsimp only
  split
  next e opened => exact .unopened opened
  next body opened =>
    split
    next e decoded => exact .undecoded opened decoded
    next request decoded =>
      split
      next s' routed =>
        have routed : (s.shake n x frame).route x.channel request = (s', none) := routed
        have accepts : HandleOutcome s p n x frame rest _ := .accepts opened decoded (congrArg Prod.snd routed)
        rwa [routed] at accepts
      next s' r routed =>
        have routed : (s.shake n x frame).route x.channel request = (s', some r) := routed
        have replies : HandleOutcome s p n x frame rest _ := .replies opened decoded (congrArg Prod.snd routed)
        rwa [routed] at replies

/-- The last turn of the server's end of a connection, which has its result unless its channel cannot be closed. -/
def hangUp (x : System × Transit) (result : Except Error Unit) : System × Turn ConnectionPoint :=
  match x with
  | (s, .done r) => (s, .done (do let _ ← Delivery.close.outcome r; result))
  | (s, .waiting h) => (s, .wait (.closing h result))

lemma hangUp_fst (x : System × Transit) (result : Except Error Unit) : (hangUp x result).1 = x.1 := by
  obtain ⟨s, r | h⟩ := x <;> rfl

lemma hangUp_wait {x : System × Transit} {result : Except Error Unit} {point : ConnectionPoint}
    (h : (hangUp x result).2 = .wait point) : ∃ y result, point = .closing y result := by
  obtain ⟨s, r | y⟩ := x
  · cases h
  · cases h
    exact ⟨y, result, rfl⟩

/-- What a step of the server's end of a connection comes to. -/
inductive ConnectionOutcome (s : System) (p : ProcessId) (n : ConnectionId) :
    ConnectionPoint → System × Turn ConnectionPoint → Prop
  | strays {point : ConnectionPoint} (unknown : s.connections[n]? = none) :
    ConnectionOutcome s p n point (s, .done (.ok ()))
  | starts {x : Connection} (known : s.connections[n]? = some x) :
    ConnectionOutcome s p n .start (s.spawnWriter x.channel, .go .reading)
  | reads {x : Connection} (known : s.connections[n]? = some x) : ConnectionOutcome s p n .reading (s.read n x)
  | handled {x : Connection} (known : s.connections[n]? = some x) :
    ConnectionOutcome s p n (.handling []) (s, .go .reading)
  | handles {x : Connection} {frame : Bytes} {rest : List Bytes} (known : s.connections[n]? = some x) :
    ConnectionOutcome s p n (.handling (frame :: rest)) (s.handle p n x frame rest)
  | replies {x : Connection} {h : Handover} {rest : List Bytes} (known : s.connections[n]? = some x) :
    ConnectionOutcome s p n (.replying h rest) (Transit.turn (s.resume p h) (afterReply rest) (.replying · rest))
  | excuses {x : Connection} {h : Handover} {next : ConnectionPoint} (known : s.connections[n]? = some x) :
    ConnectionOutcome s p n (.excusing h next) (Transit.turn (s.resume p h) (fun _ => next) (.excusing · next))
  | ends {x : Connection} {result : Except Error Unit} (known : s.connections[n]? = some x) :
    ConnectionOutcome s p n (.ending result) (hangUp ((s.closeBoundTo x.channel).closeChannel p x.channel) result)
  | closes {x : Connection} {h : Handover} {result : Except Error Unit} (known : s.connections[n]? = some x) :
    ConnectionOutcome s p n (.closing h result) (hangUp (s.resume p h) result)

lemma stepConnection_outcome (s : System) (p : ProcessId) (n : ConnectionId) (point : ConnectionPoint) :
    s.ConnectionOutcome p n point (s.stepConnection p n point) := by
  rw [stepConnection.eq_def]
  split
  next unknown => exact .strays unknown
  next x known =>
    split
    next => exact .starts known
    next => exact .reads known
    next => exact .handled known
    next frame rest => exact .handles known
    next h rest => exact .replies known
    next h next => exact .excuses known
    next result => exact .ends known
    next h result => exact .closes known

end GraphServer.System
