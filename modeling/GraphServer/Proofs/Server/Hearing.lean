import GraphServer.Proofs.Frame.Exchange
import GraphServer.Proofs.Server.Reckoning

/-!
What the server's end of a connection has heard of the messages that a client sends.

* `Progress`: how far the bytes that arrived were read, cut into frames and handled; what is left of the messages is
  what is left of the stream;
* `Progress.read`, `Progress.handle`: reading and handling go on with it;
* `System.Hears`: where the process of the only connection stands. It has its turn, is awake or waits for bytes.
-/

namespace GraphServer

open GraphServer.System

/-! ### The stream -/

/-- A decoder has read what an encoder has written so far. -/
def HandshakeDecoder.Follows (d : HandshakeDecoder) (e : HandshakeEncoder) : Prop :=
  d.contentType = if e.sent then some e.contentType else none

/-- The next frame of an encoder is taken apart into what was put into it. -/
lemma HandshakeDecoder.Follows.opens {settings : ServerSettings} {d : HandshakeDecoder} {e : HandshakeEncoder}
    (h : d.Follows e) (same : e.contentType = settings.contentType) (positive : 1 ≤ settings.contentType.utf8ByteSize)
    (short : settings.contentType.utf8ByteSize ≤ maxContentType) (body : Bytes) :
    ∃ d' : HandshakeDecoder, openEnvelope settings d (e.encode body).1 = (.ok body, d') ∧ d'.Follows (e.encode body).2 := by
  obtain ⟨contentType, sent⟩ := e
  obtain ⟨known⟩ := d
  obtain rfl : contentType = settings.contentType := same
  cases sent with
  | true =>
    obtain rfl : known = some settings.contentType := h
    exact ⟨⟨some settings.contentType⟩, rfl, rfl⟩
  | false =>
    obtain rfl : known = none := h
    refine ⟨⟨some settings.contentType⟩, ?_, rfl⟩
    have encoded : (HandshakeEncoder.encode ⟨settings.contentType, false⟩ body).1 =
        UInt8.ofNat (Utf8.encode settings.contentType).length :: Utf8.encode settings.contentType ++ body := rfl
    rw [encoded, openEnvelope, HandshakeDecoder.decode, if_neg (by decide),
      HandshakeDecoder.open_announced positive short]
    dsimp only
    rw [if_pos rfl]

/-- The bytes that arrived are the beginning of messages in frames, of which none is too long, the first one behind the
content type of the server. -/
structure Sends (settings : ServerSettings) (bodies : List Bytes) (arrived : Bytes) : Prop where
  positive : 1 ≤ settings.contentType.utf8ByteSize
  short : settings.contentType.utf8ByteSize ≤ maxContentType
  within : (Greedy.of arrived).Within settings.maxFrameSize
  frames : (Greedy.of arrived).bodies <+: HandshakeEncoder.encodeAll { contentType := settings.contentType } bodies

lemma Sends.of_append {settings : ServerSettings} {bodies : List Bytes} {first second : Bytes}
    (h : Sends settings bodies (first ++ second)) : Sends settings bodies first where
  positive := h.positive
  short := h.short
  within := h.within.of_append
  frames := by
    have frames := h.frames
    rw [Greedy.of_append] at frames
    exact (List.prefix_append _ _).trans frames

/-- How far the server has come with the messages of a client: which bytes it has read, which frames it has cut off
them, and which messages it has handled. -/
structure Progress (settings : ServerSettings) (bodies : List Bytes) (arrived : Bytes) (handled : List Bytes)
    (y : Connection) (pending : List Bytes) : Prop where
  stands : ∃ consumed done rest, ∃ e : HandshakeEncoder, arrived = consumed ++ y.inbound ∧
    y.splitter = .behind settings.maxFrameSize (Greedy.of consumed) ∧ (Greedy.of consumed).bodies = done ++ pending ∧
    bodies = handled ++ rest ∧
    HandshakeEncoder.encodeAll { contentType := settings.contentType } bodies = done ++ e.encodeAll rest ∧
    e.contentType = settings.contentType ∧ y.handshake.Follows e

namespace Progress

variable {settings : ServerSettings} {bodies handled pending : List Bytes} {arrived : Bytes} {y : Connection} {frame : Bytes}

lemma start (settings : ServerSettings) (bodies : List Bytes) (c : ChannelId) (p : ProcessId) :
    Progress settings bodies [] [] { channel := c, process := p, splitter := { maximum := settings.maxFrameSize } } [] := by
  refine ⟨[], [], bodies, { contentType := settings.contentType }, rfl, ?_, ?_, rfl, rfl, rfl, rfl⟩ <;>
    rw [Greedy.of_nil] <;> rfl

lemma arrive (h : Progress settings bodies arrived handled y pending) (bytes : Bytes) :
    Progress settings bodies (arrived ++ bytes) handled { y with inbound := y.inbound ++ bytes } pending := by
  obtain ⟨consumed, done, rest, e, hbytes, facts⟩ := h.stands
  exact ⟨consumed, done, rest, e, by rw [hbytes, List.append_assoc], facts⟩

/-- Reading goes on. -/
lemma read (h : Progress settings bodies arrived handled y []) (within : (Greedy.of arrived).Within settings.maxFrameSize)
    (limit : Nat) : ∃ frames splitter, y.splitter.push (y.inbound.take limit) = (.ok frames, splitter) ∧
      Progress settings bodies arrived handled { y with splitter, inbound := y.inbound.drop limit } frames := by
  obtain ⟨consumed, done, rest, e, hbytes, hsplitter, hdone, facts⟩ := h.stands
  have whole : arrived = consumed ++ y.inbound.take limit ++ y.inbound.drop limit := by
    rw [hbytes, List.append_assoc, List.take_append_drop]
  rw [whole] at within
  obtain ⟨frames, hpush, hframes⟩ := FrameSplitter.push_behind consumed (y.inbound.take limit) within.of_append
  refine ⟨frames, _, hsplitter ▸ hpush, consumed ++ y.inbound.take limit, done, rest, e, whole, rfl, ?_, facts⟩
  rw [hframes, hdone, List.append_nil]

/-- The next message is handled. -/
lemma handle (h : Progress settings bodies arrived handled y (frame :: pending)) (sends : Sends settings bodies arrived) :
    ∃ body handshake, openEnvelope settings y.handshake frame = (.ok body, handshake) ∧
      Progress settings bodies arrived (handled ++ [body]) { y with handshake } pending := by
  obtain ⟨consumed, done, rest, e, hbytes, hsplitter, hdone, hbodies, hframes, same, follows⟩ := h.stands
  have next : frame :: pending <+: e.encodeAll rest := by
    have sent := sends.frames
    rw [hframes, hbytes, Greedy.of_append, Greedy.prepend, hdone, List.append_assoc, List.prefix_append_right_inj] at sent
    exact (List.prefix_append _ _).trans sent
  cases rest with
  | nil => cases List.prefix_nil.mp next
  | cons body rest =>
    obtain ⟨rfl, -⟩ := List.cons_prefix_cons.mp next
    obtain ⟨handshake, opened, follows⟩ := follows.opens same sends.positive sends.short body
    refine ⟨body, handshake, opened, consumed, done ++ [(e.encode body).1], rest, (e.encode body).2, hbytes, hsplitter,
      ?_, ?_, ?_, ?_, follows⟩
    · rw [hdone, List.append_cons]
    · rw [hbodies, List.append_cons]
    · rw [hframes, HandshakeEncoder.encodeAll, List.append_cons]
    · rw [← same, HandshakeEncoder.encode]
      split <;> rfl

/-- When all that arrived was read and handled, all messages were. -/
lemma complete (h : Progress settings bodies arrived handled y []) (read : y.inbound = [])
    (sent : (Greedy.of arrived).bodies = HandshakeEncoder.encodeAll { contentType := settings.contentType } bodies) :
    handled = bodies := by
  obtain ⟨consumed, done, rest, e, hbytes, -, hdone, hbodies, hframes, -⟩ := h.stands
  rw [hbytes, read, List.append_nil, hdone, List.append_nil, hframes, List.self_eq_append_right] at sent
  cases rest with
  | nil => rw [hbodies, List.append_nil]
  | cons body rest => cases sent

end Progress

/-! ### The process of the connection -/

namespace System

variable {service : Service} {bodies handled : List Bytes} {arrived : Bytes} {ended : Bool} {s s' s'' : System}
  {y y' : Connection} {P N : Program} {turning turning' : Option ProcessId} {pending : List Bytes}

/-- Where the process of the connection stands, and which frames are before it: it ends when no more bytes can arrive and
all were read. -/
inductive Stands (y : Connection) : Program → List Bytes → Prop
  | start : Stands y (.connection 0 .start) []
  | reading : Stands y (.connection 0 .reading) []
  | handling (frames : List Bytes) : Stands y (.connection 0 (.handling frames)) frames
  | ending (read : y.inbound = []) (closed : y.inboundEnded = true) : Stands y (.connection 0 (.ending (.ok ()))) []
  | finished (read : y.inbound = []) (closed : y.inboundEnded = true) (result : Option (Except Error Unit)) :
    Stands y (.finished result) []

/-- The process of the connection may sleep: it waits for bytes, or is at its end. -/
inductive MaySleep (y : Connection) : Program → Prop
  | reading (read : y.inbound = []) (closed : y.inboundEnded = false) : MaySleep y (.connection 0 .reading)
  | finished (result : Option (Except Error Unit)) : MaySleep y (.finished result)

/-- There is one connection, and its process has come so far with the messages of the client. -/
structure Listens (service : Service) (bodies : List Bytes) (arrived : Bytes) (ended : Bool) (handled : List Bytes)
    (s : System) (y : Connection) (P : Program) : Prop where
  serves : s.service = service
  connections : s.connections = [y]
  channel : y.channel = 0
  process : y.process = 0
  inboundEnded : y.inboundEnded = ended
  program : s.processes[0]? = some { program := P }
  progress : ∃ pending, Stands y P pending ∧ Progress service.settings bodies arrived handled y pending

/-- The process of the only connection does not sleep while there is something for it to do. -/
structure Hears (service : Service) (bodies : List Bytes) (arrived : Bytes) (ended : Bool) (handled : List Bytes)
    (turning : Option ProcessId) (s : System) : Prop where
  listens : ∃ y P, Listens service bodies arrived ended handled s y P ∧
    (turning = some 0 ∨ s.isAwake 0 = true ∨ MaySleep y P)

lemma Listens.congr (h : Listens service bodies arrived ended handled s y P) (same : s'.service = s.service)
    (connections : s'.connections = s.connections) (program : s'.processes[0]? = s.processes[0]?) :
    Listens service bodies arrived ended handled s' y P :=
  { h with
    serves := same.trans h.serves
    connections := connections.trans h.connections
    program := program.trans h.program }

namespace Hears

/-- What leaves the connection and its process as they are. -/
lemma carry (h : Hears service bodies arrived ended handled turning s) (same : s'.service = s.service)
    (connections : s'.connections = s.connections) (program : s'.processes[0]? = s.processes[0]?)
    (alert : turning = some 0 ∨ s.isAwake 0 = true → turning' = some 0 ∨ s'.isAwake 0 = true) :
    Hears service bodies arrived ended handled turning' s' := by
  obtain ⟨y, P, listens, alert'⟩ := h.listens
  refine ⟨y, P, listens.congr same connections program, ?_⟩
  obtain turn | awake | sleeps := alert'
  · exact (alert (.inl turn)).imp_right .inl
  · exact (alert (.inr awake)).imp_right .inl
  · exact .inr (.inr sleeps)

lemma rouses (h : Hears service bodies arrived ended handled turning s) (r : s.Rouses s') :
    Hears service bodies arrived ended handled turning s' :=
  h.carry r.service r.connections (by rw [r.processes]) (.imp_right (r.awake 0))

/-- Something reaches the connection, of which its process hears. -/
lemma reach {f : Connection → Connection} {arrived' : Bytes} {ended' : Bool}
    (h : Hears service bodies arrived ended handled turning s)
    (same : ∀ y, (f y).channel = y.channel ∧ (f y).process = y.process)
    (closed : ∀ y, y.inboundEnded = ended → (f y).inboundEnded = ended')
    (goesOn : ∀ y P pending, y.inboundEnded = ended → Stands y P pending →
      Progress service.settings bodies arrived handled y pending →
      Stands (f y) P pending ∧ Progress service.settings bodies arrived' handled (f y) pending) :
    Hears service bodies arrived' ended' handled turning ((s.onConnection 0 f).wakeReader 0) := by
  obtain ⟨y, P, listens, alert⟩ := h.listens
  obtain ⟨pending, stands, progress⟩ := listens.progress
  have connections : (s.onConnection 0 f).connections = [f y] := by
    rw [onConnection, listens.connections]
    rfl
  have program : (s.onConnection 0 f).program? 0 = some P := program?_of_getElem? listens.program
  have woken : (s.onConnection 0 f).wakeReader 0 = (s.onConnection 0 f).wakeIf 0 (·.isReading) := by
    rw [wakeReader, connections]
    dsimp only [List.getElem?_cons_zero]
    rw [(same y).2, listens.process]
  have rouses := Rouses.wakeIf (s.onConnection 0 f) 0 (·.isReading)
  rw [woken]
  refine ⟨f y, P, ⟨rouses.service.trans listens.serves, rouses.connections.trans connections,
    (same y).1.trans listens.channel, (same y).2.trans listens.process, closed y listens.inboundEnded, ?_, pending,
    goesOn y P pending listens.inboundEnded stands progress⟩, ?_⟩
  · rw [rouses.processes]
    exact listens.program
  · obtain turn | awake | sleeps := alert
    · exact .inl turn
    · exact .inr (.inl (rouses.awake 0 awake))
    · cases sleeps with
      | reading => exact .inr (.inl (isAwake_wakeIf program rfl))
      | finished result => exact .inr (.inr (.finished result))

/-- Bytes arrive. -/
lemma receive (h : Hears service bodies arrived ended handled turning s) (bytes : Bytes)
    (open_ : ended = true → bytes = []) :
    Hears service bodies (arrived ++ bytes) ended handled turning (s.receive 0 bytes) := by
  refine h.reach (fun _ => ⟨rfl, rfl⟩) (fun _ => id) fun y P pending closed stands progress => ⟨?_, progress.arrive bytes⟩
  have none_ (read : y.inbound = []) (shut : y.inboundEnded = true) : y.inbound ++ bytes = [] := by
    rw [read, open_ (closed.symm.trans shut), List.append_nil]
  cases stands with
  | start => exact .start
  | reading => exact .reading
  | handling => exact .handling _
  | ending read shut => exact .ending (none_ read shut) shut
  | finished read shut result =>
    refine .finished ?_ ?_ result
    · exact none_ read shut
    · exact shut

/-- No more bytes will arrive. -/
lemma endInbound (h : Hears service bodies arrived ended handled turning s) :
    Hears service bodies arrived true handled turning (s.endInbound 0) := by
  refine h.reach (fun _ => ⟨rfl, rfl⟩) (fun _ _ => rfl) fun y P pending closed stands progress => ⟨?_, ⟨progress.stands⟩⟩
  cases stands with
  | start => exact .start
  | reading => exact .reading
  | handling => exact .handling _
  | ending read shut => exact .ending read rfl
  | finished read shut result =>
    refine .finished ?_ ?_ result
    · exact read
    · rfl

/-- Another process does something for a session. -/
lemma deals {held : SessionId → ContextId → Prop} {i : SessionId} {p : ProcessId} {z : Process}
    (h : Hears service bodies arrived ended handled turning s) (hz : s.processes[p]? = some z)
    (unfinished : z.program.isFinished = false) (apart : ∀ n point, z.program ≠ .connection n point)
    (d : Deals held i s s') : p ≠ 0 ∧ Hears service bodies arrived ended handled turning s' := by
  obtain ⟨y, P, listens, alert⟩ := h.listens
  obtain ⟨pending, stands, -⟩ := listens.progress
  obtain ⟨idle, mine⟩ : (P.isWatch = false ∧ P.handles? = none) ∧
      (P.isFinished = true ∨ ∃ n point, P = .connection n point) := by
    cases stands with
    | finished => exact ⟨⟨rfl, rfl⟩, .inl rfl⟩
    | _ => exact ⟨⟨rfl, rfl⟩, .inr ⟨_, _, rfl⟩⟩
  constructor
  · rintro rfl
    obtain rfl := Option.some.inj (listens.program.symm.trans hz)
    obtain finished | ⟨n, point, connection⟩ := mine
    · cases unfinished.symm.trans finished
    · exact apart n point connection
  · obtain ⟨z', hz', program, cancelled⟩ := d.processes 0 _ listens.program
    refine h.carry d.service d.connections ?_ (.imp_right (d.awake 0))
    rw [hz', listens.program]
    obtain ⟨Q, stopped⟩ := z'
    obtain rfl : Q = P := program
    obtain same | watch | ⟨k, handles, -⟩ := cancelled
    · obtain rfl : stopped = false := same
      rfl
    · cases idle.1.symm.trans watch
    · cases idle.2.symm.trans handles

/-- Another process goes on, which only wakes. -/
lemma moves {p : ProcessId} (h : Hears service bodies arrived ended handled (some p) s) (other : p ≠ 0)
    (m : s.Moves p N s') (turning' : Option ProcessId) : Hears service bodies arrived ended handled turning' s' :=
  h.carry m.service m.connections (m.getElem?_of_ne (Ne.symm other)) fun alert =>
    .inr (m.awake 0 (Ne.symm other) (alert.resolve_left fun turn => other (Option.some.inj turn)))

/-- The process of the connection is given its turn. -/
lemma takesTurn (h : Hears service bodies arrived ended handled none s) (p : ProcessId) (allowance : Nat) :
    Hears service bodies arrived ended handled (some p) { s with ready := s.ready.erase p, allowance } := by
  refine h.carry rfl rfl rfl fun alert => ?_
  by_cases hp : p = 0
  · exact .inl (congrArg some hp)
  · refine .inr (isAwake_iff.mpr ((isAwake_iff.mp (alert.resolve_left nofun)).imp_left fun ready => ?_))
    exact (List.mem_erase_of_ne (Ne.symm hp)).mpr ready

/-- A turn is cut short. -/
lemma pauses {p : ProcessId} (h : Hears service bodies arrived ended handled (some p) s) :
    Hears service bodies arrived ended handled none (s.wake p) := by
  have woken := Rouses.wake s p
  refine h.carry woken.service woken.connections (by rw [woken.processes]) fun alert => .inr ?_
  obtain turn | awake := alert
  · cases turn
    exact isAwake_wake s 0
  · exact woken.awake 0 awake

/-- A process that has ended needs no turn. -/
lemma rests {p : ProcessId} (h : Hears service bodies arrived ended handled (some p) s)
    (done : ∀ z, s.processes[p]? = some z → z.program.isFinished = true) :
    Hears service bodies arrived ended handled none s := by
  obtain ⟨y, P, listens, alert⟩ := h.listens
  refine ⟨y, P, listens, .inr (alert.elim (fun turn => ?_) id)⟩
  cases turn
  have finished := done _ listens.program
  obtain ⟨pending, stands, -⟩ := listens.progress
  cases stands with
  | finished _ _ result => exact .inr (.finished result)
  | _ => cases finished

/-- When nobody is awake, all messages that arrived were handled. -/
lemma complete (h : Hears service bodies arrived ended handled none s) (asleep : s.isAwake 0 = false)
    (sent : (Greedy.of arrived).bodies =
      HandshakeEncoder.encodeAll { contentType := service.settings.contentType } bodies) : handled = bodies := by
  obtain ⟨y, P, listens, turn | awake | sleeps⟩ := h.listens
  · cases turn
  · cases asleep.symm.trans awake
  · obtain ⟨pending, stands, progress⟩ := listens.progress
    cases sleeps with
    | reading read => cases stands with | reading => exact progress.complete read sent
    | finished result => cases stands with | finished read => exact progress.complete read sent

end Hears

end System

end GraphServer
