import GraphServer.System.Sessions

/-!
The server's end of a connection.

Bytes are read as they arrive and cut into frames; every complete frame is handled before more is read.
A request is routed to its session or answered at once. What cannot be read as a request is answered as
such, and what cannot be read as a frame ends the connection. At the end, the sessions that are bound to
the connection are killed and its channel is closed.
-/

namespace GraphServer.System

/-- The greatest number of bytes read at a time. -/
def readLimit : Nat := 64 * 1024

/-! ### Requests -/

/-- The response to a request to close a session. -/
def closeResponse (request : Uuid) (name : String) (found : Bool) : Response :=
  if found then { request, status := .noContent }
  else .ofMessage request .serverError s!"there is no session named {name}"

/-- Routes a request that arrived over a channel: the response to be sent at once, if any. -/
def route (s : System) (c : ChannelId) (request : Request) : System × Option Response :=
  match request.session? with
  | none =>
    let (s, i) := s.single c
    s.submit c i request
  | some name =>
    if request.op = Request.closeOp then
      let (s, found) := s.closeSession name
      (s, some (closeResponse request.id name found))
    else
      match s.getOrCreate name c with
      | (s, .ok i) => s.submit c i request
      | (s, .error e) => (s, some (refusal request.id e))

/-- The response to a request that cannot be read. -/
def unreadable (e : Error) : Response :=
  .ofMessage (some Request.invalid.id) .serializationError s!"Error during deserialization: {e.message}"

/-- Takes a frame apart; an announced content type has to be that of the server. -/
def openEnvelope (settings : ServerSettings) (d : HandshakeDecoder) (frame : Bytes) :
    Except Error Bytes × HandshakeDecoder :=
  match d.decode frame with
  | (.error e, d) => (.error e, d)
  | (.ok envelope, d) =>
    match envelope.contentType with
    | some contentType =>
      if contentType = settings.contentType then (.ok envelope.body, d)
      else (.error (.protocol (.unsupportedContentType contentType)), d)
    | none => (.ok envelope.body, d)

/-! ### The connection -/

/-- The point after a reply, which only too many frames on their way may have stopped. -/
def afterReply (frames : List Bytes) (result : Except Error Unit) : ConnectionPoint :=
  match result with
  | .ok () | .error .backpressureTimeout => .handling frames
  | .error e => .ending (.error e)

/-- Reads what arrived. -/
def read (s : System) (i : ConnectionId) (x : Connection) : System × Turn ConnectionPoint :=
  match if x.inbound.isEmpty && !x.inboundEnded then none else s.spend? with
  | none => (s, .wait .reading)
  | some s =>
    if x.inbound.isEmpty then (s, .go (.ending (.ok ())))
    else
      let (frames, splitter) := x.splitter.push (x.inbound.take readLimit)
      let s := s.onConnection i fun x => { x with splitter, inbound := x.inbound.drop readLimit }
      match frames with
      | .ok frames => (s, .go (.handling frames))
      | .error e => (s, .go (.ending (.error e)))

/-- Handles a frame. -/
def handle (s : System) (p : ProcessId) (i : ConnectionId) (x : Connection) (frame : Bytes)
    (rest : List Bytes) : System × Turn ConnectionPoint :=
  let (body, handshake) := openEnvelope s.service.settings x.handshake frame
  let s := s.onConnection i fun x => { x with handshake }
  let excuse (e : Error) (next : ConnectionPoint) :=
    Transit.turn (s.sendResponse p x.channel (unreadable e)) (fun _ => next) (.excusing · next)
  match body with
  | .error e => excuse e (.ending (.error e))
  | .ok body =>
    match s.service.codec.decodeRequest body with
    | .error e => excuse e (.handling rest)
    | .ok request =>
      match s.route x.channel request with
      | (s, none) => (s, .go (.handling rest))
      | (s, some r) =>
        Transit.turn (s.sendResponse p x.channel r) (afterReply rest) (.replying · rest)

/-- A step of the server's end of a connection. -/
def stepConnection (s : System) (p : ProcessId) (i : ConnectionId) (point : ConnectionPoint) :
    System × Turn ConnectionPoint :=
  match s.connections[i]? with
  | none => (s, .done (.ok ()))
  | some x =>
    match point with
    | .start => (s.spawnWriter x.channel, .go .reading)
    | .reading => s.read i x
    | .handling [] => (s, .go .reading)
    | .handling (frame :: rest) => s.handle p i x frame rest
    | .replying h rest => Transit.turn (s.resume p h) (afterReply rest) (.replying · rest)
    | .excusing h next => Transit.turn (s.resume p h) (fun _ => next) (.excusing · next)
    | .ending result =>
      match (s.closeBoundTo x.channel).closeChannel p x.channel with
      | (s, .done r) => (s, .done (do let _ ← Delivery.close.outcome r; result))
      | (s, .waiting h) => (s, .wait (.closing h result))
    | .closing h result =>
      match s.resume p h with
      | (s, .done r) => (s, .done (do let _ ← Delivery.close.outcome r; result))
      | (s, .waiting h) => (s, .wait (.closing h result))

/-! ### The client's end -/

/-- Connects a client over a transport. -/
def connect (s : System) (transport : Transport) : System × ConnectionId :=
  let (s, channel) := s.addChannel transport
  let i := s.connections.length
  let (s, process) := s.spawn (.connection i .start)
  let splitter : FrameSplitter := { maximum := s.service.settings.maxFrameSize }
  ({ s with connections := s.connections ++ [{ channel, process, splitter }] }, i)

/-- Wakes the server's end of a connection if it waits for bytes. -/
def wakeReader (s : System) (i : ConnectionId) : System :=
  match s.connections[i]? with
  | some x => s.wakeIf x.process (·.isReading)
  | none => s

/-- Bytes arrive from a client. -/
def receive (s : System) (i : ConnectionId) (bytes : Bytes) : System :=
  (s.onConnection i fun x => { x with inbound := x.inbound ++ bytes }).wakeReader i

/-- No more bytes will arrive from a client. -/
def endInbound (s : System) (i : ConnectionId) : System :=
  (s.onConnection i fun x => { x with inboundEnded := true }).wakeReader i

/-- A client goes away. -/
def disconnect (s : System) (i : ConnectionId) : System :=
  match s.connections[i]? with
  | none => s
  | some x =>
    (s.endInbound i).onChannel x.channel fun c =>
      { c with outbound := { c.outbound with transport := c.outbound.transport.sever } }

/-- Whether the server holds its end of a connection: it serves it or its writer runs. -/
def isServed (s : System) (i : ConnectionId) : Bool :=
  match s.connections[i]? with
  | none => false
  | some x =>
    (s.result? x.process).isNone || (s.channels[x.channel]?.bind (·.outbound.result?)).isNone

end GraphServer.System
