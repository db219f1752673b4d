import GraphServer.System.Schedule

/-!
Clients: the other ends of connections.

A client announces its content type with its first request and sends every request in a frame. It reads
the responses that arrive and sees the end of the connection.
-/

namespace GraphServer

/-- The client's end of a connection. -/
structure Client where
  connection : ConnectionId
  handshake : HandshakeEncoder
  /-- Whether it sends nothing more. -/
  closed : Bool := false
  /-- Whether it had seen the end of the connection, after it went away. -/
  gone : Option Bool := none

/-- What becomes of bytes that a client sends. -/
inductive ClientReply where
  | sent
  /-- The server does not take them. -/
  | broken
  /-- The client went away. -/
  | gone
  deriving DecidableEq, Repr

/-- What a client does. -/
inductive ClientAction where
  /-- It sends bytes. -/
  | send (bytes : Bytes)
  /-- It sends a frame. -/
  | frame (body : Bytes)
  /-- It sends a request. -/
  | request (r : Request)
  /-- It will not announce its content type. -/
  | omitHandshake
  /-- It sends nothing more. -/
  | close
  /-- It goes away. -/
  | leave

namespace System

/-- The responses that arrived over a channel; the data in a frame may be nested as deep as the frame is
long. -/
def arrived (s : System) (c : ChannelId) : List (Except Error Response) :=
  let bytes := (s.channels[c]?.map (·.outbound.transport.output)).getD []
  let splitter : FrameSplitter := { maximum := FrameSplitter.defaultMaximum }
  match (splitter.push bytes).1 with
  | .ok frames => frames.map fun f => { maxDepth := f.length : MessageCodec }.decodeResponse f
  | .error e => [.error e]

/-- Whether the transport of a channel was shut down. -/
def isShut (s : System) (c : ChannelId) : Bool :=
  s.channels[c]?.any (·.outbound.transport.isShut)

/-- A client that has just connected. -/
def connectClient (s : System) : System × Client :=
  let (s, connection) := s.connect {}
  (s, { connection, handshake := { contentType := s.service.settings.contentType } })

/-- A client that has just connected in the place of another one, which goes away. -/
def replaceClient (s : System) (old : Option Client) : System × Client :=
  let (s, c) := s.connectClient
  (match old with | some old => s.disconnect old.connection | none => s, c)

/-- The channel over which a client is answered, until it goes away. -/
def channelOf? (s : System) (c : Client) : Option ChannelId :=
  if c.gone.isSome then none else s.connections[c.connection]?.map (·.channel)

/-- Whether a client has seen the end of its connection. -/
def sawEnd (s : System) (c : Client) : Bool :=
  c.gone.getD (!s.isServed c.connection || (s.channelOf? c).any s.isShut)

/-- The result of the server's end of a connection, once it has ended. -/
def served? (s : System) (c : Client) : Option (Except Error Unit) :=
  (s.connections[c.connection]?.bind fun x => s.result? x.process).join

/-- A client sends bytes. -/
def push (s : System) (c : Client) (bytes : Bytes) : System × ClientReply :=
  if c.gone.isSome then (s, .gone)
  else if c.closed || !s.isServed c.connection then (s, .broken)
  else (s.receive c.connection bytes, .sent)

/-- A client sends a frame. -/
def pushFrame (s : System) (c : Client) (body : Bytes) : System × Except Error ClientReply :=
  match OutboundFrame.make body with
  | .error e => (s, .error e)
  | .ok f => (s.push c f.bytes).map id .ok

/-- A client sends a request. -/
def pushRequest (s : System) (c : Client) (r : Request) :
    (System × Client) × Except Error ClientReply :=
  let codec : MessageCodec := {}
  match (codec.encodeRequest codec.allocator.pool r).1 with
  | .error e => ((s, c), .error e)
  | .ok body =>
    let (body, handshake) := c.handshake.encode body
    let (s, reply) := s.pushFrame c body
    ((s, { c with handshake }), reply)

/-- Does what a client does. -/
def clientAct (s : System) (c : Client) : ClientAction → (System × Client) × Except Error ClientReply
  | .send bytes => (s.push c bytes).map (·, c) .ok
  | .frame body => (s.pushFrame c body).map (·, c) id
  | .request r => s.pushRequest c r
  | .omitHandshake => ((s, { c with handshake := { c.handshake with sent := true } }), .ok .sent)
  | .close =>
    if c.gone.isSome then ((s, c), .ok .gone)
    else ((s.endInbound c.connection, { c with closed := true }), .ok .sent)
  | .leave => ((s.disconnect c.connection, { c with gone := some (s.sawEnd c) }), .ok .sent)

end System

end GraphServer
