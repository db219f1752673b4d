import GraphServer.Buffer.Error
import GraphServer.Codec.Fault
import GraphServer.Message.Status
import GraphServer.Uuid

/-!
Everything that can go wrong while requests are read, routed, executed and answered.

An error is a cause. `Error.message` words it for a reader, `Error.detail` shows all its parts,
`Error.exceptions` lists its message and those of the causes beneath it, and `Error.status` is the
status under which a client hears of it.
-/

namespace GraphServer

/-- A violation of the framing rules, or of the order of responses. -/
inductive ProtocolFault where
  | frameTooLarge (size maximum : Nat)
  | contentTypeLength (length : Nat)
  | emptyHandshake
  | zeroContentType
  | truncatedContentType (announced present : Nat)
  | contentTypeNotUtf8
  | unsupportedContentType (contentType : String)
  | alreadyAnswered (request : Uuid)
  | other (text : String)
  deriving DecidableEq, Repr

/-- The wording of a violation. -/
def ProtocolFault.message : ProtocolFault → String
  | frameTooLarge size maximum => s!"Frame size {size} exceeds maximum {maximum}"
  | contentTypeLength length => s!"content type length {length} is outside 1..=255"
  | emptyHandshake => "empty handshake frame"
  | zeroContentType => "content type length must not be zero"
  | truncatedContentType announced present =>
    s!"content type of {announced} bytes truncated at {present}"
  | contentTypeNotUtf8 => "content type is not valid UTF-8"
  | unsupportedContentType contentType => s!"unsupported content type '{contentType}'"
  | alreadyAnswered request => s!"request {request.text} already has a terminal response"
  | other text => text

/-- Why a session does not take a task. -/
inductive Rejection where
  | boundElsewhere (session : String)
  | tooManySessions (maximum : Nat)
  | queueFull (session : String) (queued : Nat)
  | notAccepting (session : String)
  | other (text : String)
  deriving DecidableEq, Repr

/-- The wording of a rejection. -/
def Rejection.message : Rejection → String
  | boundElsewhere session => s!"session {session} is bound to another connection"
  | tooManySessions maximum => s!"maximum of {maximum} concurrent sessions reached"
  | queueFull session queued => s!"session {session} already has {queued} queued tasks"
  | notAccepting session => s!"session {session} is not accepting tasks"
  | other text => text

/-- A place in a session that is filled at most once. -/
inductive SessionHook where
  | future | cancelFuture
  deriving DecidableEq, Repr

/-- The name of a hook in messages. -/
def SessionHook.name : SessionHook → String
  | future => "session_future"
  | cancelFuture => "session_cancel_future"

/-- Everything that can go wrong. -/
inductive Error where
  /-- The transport failed. -/
  | io (text : String)
  /-- A buffer was used beyond its bounds or its life. -/
  | buffer (cause : BufferError)
  /-- A type code names no kind. -/
  | unknownTypeCode (code : UInt8)
  /-- A kind has no serializer. -/
  | serializerNotFound (kind : Kind)
  /-- An encoding is at fault. -/
  | serialization (fault : CodecFault)
  /-- A kind that lives in containers only was read or written on its own. -/
  | containerOnly (text : String)
  /-- The framing rules or the order of responses were violated. -/
  | protocol (fault : ProtocolFault)
  /-- No handler is registered for an operation. -/
  | unknownOp (processor op : String)
  /-- A session did not take a task. -/
  | rejected (cause : Rejection)
  /-- A request or a session ran out of time. -/
  | timeout (milliseconds : Nat) (ofSession : Bool)
  /-- A handler reported a failure. -/
  | execution (text : String)
  /-- A hook of a session was set twice. -/
  | hookAlreadySet (hook : SessionHook)
  /-- The connection is closed. -/
  | connectionClosed
  /-- The queue towards the transport stayed full. -/
  | backpressureTimeout
  deriving DecidableEq, Repr

namespace Error

/-- The wording of an error. -/
def message : Error → String
  | io text => s!"I/O error: {text}"
  | buffer cause => s!"buffer error: {cause.message}"
  | unknownTypeCode code => s!"unknown type code 0x{Bytes.hexPair code}"
  | serializerNotFound kind => s!"no serializer registered for {kind.name}"
  | serialization fault => s!"serialization error: {fault.message}"
  | containerOnly text => text
  | protocol fault => s!"protocol error: {fault.message}"
  | unknownOp processor op => s!"no handler registered for op '{op}' on processor '{processor}'"
  | rejected cause => s!"task rejected: {cause.message}"
  | timeout milliseconds ofSession =>
    (if ofSession then "session" else "request") ++ s!" timed out after {milliseconds} ms"
  | execution text => s!"execution failed: {text}"
  | hookAlreadySet hook => s!"session hook '{hook.name}' already set"
  | connectionClosed => "Connection closed"
  | backpressureTimeout => "Backpressure timeout"

/-- The status under which a client hears of an error. -/
def status : Error → Status
  | buffer _ | unknownTypeCode _ | serializerNotFound _ | serialization _ | containerOnly _ =>
    .serializationError
  | rejected _ | backpressureTimeout => .tooManyRequests
  | timeout _ false => .requestTimeout
  | timeout _ true => .sessionTimeout
  | _ => .serverError

/-- The name of the kind of error. -/
def kindName : Error → String
  | io _ => "Io"
  | buffer _ => "Buffer"
  | unknownTypeCode _ => "UnknownTypeCode"
  | serializerNotFound _ => "SerializerNotFound"
  | serialization _ => "Serialization"
  | containerOnly _ => "ContainerOnly"
  | protocol _ => "Protocol"
  | unknownOp _ _ => "UnknownOp"
  | rejected _ => "Rejected"
  | timeout _ _ => "Timeout"
  | execution _ => "Execution"
  | hookAlreadySet _ => "HookAlreadySet"
  | connectionClosed => "ConnectionClosed"
  | backpressureTimeout => "BackpressureTimeout"

/-- The error in full detail. -/
def detail : Error → String
  | io text => s!"Io(Custom \x7b kind: BrokenPipe, error: {Quoted.encode text} \x7d)"
  | buffer cause => s!"Buffer({cause.detail})"
  | unknownTypeCode code => s!"UnknownTypeCode({code.toNat})"
  | serializerNotFound kind => s!"SerializerNotFound({Quoted.encode kind.name})"
  | serialization fault => s!"Serialization({Quoted.encode fault.message})"
  | containerOnly text => s!"ContainerOnly({Quoted.encode text})"
  | protocol fault => s!"Protocol({Quoted.encode fault.message})"
  | unknownOp processor op =>
    s!"UnknownOp \x7b processor: {Quoted.encode processor}, op: {Quoted.encode op} \x7d"
  | rejected cause => s!"Rejected({Quoted.encode cause.message})"
  | timeout milliseconds ofSession =>
    s!"Timeout \x7b elapsed_ms: {milliseconds}, caused_by_session: {ofSession} \x7d"
  | execution text => s!"Execution({Quoted.encode text})"
  | hookAlreadySet hook => s!"HookAlreadySet({Quoted.encode hook.name})"
  | connectionClosed => "ConnectionClosed"
  | backpressureTimeout => "BackpressureTimeout"

/-- The message of an error, then the messages of the causes beneath it, outermost first. -/
def exceptions (e : Error) : List String :=
  e.message ::
    match e with
    | io text => [text]
    | buffer cause => cause.message :: cause.causes
    | _ => []

end Error

end GraphServer
