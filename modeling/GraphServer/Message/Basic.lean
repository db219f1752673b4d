import GraphServer.Error
import GraphServer.Message.Fields

/-!
Requests and responses.

A request names an operation, the processor that offers it and its arguments. A response carries a
status and a result; several responses may belong to one request, and the one of them whose status is
final is the last.
-/

namespace GraphServer

/-! ### Requests -/

/-- A request. The empty processor is the default one. -/
structure Request where
  id : Uuid
  op : String
  processor : String
  args : Fields

namespace Request

/-- The operation that closes the session named by the session argument. -/
def closeOp : String := "close"

/-- The argument that names a session. -/
def sessionArg : String := "session"

/-- The argument that sets a time limit in milliseconds. -/
def timeoutArg : String := "evaluationTimeout"

/-- The operation of the request that stands for one that could not be read. -/
def invalidOp : String := "invalid"

/-- The request that stands for one that could not be read. -/
def invalid : Request := ⟨.nil, invalidOp, "", .empty⟩

/-- Whether this request stands for one that could not be read. -/
def isInvalid (r : Request) : Bool :=
  r.id == .nil && r.op == invalidOp

/-- An argument. -/
def arg? (r : Request) (key : String) : Option Value :=
  r.args.get? key

/-- An argument that is a text. -/
def text? (r : Request) (key : String) : Option String :=
  (r.arg? key).bind Value.string?

/-- An argument that is an integral number. -/
def integer? (r : Request) (key : String) : Option Int64 :=
  (r.arg? key).bind Value.integer?

/-- The session that the request names, by a text or an identifier. -/
def session? (r : Request) : Option String :=
  match r.arg? sessionArg with
  | some (.string s) => some s
  | some (.uuid id) => some id.text
  | _ => none

end Request

/-! ### Responses -/

/-- A response. It has no request only when the request could not be identified. -/
structure Response where
  request : Option Uuid
  status : Status
  message : Option String := none
  attributes : Fields := .empty
  data : Value := .null
  metadata : Fields := .empty

namespace Response

/-- Whether this is the last response to its request. -/
def isFinal (r : Response) : Bool :=
  r.status.isFinal

/-- A response with a status and a message. -/
def ofMessage (request : Option Uuid) (status : Status) (message : String) : Response :=
  { request, status, message := some message }

end Response

end GraphServer
