/-!
The closed set of response statuses and their numeric codes. A request is answered by any number of
partial contents and then by one status of another code.
-/

namespace GraphServer

/-- The status of a response. -/
inductive Status where
  | success | noContent | partialContent | unauthorized | forbidden | tooManyRequests
  | requestTimeout | sessionTimeout | serverError | scriptEvaluationError | serverTimeout
  | serializationError
  deriving DecidableEq, Repr, Inhabited

namespace Status

/-- Every status, in the order of the codes. -/
def all : List Status :=
  [success, noContent, partialContent, unauthorized, forbidden, tooManyRequests, requestTimeout,
    sessionTimeout, serverError, scriptEvaluationError, serverTimeout, serializationError]

/-- The code on the wire. -/
def code : Status → Int32
  | success => 200
  | noContent => 204
  | partialContent => 206
  | unauthorized => 401
  | forbidden => 403
  | tooManyRequests => 429
  | requestTimeout => 498
  | sessionTimeout => 499
  | serverError => 500
  | scriptEvaluationError => 597
  | serverTimeout => 598
  | serializationError => 599

/-- The status with a code. -/
def ofCode? (code : Int32) : Option Status :=
  all.find? (·.code = code)

/-- The name of a status. -/
def name : Status → String
  | success => "Success"
  | noContent => "NoContent"
  | partialContent => "PartialContent"
  | unauthorized => "Unauthorized"
  | forbidden => "Forbidden"
  | tooManyRequests => "TooManyRequests"
  | requestTimeout => "RequestTimeout"
  | sessionTimeout => "SessionTimeout"
  | serverError => "ServerError"
  | scriptEvaluationError => "ScriptEvaluationError"
  | serverTimeout => "ServerTimeout"
  | serializationError => "SerializationError"

/-- The decimal digits of the code. -/
def display (s : Status) : String :=
  toString s.code.toInt

/-- Whether no further response follows for the same request. -/
def isFinal (s : Status) : Bool :=
  s != partialContent

/-- Whether the code is one of the two hundreds. -/
def isSuccess (s : Status) : Bool :=
  200 ≤ s.code ∧ s.code < 300

theorem ofCode?_code (s : Status) : ofCode? s.code = some s := by
  cases s <;> decide

theorem code_ofCode? {code : Int32} {s : Status} (h : ofCode? code = some s) : s.code = code := by
  simpa using List.find?_some h

end Status

end GraphServer
