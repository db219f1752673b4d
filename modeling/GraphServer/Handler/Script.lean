import GraphServer.Handler.Basic

/-!
Handlers that requests bring with them.

The script of a request is a list of commands, each a list of its name and its arguments. They are run
in order; the first call that fails ends the script with its error, a command that makes no sense ends
it with an error of its own, and so does a command that asks for an error. A request without a script
does nothing.
-/

namespace GraphServer.Script

/-- The argument that holds the script of a request. -/
def scriptArg : String := "script"

/-- How a script ends at a command that makes no sense. -/
def malformed : Handler :=
  .return (.error (.execution "bad script"))

/-- Ends a script with an error. -/
def raise (e : Error) : Handler :=
  .return (.error e)

/-- The status whose code is in the low 32 bits of a number. -/
def status? (n : Int64) : Option Status :=
  Status.ofCode? n.toInt32

/-- What a command does before the rest of its script; arguments that it does not need are ignored. -/
def command (request : Request) (rest : Handler) : List Value → Handler
  | .string "sleep" :: n :: _ =>
    match n.integer? with
    | some ms => .sleep ms.toUInt64.toNat rest
    | none => malformed
  | .string "partial" :: data :: _ => .andThen (.stream data) rest
  | .string "complete" :: data :: _ => .andThen (.complete data) rest
  | .string "fail" :: code :: .string text :: _ =>
    match code.integer?.bind status? with
    | some status => .andThen (.fail status text) rest
    | none => malformed
  | .string "echo" :: .string key :: _ => .andThen (.complete ((request.arg? key).getD .null)) rest
  | .string "duration" :: seconds :: _ =>
    match seconds.integer? with
    | some n => .andThen (.complete (.duration n 0)) rest
    | none => malformed
  | .string "fail_error" :: .string text :: _ => .andThen (.failWith (.execution text)) rest
  | .string "error" :: .string text :: _ => raise (.execution text)
  | .string "error_rejected" :: .string text :: _ => raise (.rejected (.other text))
  | .string "error_code" :: code :: _ =>
    match code.integer? with
    | some code => raise (.unknownTypeCode code.toUInt64.toUInt8)
    | none => malformed
  | _ => malformed

/-- What the commands of a script do, one after the other. -/
def commands (request : Request) : List Value → Handler
  | [] => .return (.ok ())
  | .list words :: rest => command request (commands request rest) words
  | _ :: _ => malformed

/-- The handler that runs the script of a request. -/
def handler (request : Request) : Handler :=
  match request.arg? scriptArg with
  | some (.list script) => commands request script
  | _ => .return (.ok ())

end GraphServer.Script
