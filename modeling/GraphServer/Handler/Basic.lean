import GraphServer.Message.Report

/-!
Handlers: programs that answer requests.

A handler is an interaction. It makes calls, which send responses to its request and whose outcomes
decide how it goes on, it sleeps, and at last it returns. What a call sends is a function of the call and
the request alone; whether the call is allowed depends on the calls before it.
-/

namespace GraphServer

/-- What a handler does for its request. -/
inductive Call where
  /-- Sends a part of the result. -/
  | stream (data : Value)
  /-- Sends the last part of the result, if there is one. -/
  | complete (data : Value)
  /-- Gives up under a status. -/
  | fail (status : Status) (message : String)
  /-- Gives up with an error. -/
  | failWith (error : Error)

namespace Call

/-- Whether a call ends the request, so that no call may follow it. -/
def isTerminal : Call → Bool
  | stream _ => false
  | _ => true

/-- The response that a call sends. -/
def response (request : Uuid) : Call → Response
  | stream data => { request, status := .partialContent, data }
  | complete .null => { request, status := .noContent }
  | complete data => { request, status := .success, data }
  | fail status message => .ofMessage request status message
  | failWith error => .ofError request error

end Call

/-- A program that answers a request. -/
inductive Handler where
  /-- It returns. -/
  | return (result : Except Error Unit)
  /-- It makes a call and goes on as the outcome of the call says. -/
  | call (c : Call) (next : Except Error Unit → Handler)
  /-- It sleeps for some milliseconds and goes on. -/
  | sleep (milliseconds : Nat) (next : Handler)

namespace Handler

/-- Makes a call and goes on if it succeeds; otherwise returns its error. -/
def andThen (c : Call) (next : Handler) : Handler :=
  .call c fun
    | .ok () => next
    | .error e => .return (.error e)

/-- Makes one call and returns its outcome. -/
def once (c : Call) : Handler :=
  .call c .return

end Handler

end GraphServer
