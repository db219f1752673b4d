import GraphServer.Message.Basic

/-!
How a client hears of an error: under the status of the error, with its message, the messages of all its
causes and its full detail.
-/

namespace GraphServer.Response

/-- The attribute with the messages of an error and its causes, outermost first. -/
def exceptionsAttribute : String := "exceptions"

/-- The attribute with the full detail of an error. -/
def detailAttribute : String := "stackTrace"

/-- The response that reports an error. -/
def ofError (request : Option Uuid) (e : Error) : Response where
  request
  status := e.status
  message := some e.message
  attributes := Fields.ofList [
    (exceptionsAttribute, .list (e.exceptions.map .string)),
    (detailAttribute, .string e.detail)]

end GraphServer.Response
