import Storefront.Failure
import Storefront.Service.Log

/-!
# Responses

A response has a status and a body, and leaves an entry in the request log.

* `Outcome`: how a request ends
* `Response`, `Response.ofOutcome`: what is answered
* `LogEntry`: what is logged
-/

namespace Storefront

/-- How a request ends. -/
inductive Outcome where
  /-- It is answered. -/
  | answered (body : Value)
  /-- Its parameters or its body are refused. -/
  | refused (faults : List FieldFault)
  /-- It is turned away with a status and the reason. -/
  | rejected (status : Int) (reason : String)
  /-- It fails. -/
  | failed (f : Failure)

/-- The body of a response. -/
inductive Body where
  | value (v : Value)
  | refusals (faults : List FieldFault)
  | report (r : Report)
  | text (s : String)

/-- An entry in the request log. A request that fails in a way that the service does not answer for
has no status; then the kind of the failure is logged. -/
structure LogEntry where
  level : Int
  message : String
  method : String
  path : String
  result : Except String Int

namespace LogEntry

/-- The entry of a request that is answered with a status. -/
def ofStatus (method path : String) (status : Int) : LogEntry where
  level := if 500 ≤ status then Level.warning else Level.info
  message := method ++ " " ++ path ++ " -> " ++ intText status
  method
  path
  result := .ok status

/-- The entry of a request that fails in a way that the service does not answer for. -/
def ofFailure (method path kind : String) : LogEntry where
  level := Level.error
  message := "Unhandled error while serving request"
  method
  path
  result := .error kind

end LogEntry

/-- A response: status, body, the id that the request asks to be answered by, and the log. -/
structure Response where
  status : Int
  body : Body
  requestId : Option String
  log : List LogEntry

/-- The status, the body and the log entry's result of an outcome. -/
def Outcome.answer : Outcome → Int × Body × Except String Int
  | .answered body => (200, .value body, .ok 200)
  | .refused faults => (422, .refusals faults, .ok 422)
  | .rejected status reason => (status, .value (.object [("detail", .text reason)]), .ok status)
  | .failed f =>
    match f.report? with
    | some r => (r.status, .report r, .ok r.status)
    | none => (500, .text "Internal Server Error", .error f.kind)

/-- The response to a request with an outcome. A failure that the service does not answer for leaves
the request's id unanswered. -/
def Response.ofOutcome (method path : String) (requestId : Option String) (outcome : Outcome) :
    Response :=
  let (status, body, result) := outcome.answer
  match result with
  | .ok status => ⟨status, body, requestId, [.ofStatus method path status]⟩
  | .error kind => ⟨status, body, none, [.ofFailure method path kind]⟩

end Storefront
