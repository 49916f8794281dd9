import SqlDraft.Exchange.Response

/-!
# Outcomes

What an answer means to the learner: rows, success without rows, or failure.  Success without rows
is never shown as a failure.
-/

namespace SqlDraft

inductive ExchangeError
  | transport (reason : String)
  | decode (fault : Json.Fault)
  deriving DecidableEq, Repr

def Json.Fault.description : Json.Fault → String
  | ended => "the text ends inside a value"
  | malformed => "the text is no JSON"
  | mismatched => "the value is no response"

namespace ExchangeError

def message : ExchangeError → String
  | transport reason => "Request failed: " ++ reason
  | decode fault => "Malformed response: " ++ fault.description

end ExchangeError

abbrev Answer := Except ExchangeError Response

namespace Answer

def ofJson (json : String) : Answer :=
  (Response.decode json).mapError .decode

def failed (reason : String) : Answer :=
  .error (.transport reason)

end Answer

inductive Outcome
  | rows (columns : List String) (rows : List (List String))
  | noData (message : String)
  | failed (message : String)
  deriving DecidableEq, Repr

namespace Outcome

/-- The message of a success without rows that comes without one. -/
def successMessage : String := "Command executed successfully!"

def failureMessage : String := "Query failed"

def ofAnswer (answer : Answer) : Outcome :=
  match answer with
  | .error e => failed e.message
  | .ok r =>
    match r.status with
    | .error => failed (r.message.getD failureMessage)
    | .success =>
      if r.data.isEmpty then noData (r.message.getD successMessage) else rows r.columns r.data

def isFailure : Outcome → Bool
  | failed _ => true
  | _ => false

def summary : Outcome → String
  | rows _ rs => rs.length.repr ++ " row(s) returned"
  | noData message => message
  | failed message => message

end Outcome

end SqlDraft
