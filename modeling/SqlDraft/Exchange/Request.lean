import SqlDraft.Json.Value

/-!
# Requests

What is sent to the service that executes statements: one statement.
-/

namespace SqlDraft

structure Request where
  query : String
  deriving DecidableEq, Repr

namespace Request

/-- The request for every row of a table.  The name goes into the statement as it is. -/
def selectAll (table : String) : Request :=
  ⟨"SELECT * FROM " ++ table⟩

def encode (r : Request) : String :=
  String.ofList (Json.objectText [("query", Json.quote r.query.toList)])

end Request

end SqlDraft
