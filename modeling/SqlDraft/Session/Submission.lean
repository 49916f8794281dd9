import SqlDraft.Exchange.Outcome
import SqlDraft.Exchange.Request
import SqlDraft.Preview
import SqlDraft.Reading.Reference

/-!
# Submissions

A draft is run one request at a time.  A changing statement is put between two fetches of the table
that it refers to, if it refers to one; that need not be the table that it changes.  A submission in
progress keeps what its answers have come to; which request is the next one follows from what is not
there yet.
-/

namespace SqlDraft

/-- The snapshot that the answer to a fetch gives; a failed fetch gives one without rows. -/
def Snapshot.ofAnswer (table : String) (answer : Answer) : Snapshot :=
  match answer with
  | .ok r => if r.isSuccess then ⟨table, r.data⟩ else .empty table
  | .error _ => .empty table

structure Submission where
  before : Option Snapshot
  outcome : Outcome
  after : Option Snapshot
  deriving DecidableEq, Repr

structure Run where
  /-- The statement, which is empty if there is nothing to run. -/
  query : String
  table : Option String
  before : Option Snapshot
  outcome : Option Outcome
  after : Option Snapshot
  deriving DecidableEq, Repr

namespace Run

def emptyMessage : String := "Nothing to run: the draft is empty"

def unansweredMessage : String := "The statement was not answered"

/-- A submission of a draft that has not been answered yet.  White space around the draft is no part
of the statement, and a statement that is empty has its outcome from the start. -/
def start (draft : String) : Run :=
  let query := String.ofList (trim draft.toList)
  if query = "" then ⟨query, none, none, some (.failed emptyMessage), none⟩
  else
    let ls := lexemes query
    let table := if changesData (ls.map Lexeme.token) then tableReference? ls else none
    ⟨query, table, none, none, none⟩

def next? (run : Run) : Option Request :=
  match run.table, run.outcome with
  | some table, none =>
    if run.before.isNone then some (.selectAll table) else some ⟨run.query⟩
  | none, none => some ⟨run.query⟩
  | some table, some _ => if run.after.isNone then some (.selectAll table) else none
  | none, some _ => none

def isFinished (run : Run) : Bool :=
  run.next?.isNone

/-- Takes the answer to the next request.  An answer to a finished submission is ignored. -/
def accept (run : Run) (answer : Answer) : Run :=
  match run.outcome, run.table with
  | none, some table =>
    if run.before.isNone then { run with before := some (.ofAnswer table answer) }
    else { run with outcome := some (.ofAnswer answer) }
  | none, none => { run with outcome := some (.ofAnswer answer) }
  | some _, some table =>
    if run.after.isNone then { run with after := some (.ofAnswer table answer) } else run
  | some _, none => run

def submission (run : Run) : Submission :=
  ⟨run.before, run.outcome.getD (.failed unansweredMessage), run.after⟩

/-! ## Running to the end -/

def awaited (run : Run) : Nat :=
  match run.table, run.outcome with
  | some _, none => if run.before.isNone then 3 else 2
  | none, none => 1
  | some _, some _ => if run.after.isNone then 1 else 0
  | none, some _ => 0

/-- An answer to a submission that is not finished brings it closer to its end. -/
theorem awaited_accept_lt {run : Run} {request : Request} (answer : Answer)
    (h : run.next? = some request) : (run.accept answer).awaited < run.awaited := by
  obtain ⟨query, table, before, outcome, after⟩ := run
  cases table <;> cases before <;> cases outcome <;> cases after <;>
    simp_all [next?, accept, awaited]

def complete {m : Type → Type} [Monad m] (execute : Request → m Answer) (run : Run) : m Run :=
  match _h : run.next? with
  | none => return run
  | some request => do
    let answer ← execute request
    complete execute (run.accept answer)
  termination_by run.awaited
  decreasing_by exact awaited_accept_lt answer _h

end Run

end SqlDraft
