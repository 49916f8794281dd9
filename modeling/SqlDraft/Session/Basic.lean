import SqlDraft.Roadmap.Basic
import SqlDraft.Session.Submission

/-!
# Sessions

One editing session: the draft, the question, and everything that follows from them.  The preview
is never patched; every event derives it anew.  Requests for rows carry numbers, and only the answer
to the newest one, for the table that is still shown, is taken.
-/

namespace SqlDraft

/-- A request for the rows of the table that was shown when it was made. -/
structure Ticket where
  request : UInt64
  table : String
  deriving DecidableEq, Repr

def Ticket.query (ticket : Ticket) : Request :=
  .selectAll ticket.table

structure Session where
  draft : String
  question : String
  roadmap : Roadmap
  preview : Preview
  remote : Option Snapshot
  /-- The number of the newest ticket; a submission takes a number too. -/
  issued : UInt64
  message : Option String
  deriving DecidableEq, Repr

namespace Session

def new : Session :=
  { draft := "", question := "", roadmap := .empty, preview := .empty, remote := none,
    issued := 0, message := none }

def refresh (s : Session) : Session :=
  { s with preview := .derive s.draft s.preview s.remote }

def setDraft (s : Session) (draft : String) : Session :=
  refresh { s with draft := draft }

def ask (s : Session) (question : String) : Session :=
  { s with question := question, roadmap := .forQuestion question }

def progress (s : Session) : List Bool :=
  s.roadmap.progress s.draft

/-! ## Fetching rows -/

def requestSnapshot (s : Session) : Option Ticket × Session :=
  match s.preview.table? with
  | some table =>
    let request := s.issued + 1
    (some ⟨request, table⟩, { s with issued := request })
  | none => (none, s)

def wants (s : Session) (ticket : Ticket) : Bool :=
  ticket.request == s.issued && s.preview.table?.any fun table => sameName table ticket.table

/-- Takes the answer to a ticket, and tells whether it was wanted. -/
def deliver (s : Session) (ticket : Ticket) (answer : Answer) : Bool × Session :=
  if s.wants ticket then
    (true, refresh { s with remote := some (.ofAnswer ticket.table answer) })
  else (false, s)

/-! ## Running the draft -/

def beginRun (s : Session) : Run :=
  .start s.draft

/-- Ends a run, finished or not.  Rows that were requested before it are no longer wanted, and the
rows that it fetched last are taken over whatever table is shown.  A run of nothing leaves no more
than a message. -/
def endRun (s : Session) (run : Run) : Submission × Session :=
  let submission := run.submission
  let told := { s with message := some submission.outcome.summary }
  (submission,
    if run.query = "" then told
    else refresh { told with issued := s.issued + 1, remote := run.after.or s.remote })

def submit {m : Type → Type} [Monad m] (s : Session) (execute : Request → m Answer) :
    m (Submission × Session) := do
  return s.endRun (← s.beginRun.complete execute)

end Session

end SqlDraft
