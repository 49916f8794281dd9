import SqlDraft.Layout.Report
import SqlDraft.Session.Basic

/-!
# Editor

What an editor shows of a session, all of it text in the standard layout, and what it hands back:
the texts that answered its requests, or the reasons why they failed.
-/

namespace SqlDraft.Editor

def previewText (s : Session) : String :=
  Report.preview .standard s.preview

def roadmapText (s : Session) : String :=
  Report.checklist s.roadmap s.progress

/-- Takes the text that answered a ticket, and tells whether it was wanted. -/
def deliver (s : Session) (ticket : Ticket) (json : String) : Bool × Session :=
  s.deliver ticket (.ofJson json)

def fail (s : Session) (ticket : Ticket) (reason : String) : Bool × Session :=
  s.deliver ticket (.failed reason)

def nextQuery? (run : Run) : Option String :=
  run.next?.map Request.query

def accept (run : Run) (json : String) : Run :=
  run.accept (.ofJson json)

def failRun (run : Run) (reason : String) : Run :=
  run.accept (.failed reason)

def finish (s : Session) (run : Run) : String × Session :=
  let (submission, s) := s.endRun run
  (Report.outcome .standard submission.outcome, s)

end SqlDraft.Editor
