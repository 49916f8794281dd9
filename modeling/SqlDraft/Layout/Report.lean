import SqlDraft.Exchange.Outcome
import SqlDraft.Layout.Grid
import SqlDraft.Preview
import SqlDraft.Roadmap.Basic

/-!
# Reports

Previews, outcomes and roadmaps as plain text.
-/

namespace SqlDraft

structure ReportOptions where
  /-- What is shown for a column that a row has no value for. -/
  placeholder : String
  fetchedMarker : String
  draftMarker : String
  /-- The widest that a cell may be, or zero. -/
  maxCellWidth : Nat
  deriving DecidableEq, Repr

namespace ReportOptions

def standard : ReportOptions :=
  { placeholder := "…", fetchedMarker := "~", draftMarker := "+", maxCellWidth := 24 }

end ReportOptions

namespace Report

def originText : Origin → String
  | .definition => "from draft"
  | .catalogue => "known table"

/-- A header line: nothing in the column of the markers, then a text for each column. -/
def headerLine (cells : List String) : GridLine :=
  [' '] :: cells.map String.toList

def rowLine (options : ReportOptions) (row : Row) : GridLine :=
  let marker :=
    match row.origin with
    | .existing => options.fetchedMarker
    | .draft => options.draftMarker
  marker.toList :: row.cells.map fun cell => (cell.getD options.placeholder).toList

def previewLines (options : ReportOptions) (schema : Schema) (rows : List Row) : List GridLine :=
  headerLine (schema.columns.map Column.name) ::
    headerLine (schema.columns.map fun column => column.type.label) ::
    rows.map (rowLine options)

def preview (options : ReportOptions) (p : Preview) : String :=
  match p.schema with
  | none => "(no structural preview)\n"
  | some schema =>
    let title := schema.table ++ " (" ++ originText schema.origin ++ ")\n"
    if schema.columns.isEmpty then title ++ "(no columns yet)\n"
    else
      title ++ String.ofList
        (Grid.text options.maxCellWidth 2 (previewLines options schema p.rows))

def outcome (options : ReportOptions) : Outcome → String
  | .rows columns rows =>
    String.ofList (Grid.text options.maxCellWidth 1
      ((columns :: rows).map fun line => line.map String.toList))
  | .noData message => "(no data) " ++ message ++ "\n"
  | .failed message => "error: " ++ message ++ "\n"

def stepLine (isComplete : Bool) (step : Step) : String :=
  (if isComplete then "[x] " else "[ ] ") ++ step.description ++ "\n"

/-- A roadmap as a checklist.  Steps beyond the given progress are open. -/
def checklist (roadmap : Roadmap) (progress : List Bool) : String :=
  if roadmap.isEmpty then "(no suggestions for this question)\n"
  else
    String.join (roadmap.steps.mapIdx fun i step => stepLine (progress[i]?.getD false) step)

end Report

end SqlDraft
