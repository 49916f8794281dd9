import SqlDraft.Reading.Effect
import SqlDraft.Reading.Rows
import SqlDraft.Schema

/-!
# Previews

The table that a draft is about, as it stands: its columns, the rows that were last fetched and
below them the rows that the draft inserts.  The columns come from a definition in the draft, else
from the catalogue, else from the preview before, as long as the draft is about the same table.
A draft that drops a table or that is about no known one has an empty preview.
-/

namespace SqlDraft

structure Snapshot where
  table : String
  rows : List (List String)
  deriving DecidableEq, Repr

namespace Snapshot

def empty (table : String) : Snapshot :=
  ⟨table, []⟩

end Snapshot

inductive RowOrigin
  | existing
  | draft
  deriving DecidableEq, Repr

/-- A row of a preview, with nothing in the columns that it has no value for. -/
structure Row where
  origin : RowOrigin
  cells : List (Option String)
  deriving DecidableEq, Repr

namespace Row

/-- Fits values to a number of columns: values beyond them are dropped, absent ones stay empty. -/
def fit (origin : RowOrigin) (values : List String) (width : Nat) : Row :=
  ⟨origin, (List.range width).map fun i => values[i]?⟩

@[simp] theorem length_cells_fit (origin : RowOrigin) (values : List String) (width : Nat) :
    (fit origin values width).cells.length = width := by
  simp [fit]

end Row

structure Preview where
  schema : Option Schema
  rows : List Row
  deriving DecidableEq, Repr

namespace Preview

def empty : Preview :=
  ⟨none, []⟩

def isEmpty (p : Preview) : Bool :=
  p.schema.isNone && p.rows.isEmpty

def table? (p : Preview) : Option String :=
  p.schema.map Schema.table

/-- The schema of a table that a draft refers to without defining it. -/
def knownSchema? (table : String) (previous : Option Schema) : Option Schema :=
  (catalogueSchema? table).or (previous.filter fun s => s.describes table)

def schemaFor? (ls : List Lexeme) (previous : Option Schema) : Option Schema :=
  match Definition.ofLexemes? ls with
  | some d => some (.ofDefinition d)
  | none => (tableReference? ls).bind fun table => knownSchema? table previous

def fetchedRows (schema : Schema) (remote : Option Snapshot) : List (List String) :=
  match remote with
  | some snapshot => if schema.describes snapshot.table then snapshot.rows else []
  | none => []

/-- The preview of a table: fetched rows first, then those of the draft. -/
def ofSchema (schema : Schema) (fetched drafted : List (List String)) : Preview :=
  let width := schema.columns.length
  ⟨some schema,
    (fetched.map fun values => Row.fit .existing values width) ++
      drafted.map fun values => Row.fit .draft values width⟩

def derive (draft : String) (previous : Preview) (remote : Option Snapshot) : Preview :=
  let ls := lexemes draft
  if dropsTable (ls.map Lexeme.token) then empty
  else
    match schemaFor? ls previous.schema with
    | none => empty
    | some schema => ofSchema schema (fetchedRows schema remote) (rowsOf ls)

end Preview

end SqlDraft
