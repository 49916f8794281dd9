import SqlDraft.Reading.Definition

/-!
# Schemas

What is known of a table: its columns, and whether they come from the catalogue of tables that
every learner's database starts with or from a definition in a draft.
-/

namespace SqlDraft

inductive Origin
  | catalogue
  | definition
  deriving DecidableEq, Repr

structure Schema where
  table : String
  columns : List Column
  origin : Origin
  deriving DecidableEq, Repr

namespace Schema

/-- Whether a schema is that of the named table, in letters of any case. -/
def describes (s : Schema) (table : String) : Bool :=
  sameName s.table table

def ofDefinition (d : Definition) : Schema :=
  ⟨d.table, d.columns, .definition⟩

end Schema

/-- The tables that are known without a definition. -/
def catalogue : List Schema :=
  [⟨"students",
    [⟨"id", .number⟩, ⟨"name", .text⟩, ⟨"age", .number⟩, ⟨"score", .number⟩], .catalogue⟩,
   ⟨"courses", [⟨"id", .number⟩, ⟨"title", .text⟩, ⟨"credits", .number⟩], .catalogue⟩,
   ⟨"enrollments",
    [⟨"student_id", .number⟩, ⟨"course_id", .number⟩, ⟨"grade", .text⟩], .catalogue⟩]

def catalogueNames : List String :=
  catalogue.map Schema.table

def catalogueSchema? (table : String) : Option Schema :=
  catalogue.find? fun s => s.describes table

theorem mem_catalogue_of_catalogueSchema? {table : String} {s : Schema}
    (h : catalogueSchema? table = some s) : s ∈ catalogue :=
  List.mem_of_find?_eq_some h

theorem origin_of_mem_catalogue {s : Schema} (h : s ∈ catalogue) : s.origin = .catalogue := by
  have hall : ∀ s ∈ catalogue, s.origin = .catalogue := by decide
  exact hall s h

end SqlDraft
