import SqlDraft.Preview

/-!
# How a preview follows from the one before it

A preview is derived from the one before it, but all that it takes over is a schema, and the rows
that were fetched have no say in which.  `Preview.schemaAfter_schemaAfter` is the reason why
deriving it once more changes nothing; `Preview.derive_derive` says so of every preview and all
fetched rows.
-/

namespace SqlDraft.Preview

/-- The schema that a draft's lexemes leave, given the schema before. -/
def schemaAfter (ls : List Lexeme) (previous : Option Schema) : Option Schema :=
  if dropsTable (ls.map Lexeme.token) then none else schemaFor? ls previous

/-- What is shown under a schema, if there is one. -/
def show? (schema : Option Schema) (remote : Option Snapshot) (drafted : List (List String)) :
    Preview :=
  match schema with
  | some schema => ofSchema schema (fetchedRows schema remote) drafted
  | none => empty

theorem derive_eq_show? (draft : String) (previous : Preview) (remote : Option Snapshot) :
    derive draft previous remote =
      show? (schemaAfter (lexemes draft) previous.schema) remote (draftRows draft) := by
  unfold derive schemaAfter
  by_cases hdrop : dropsTable ((lexemes draft).map Lexeme.token) = true
  · rw [if_pos hdrop, if_pos hdrop]
    rfl
  · rw [if_neg hdrop, if_neg hdrop]
    cases schemaFor? (lexemes draft) previous.schema <;> rfl

@[simp] theorem schema_show? (schema : Option Schema) (remote : Option Snapshot)
    (drafted : List (List String)) : (show? schema remote drafted).schema = schema := by
  cases schema <;> rfl

theorem schema_derive (draft : String) (previous : Preview) (remote : Option Snapshot) :
    (derive draft previous remote).schema = schemaAfter (lexemes draft) previous.schema := by
  rw [derive_eq_show?, schema_show?]

/-! ## The schema is stable -/

theorem knownSchema?_knownSchema? (table : String) (previous : Option Schema) :
    knownSchema? table (knownSchema? table previous) = knownSchema? table previous := by
  unfold knownSchema?
  cases catalogueSchema? table with
  | some s => rfl
  -- No table of the catalogue: the schema before is kept if it describes the table, and then does.
  | none =>
    rw [Option.none_or, Option.none_or, Option.filter_filter]
    simp only [Bool.and_self]

theorem schemaFor?_schemaFor? (ls : List Lexeme) (previous : Option Schema) :
    schemaFor? ls (schemaFor? ls previous) = schemaFor? ls previous := by
  unfold schemaFor?
  cases Definition.ofLexemes? ls with
  | some d => rfl
  | none =>
    cases tableReference? ls with
    | none => rfl
    | some table => exact knownSchema?_knownSchema? table previous

theorem schemaAfter_schemaAfter (ls : List Lexeme) (previous : Option Schema) :
    schemaAfter ls (schemaAfter ls previous) = schemaAfter ls previous := by
  unfold schemaAfter
  by_cases hdrop : dropsTable (ls.map Lexeme.token) = true
  · rw [if_pos hdrop, if_pos hdrop]
  · rw [if_neg hdrop, if_neg hdrop]
    exact schemaFor?_schemaFor? ls previous

/-- A preview is told from the schema that the draft leaves of the one before. -/
theorem derive_congr {draft : String} {p q : Preview}
    (h : schemaAfter (lexemes draft) p.schema = schemaAfter (lexemes draft) q.schema)
    (remote : Option Snapshot) : derive draft p remote = derive draft q remote := by
  rw [derive_eq_show?, derive_eq_show?, h]

theorem schemaAfter_schema_derive (draft : String) (previous : Preview) (remote : Option Snapshot) :
    schemaAfter (lexemes draft) (derive draft previous remote).schema =
      schemaAfter (lexemes draft) previous.schema := by
  rw [schema_derive, schemaAfter_schemaAfter]

/-- Deriving a preview from one that the draft itself gave is deriving it from the one before that,
whatever it showed.  So only the rows that were fetched last count. -/
theorem derive_derive (draft : String) (previous : Preview) (earlier later : Option Snapshot) :
    derive draft (derive draft previous earlier) later = derive draft previous later :=
  derive_congr (schemaAfter_schema_derive draft previous earlier) later

/-! ## The rows of the draft -/

def draftedRows (p : Preview) : List Row :=
  p.rows.filter fun r => r.origin = .draft

/-- The rows that a draft inserts, as they are shown under a schema. -/
def fittedRows (schema : Option Schema) (drafted : List (List String)) : List Row :=
  match schema with
  | some schema => drafted.map fun values => Row.fit .draft values schema.columns.length
  | none => []

theorem filter_fit_self (origin : RowOrigin) (rows : List (List String)) (width : Nat) :
    ((rows.map fun values => Row.fit origin values width).filter fun r => r.origin = origin) =
      rows.map fun values => Row.fit origin values width := by
  rw [List.filter_eq_self]
  intro r hr
  obtain ⟨values, _, rfl⟩ := List.mem_map.1 hr
  exact decide_eq_true rfl

theorem filter_fit_of_ne {origin kept : RowOrigin} (h : origin ≠ kept) (rows : List (List String))
    (width : Nat) :
    ((rows.map fun values => Row.fit origin values width).filter fun r => r.origin = kept) =
      [] := by
  rw [List.filter_eq_nil_iff]
  intro r hr
  obtain ⟨values, _, rfl⟩ := List.mem_map.1 hr
  rw [decide_eq_true_eq]
  exact h

theorem draftedRows_show? (schema : Option Schema) (remote : Option Snapshot)
    (drafted : List (List String)) :
    (show? schema remote drafted).draftedRows = fittedRows schema drafted := by
  cases schema with
  | none => rfl
  | some schema =>
    simp only [show?, ofSchema, draftedRows, fittedRows, List.filter_append]
    -- Of the two blocks of rows the fetched one goes and the drafted one stays.
    rw [filter_fit_of_ne (by decide), filter_fit_self, List.nil_append]

/-! ## The fetched rows -/

def existingRows (p : Preview) : List Row :=
  p.rows.filter fun r => r.origin = .existing

/-- The rows that were last fetched, as they are shown under a schema. -/
def fittedFetched (schema : Option Schema) (remote : Option Snapshot) : List Row :=
  match schema with
  | some schema =>
    (fetchedRows schema remote).map fun values => Row.fit .existing values schema.columns.length
  | none => []

theorem existingRows_show? (schema : Option Schema) (remote : Option Snapshot)
    (drafted : List (List String)) :
    (show? schema remote drafted).existingRows = fittedFetched schema remote := by
  cases schema with
  | none => rfl
  | some schema =>
    simp only [show?, ofSchema, existingRows, fittedFetched, List.filter_append]
    rw [filter_fit_self, filter_fit_of_ne (by decide), List.append_nil]

theorem rows_show? (schema : Option Schema) (remote : Option Snapshot)
    (drafted : List (List String)) :
    (show? schema remote drafted).rows =
      (show? schema remote drafted).existingRows ++ (show? schema remote drafted).draftedRows := by
  rw [existingRows_show?, draftedRows_show?]
  cases schema <;> rfl

end SqlDraft.Preview
