import Mathlib.Data.List.Forall2
import SqlDraft.Proofs.Outline

/-!
# What is shown

A preview can be told from the draft, the schema and the rows that were last fetched, without a look
at how it came about.  `Desk.consistent_after` says so for every session: whatever has happened to
it, it shows the fetched rows of its table, then the rows of its draft, and nothing else.
-/

namespace SqlDraft

/-! ## Rows that show values -/

namespace Row

/-- Whether a row shows values in a number of columns.  Values beyond the columns are left out, and
columns beyond the values stay empty. -/
structure Shows (row : Row) (origin : RowOrigin) (width : Nat) (values : List String) : Prop where
  origin : row.origin = origin
  cells : row.cells = (values.take width).map some ++ List.replicate (width - values.length) none

theorem shows_fit (origin : RowOrigin) (width : Nat) (values : List String) :
    (fit origin values width).Shows origin width values := by
  refine ⟨rfl, ?_⟩
  apply List.ext_getElem
  · simp only [fit, List.length_map, List.length_range, List.length_append, List.length_take,
      List.length_replicate]
    omega
  intro i hi _
  have hwidth : i < width := by simpa only [length_cells_fit] using hi
  simp only [fit, List.getElem_map, List.getElem_range]
  by_cases hvalue : i < values.length
  · have htaken : i < ((values.take width).map some).length := by
      rw [List.length_map, List.length_take]
      omega
    rw [List.getElem_append_left htaken, List.getElem_map, List.getElem_take,
      List.getElem?_eq_getElem hvalue]
  · have htaken : ((values.take width).map some).length ≤ i := by
      rw [List.length_map, List.length_take]
      omega
    rw [List.getElem_append_right htaken, List.getElem_replicate,
      List.getElem?_eq_none (Nat.le_of_not_lt hvalue)]

theorem Shows.length_cells {row : Row} {origin : RowOrigin} {width : Nat} {values : List String}
    (h : row.Shows origin width values) : row.cells.length = width := by
  rw [h.cells, List.length_append, List.length_map, List.length_take, List.length_replicate]
  omega

/-- Whether rows show lists of values, one row for each list and in the same order. -/
def ShowAll (origin : RowOrigin) (width : Nat) (values : List (List String)) (rows : List Row) :
    Prop :=
  List.Forall₂ (fun vs row => row.Shows origin width vs) values rows

theorem showAll_fit (origin : RowOrigin) (width : Nat) (values : List (List String)) :
    ShowAll origin width values (values.map fun vs => fit origin vs width) := by
  rw [ShowAll, List.forall₂_map_right_iff, List.forall₂_same]
  exact fun vs _ => shows_fit origin width vs

theorem ShowAll.length_cells {origin : RowOrigin} {width : Nat} {values : List (List String)}
    {rows : List Row} (h : ShowAll origin width values rows) :
    ∀ row ∈ rows, row.cells.length = width := by
  induction h with
  | nil => exact fun row hrow => nomatch hrow
  | cons hfirst _ ih =>
    intro row hrow
    rcases List.mem_cons.1 hrow with rfl | hrow
    · exact hfirst.length_cells
    · exact ih row hrow

end Row

/-! ## Settled sessions -/

namespace Session

theorem Settled.eq_show? {s : Session} (hs : s.Settled) :
    s.preview = Preview.show? s.preview.schema s.remote (draftRows s.draft) := by
  have h := hs
  unfold Settled at h
  rw [Preview.derive_eq_show?, hs.schema] at h
  exact h

theorem Settled.existingRows {s : Session} (hs : s.Settled) :
    s.preview.existingRows = Preview.fittedFetched s.preview.schema s.remote := by
  conv_lhs => rw [hs.eq_show?]
  exact Preview.existingRows_show? _ _ _

/-- What a session shows, told without deriving it. -/
structure Consistent (s : Session) : Prop where
  settled : s.preview = .derive s.draft s.preview s.remote
  bare : s.preview.schema = none → s.preview.rows = []
  blocks : s.preview.rows = s.preview.existingRows ++ s.preview.draftedRows
  width : ∀ schema, s.preview.schema = some schema →
    ∀ row ∈ s.preview.rows, row.cells.length = schema.columns.length
  drafted : ∀ schema, s.preview.schema = some schema →
    Row.ShowAll .draft schema.columns.length (draftRows s.draft) s.preview.draftedRows
  fetched : ∀ schema snapshot, s.preview.schema = some schema → s.remote = some snapshot →
    sameName schema.table snapshot.table = true →
    Row.ShowAll .existing schema.columns.length snapshot.rows s.preview.existingRows
  foreign : ∀ schema, s.preview.schema = some schema →
    (∀ snapshot, s.remote = some snapshot → sameName schema.table snapshot.table = false) →
    s.preview.existingRows = []

theorem Settled.showAll_drafted {s : Session} (hs : s.Settled) {schema : Schema}
    (hschema : s.preview.schema = some schema) :
    Row.ShowAll .draft schema.columns.length (draftRows s.draft) s.preview.draftedRows := by
  rw [hs.draftedRows, hschema]
  exact Row.showAll_fit _ _ _

theorem Settled.showAll_existing {s : Session} (hs : s.Settled) {schema : Schema}
    (hschema : s.preview.schema = some schema) :
    Row.ShowAll .existing schema.columns.length (Preview.fetchedRows schema s.remote)
      s.preview.existingRows := by
  rw [hs.existingRows, hschema]
  exact Row.showAll_fit _ _ _

theorem Settled.consistent {s : Session} (hs : s.Settled) : s.Consistent := by
  have hblocks : s.preview.rows = s.preview.existingRows ++ s.preview.draftedRows := by
    have h := Preview.rows_show? s.preview.schema s.remote (draftRows s.draft)
    rw [← hs.eq_show?] at h
    exact h
  refine ⟨hs, fun hnone => ?bare, hblocks, fun schema hschema row hrow => ?width,
    fun schema hschema => hs.showAll_drafted hschema,
    fun schema snapshot hschema hremote hname => ?fetched,
    fun schema hschema hforeign => ?foreign⟩
  case bare =>
    rw [hs.eq_show?, hnone]
    rfl
  case width =>
    rw [hblocks, List.mem_append] at hrow
    rcases hrow with hrow | hrow
    · exact (hs.showAll_existing hschema).length_cells row hrow
    · exact (hs.showAll_drafted hschema).length_cells row hrow
  case fetched =>
    have h := hs.showAll_existing hschema
    rw [hremote, Preview.fetchedRows, Schema.describes, if_pos hname] at h
    exact h
  case foreign =>
    rw [hs.existingRows, hschema, Preview.fittedFetched]
    cases hremote : s.remote with
    | none => rfl
    | some snapshot =>
      have hother : ¬ schema.describes snapshot.table = true := by
        rw [Schema.describes, hforeign snapshot hremote]
        exact Bool.false_ne_true
      rw [Preview.fetchedRows, if_neg hother]
      rfl

/-- Rows that are shown as fetched were fetched, for the table that is shown. -/
theorem Consistent.exists_fetched {s : Session} (h : s.Consistent)
    (hshown : s.preview.existingRows ≠ []) :
    ∃ schema snapshot, s.preview.schema = some schema ∧ s.remote = some snapshot ∧
      sameName schema.table snapshot.table = true ∧
      Row.ShowAll .existing schema.columns.length snapshot.rows s.preview.existingRows := by
  cases hschema : s.preview.schema with
  | none =>
    rw [Preview.existingRows, h.bare hschema] at hshown
    exact absurd rfl hshown
  | some schema =>
    by_cases hown : ∃ snapshot, s.remote = some snapshot ∧
        sameName schema.table snapshot.table = true
    · obtain ⟨snapshot, hremote, hname⟩ := hown
      exact ⟨schema, snapshot, rfl, hremote, hname, h.fetched schema snapshot hschema hremote hname⟩
    · refine absurd (h.foreign schema hschema fun snapshot hremote => ?_) hshown
      rw [Bool.eq_false_iff]
      exact fun hname => hown ⟨snapshot, hremote, hname⟩

end Session

/-- Whatever has happened to a session, it shows what its draft, its schema and the rows that were
last fetched call for, and deriving its preview once more would not change it. -/
theorem Desk.consistent_after (events : List Event) : (new.after events).session.Consistent :=
  (Session.settled_after events).consistent

end SqlDraft
