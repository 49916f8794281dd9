import SqlDraft.Proofs.Bracket
import SqlDraft.Proofs.EditHistory

/-!
# The table shown and the table fetched

What is shown for a draft that defines a table is that table.  What a submission of the draft
fetches is the table that the draft refers to, and there every other shape goes before a definition.
`Desk.definition_submission` says which table that is, and what of it is shown in the end.
-/

namespace SqlDraft

/-! ## Where a definition stands -/

/-- Whether a definition of a table stands in some tokens after others: how it opens, the name, and
the parenthesis that starts the columns. -/
def DefinedAfter (front ts : List Token) (table : String) : Prop :=
  ∃ guarded named rest, ts = front ++ ((Opening.create guarded).tokens ++ named) ∧
    TableName named table (.symbol .openParen :: rest)

theorem definedAfter_of_atFront? {ls : List Lexeme} {d : Definition}
    (h : Definition.atFront? ls = some d) : DefinedAfter [] (ls.map Lexeme.token) d.table := by
  obtain ⟨condition, hafter, h⟩ := Option.bind_eq_some_iff.1 h
  obtain ⟨⟨table, rest⟩, hname, h⟩ := Option.bind_eq_some_iff.1 h
  obtain ⟨body, hbody, h⟩ := Option.bind_eq_some_iff.1 h
  obtain rfl := Option.some.inj h
  obtain ⟨guard, hguard, htokens⟩ := exists_afterOptional ifNotExists condition
  have hname := tableName_of_tableName? hname
  rw [tokens_of_after? hbody] at hname
  rw [tokens_of_after? hafter, htokens]
  rcases hguard with rfl | rfl
  · exact ⟨false, _, _, rfl, hname⟩
  · exact ⟨true, _, _, rfl, hname⟩

theorem exists_definedAfter {draft : String} {d : Definition}
    (h : Definition.ofDraft? draft = some d) :
    ∃ front, DefinedAfter front (tokens draft) d.table := by
  obtain ⟨front, back, hsplit, hback⟩ := exists_of_firstFrom h
  obtain ⟨guarded, named, rest, htokens, hname⟩ := definedAfter_of_atFront? hback
  refine ⟨front.map Lexeme.token, guarded, named, rest, ?_, hname⟩
  rw [tokens, hsplit, List.map_append, htokens, List.nil_append]

theorem TableName.exists_before_openParen {named rest : List Token} {name : String}
    (h : TableName named name (.symbol .openParen :: rest)) :
    ∃ spelled, named = spelled ++ .symbol .openParen :: rest ∧
      ∀ rest', TableName (spelled ++ .symbol .openParen :: rest') name
        (.symbol .openParen :: rest') := by
  generalize hparen : Token.symbol .openParen :: rest = later at h
  cases h with
  | plain =>
    subst hparen
    exact ⟨[.ident name], rfl, fun _ => .plain nofun⟩
  | @qualified schema =>
    subst hparen
    exact ⟨[.ident schema, .symbol .dot, .ident name], rfl, fun _ => .qualified⟩

/-- White space round a draft has no say in where a definition stands. -/
theorem DefinedAfter.trim {front : List Token} {text : List Char} {table : String}
    (h : DefinedAfter front (tokens (String.ofList text)) table) :
    DefinedAfter front (tokens (String.ofList (SqlDraft.trim text))) table := by
  obtain ⟨guarded, named, rest, htokens, hname⟩ := h
  obtain ⟨spelled, rfl, hspelled⟩ := hname.exists_before_openParen
  rw [← List.append_assoc, ← List.append_assoc] at htokens
  obtain ⟨rest', htrimmed⟩ := exists_tokens_trim htokens
  refine ⟨guarded, spelled ++ .symbol .openParen :: rest', rest', ?_, hspelled rest'⟩
  rw [htrimmed, List.append_assoc, List.append_assoc]

/-! ## What a statement with a definition refers to -/

def outrankingTable : List (List Token) :=
  (Opening.create false).outranking

theorem tableReference?_byPrecedence {ls : List Lexeme} {own table : String}
    (hown : FirstPlace NamedAfterTable (ls.map Lexeme.token) own)
    (htable : tableReference? ls = some table) :
    ByPrecedence (ls.map Lexeme.token) own outrankingTable table := by
  obtain ⟨found, hprecedence, hfold⟩ := exists_byPrecedence ls own outrankingTable
  have hfound : tableReference? ls = some found := by
    rw [← hfold, tableReference?, (firstFrom_eq_some_iff nameAfterTable?_eq_some_iff).2 hown]
    rfl
  rw [htable] at hfound
  rw [Option.some.inj hfound]
  exact hprecedence

namespace DefinedAfter

theorem namedAfterTable {front ts : List Token} {table : String} (h : DefinedAfter front ts table) :
    ∃ back, ts = (front ++ [.keyword .CREATE]) ++ .keyword .TABLE :: back ∧
      NamedAfterTable (.keyword .TABLE :: back) table := by
  obtain ⟨guarded, named, rest, rfl, hname⟩ := h
  refine ⟨(if guarded then ifNotExists else []) ++ named, ?_, ?_⟩
  · rw [List.append_assoc]
    rfl
  · apply namedAfterTable_of_guard _ hname
    cases guarded <;> simp

theorem exists_firstPlace {front ts : List Token} {table : String}
    (h : DefinedAfter front ts table) : ∃ own, FirstPlace NamedAfterTable ts own := by
  obtain ⟨back, rfl, hnamed⟩ := h.namedAfterTable
  exact exists_firstPlace_append hnamed _

/-- Without a `TABLE` in front, the name of a definition is the first one after a `TABLE`. -/
theorem firstPlace {front ts : List Token} {table : String} (h : DefinedAfter front ts table)
    (hfront : Token.keyword .TABLE ∉ front) : FirstPlace NamedAfterTable ts table := by
  obtain ⟨back, rfl, hnamed⟩ := h.namedAfterTable
  rw [firstNamedAfterTable_append_iff]
  · exact .here hnamed
  · simp [hfront]

end DefinedAfter

/-! ## What is shown and what is fetched -/

theorem Run.reads_of_table {draft table : String} (h : (Run.start draft).table = some table) :
    changesData (tokens (Run.start draft).query) = true ∧
      referencedTable? (Run.start draft).query = some table := by
  rw [Run.query_start]
  unfold Run.start at h
  dsimp only at h
  split at h
  · cases h
  · dsimp only at h
    split at h
    next hchange => exact ⟨hchange, h⟩
    next => cases h

/-- A definition in a draft is one in what is submitted. -/
theorem Run.exists_definedAfter {draft : String} {d : Definition}
    (h : Definition.ofDraft? draft = some d) :
    ∃ front, DefinedAfter front (tokens (Run.start draft).query) d.table := by
  obtain ⟨front, hdefined⟩ := SqlDraft.exists_definedAfter h
  rw [← String.ofList_toList (s := draft)] at hdefined
  rw [Run.query_start]
  exact ⟨front, hdefined.trim⟩

namespace Desk

theorem schema_of_definition {events : List Event} {d : Definition}
    (hdefined : Definition.ofDraft? (new.after events).session.draft = some d)
    (hkeeps : dropsTable (tokens (new.after events).session.draft) = false) :
    (new.after events).session.preview.schema = some (.ofDefinition d) := by
  rw [← (Session.settled_after events).schema, Preview.schemaAfter_of_definition hdefined]
  change (if dropsTable (tokens _) then none else _) = _
  rw [hkeeps]
  rfl

/-- The draft outlives the end of a submission. -/
theorem draft_step_endRun (events : List Event) (number : Nat) :
    ((new.after events).step (.endRun number)).session.draft = (new.after events).session.draft :=
  congrArg Outline.draft (outline_step (Session.settled_after events) (.endRun number))

/-- Of the rows that were last fetched, those of a table that the draft defines are shown. -/
theorem shown_of_definition {events : List Event} {d : Definition} {table : String}
    {answer : Answer}
    (hdefined : Definition.ofDraft? (new.after events).session.draft = some d)
    (hkeeps : dropsTable (tokens (new.after events).session.draft) = false)
    (hremote : (new.after events).session.remote = some (.ofAnswer table answer)) :
    let shown := (new.after events).session.preview
    shown.schema = some (.ofDefinition d) ∧
    (sameName d.table table = true → Row.ShowAll .existing d.columns.length
      (Snapshot.ofAnswer table answer).rows shown.existingRows) ∧
    (sameName d.table table = false → shown.existingRows = []) := by
  intro shown
  have hschema : shown.schema = some (.ofDefinition d) := schema_of_definition hdefined hkeeps
  have hconsistent := consistent_after events
  refine ⟨hschema, fun hsame => ?_, fun hother => ?_⟩
  · apply hconsistent.fetched _ _ hschema hremote
    rw [Snapshot.table_ofAnswer]
    exact hsame
  · apply hconsistent.foreign _ hschema
    intro snapshot hsnapshot
    rw [hremote] at hsnapshot
    rw [← Option.some.inj hsnapshot, Snapshot.table_ofAnswer]
    exact hother

/-- For a draft that defines a table and drops none, that table is shown, and a submission that
fetches a table fetches the one that the statement refers to: the first name after the highest shape
that leads to any, where `TABLE` is the lowest shape.  It is the table shown if no name follows one
of the other shapes and no `TABLE` stands before the definition.  When the submission ends while the
draft is there, the rows that it fetched last are shown if they are of the table shown, and
otherwise no fetched rows are. -/
theorem definition_submission (events : List Event) (d : Definition) (table : String)
    (hdefined : Definition.ofDraft? (new.after events).session.draft = some d)
    (hkeeps : dropsTable (tokens (new.after events).session.draft) = false)
    (htable : (new.after events).session.beginRun.table = some table) :
    let begun := (new.after events).session
    let query := begun.beginRun.query
    let number := (new.after events).runs.length
    begun.preview.schema = some (.ofDefinition d) ∧
    (Plan.ofDraft begun.draft).requests = [.selectAll table, ⟨query⟩, .selectAll table] ∧
    (∃ own, FirstPlace NamedAfterTable (tokens query) own ∧
      ByPrecedence (tokens query) own outrankingTable table) ∧
    (∃ front, DefinedAfter front (tokens query) d.table) ∧
    (∀ front, DefinedAfter front (tokens query) d.table → .keyword .TABLE ∉ front →
      (∀ shape ∈ outrankingTable, ∀ first, ¬ shape ++ [.ident first] <:+: tokens query) →
        table = d.table) ∧
    ∀ since answer, (answersTo number since)[2]? = some answer →
      let later := ((new.after events).step .beginRun).after since
      let shown := (later.step (.endRun number)).session.preview
      later.session.draft = begun.draft → shown.schema = some (.ofDefinition d) ∧
        (sameName d.table table = true → Row.ShowAll .existing d.columns.length
          (Snapshot.ofAnswer table answer).rows shown.existingRows) ∧
        (sameName d.table table = false → shown.existingRows = []) := by
  intro begun query number
  obtain ⟨hchange, hreference⟩ := Run.reads_of_table htable
  have hplan : Plan.ofDraft begun.draft = .bracketed query table :=
    Plan.ofDraft_eq_bracketed hchange hreference
  obtain ⟨front, hfront⟩ := Run.exists_definedAfter hdefined
  refine ⟨schema_of_definition hdefined hkeeps, ?_, ?_, ⟨front, hfront⟩,
    fun earlier hearlier hfirst hnone => ?_, fun since answer hanswer => ?_⟩
  · rw [hplan]
    rfl
  · obtain ⟨own, hown⟩ := hfront.exists_firstPlace
    exact ⟨own, hown, tableReference?_byPrecedence hown hreference⟩
  · have hprecedence := tableReference?_byPrecedence (hearlier.firstPlace hfirst) hreference
    exact hprecedence.eq_own hnone
  · intro later shown hdraft
    have hevents : later = new.after (events ++ .beginRun :: since) := by
      rw [after_append, after_cons]
    have hended : later.step (.endRun number) =
        new.after (events ++ .beginRun :: since ++ [.endRun number]) := by
      rw [after_append, ← hevents, after_cons, after_nil]
    have hmerges : Merges (events ++ .beginRun :: since) (.endRun number) table answer :=
      .refreshed rfl hplan hanswer
    have hremote := remote_of_merges hmerges
    have hkept := draft_step_endRun (events ++ .beginRun :: since) number
    rw [← hevents, hended] at hremote hkept
    rw [← hdraft, ← hkept] at hdefined hkeeps
    have hshown := shown_of_definition hdefined hkeeps hremote
    rw [← hended] at hshown
    exact hshown

/-- A new table is fetched before and after its definition is run, and shown with its rows. -/
theorem definition_submission_pets :
    let events : List Event := [.setDraft " CREATE TABLE IF NOT EXISTS Pets (id INT"]
    let answers : List Event := [.accept 0 (.failed "no such table"),
      .accept 0 (.ok ⟨.success, none, [], []⟩), .accept 0 (.ok ⟨.success, none, [], [["1"]]⟩)]
    Definition.ofDraft? (new.after events).session.draft = some ⟨"Pets", [⟨"id", .number⟩]⟩ ∧
    dropsTable (tokens (new.after events).session.draft) = false ∧
    (new.after events).session.beginRun.table = some "Pets" ∧
    Row.ShowAll .existing 1 [["1"]]
      ((((new.after events).step .beginRun).after answers).step
        (.endRun 0)).session.preview.existingRows := by
  intro events answers
  have hdefined : Definition.ofDraft? (new.after events).session.draft =
      some ⟨"Pets", [⟨"id", .number⟩]⟩ := by decide +kernel
  have hkeeps : dropsTable (tokens (new.after events).session.draft) = false := by decide +kernel
  have htable : (new.after events).session.beginRun.table = some "Pets" := by decide +kernel
  obtain ⟨_, _, _, _, _, hended⟩ := definition_submission events _ "Pets" hdefined hkeeps htable
  exact ⟨hdefined, hkeeps, htable, (hended answers _ rfl rfl).2.1 (by decide)⟩

/-- A query takes the fetches away from the table that is defined from it. -/
theorem definition_fetches_other_table :
    let defining := Session.new.setDraft
      "CREATE TABLE honours (id INT) AS SELECT id FROM students"
    Definition.ofDraft? defining.draft = some ⟨"honours", [⟨"id", .number⟩]⟩ ∧
    dropsTable (tokens defining.draft) = false ∧
    defining.preview.table? = some "honours" ∧
    defining.beginRun.table = some "students" ∧
    sameName "honours" "students" = false := by
  decide +kernel

end Desk

end SqlDraft
