import SqlDraft.Proofs.Provenance

/-!
# Submissions that end late

By the time a submission ends, another table may be shown than the one that it refreshes.  There is
one place for fetched rows, and the refresh takes it: the schema and the rows of the draft stay as
they are, but rows that were fetched for the table that is shown are lost.
`Desk.endRun_elsewhere` says when that makes a difference.
-/

namespace SqlDraft

namespace Session

theorem preview_endRun {s : Session} (hs : s.Settled) {run : Run} (hquery : run.query ≠ "") :
    (s.endRun run).2.preview =
      Preview.show? s.preview.schema (run.after.or s.remote) (draftRows s.draft) := by
  unfold endRun
  simp only [if_neg hquery, refresh]
  rw [Preview.derive_eq_show?, hs.schema]

theorem preview_endRun_unanswered {s : Session} (hs : s.Settled) {run : Run}
    (hquery : run.query ≠ "") (hafter : run.after = none) :
    (s.endRun run).2.preview = s.preview := by
  rw [preview_endRun hs hquery, hafter, Option.none_or]
  exact hs.eq_show?.symm

theorem preview_endRun_elsewhere {s : Session} (hs : s.Settled) {run : Run} {snapshot : Snapshot}
    (hquery : run.query ≠ "") (hafter : run.after = some snapshot)
    (helsewhere : ∀ shown, s.preview.table? = some shown → sameName shown snapshot.table = false) :
    (s.endRun run).2.preview = ⟨s.preview.schema, s.preview.draftedRows⟩ := by
  rw [preview_endRun hs hquery, hafter, Option.some_or, hs.draftedRows]
  cases hschema : s.preview.schema with
  | none => rfl
  | some schema =>
    have hother : ¬ schema.describes snapshot.table = true := by
      rw [Schema.describes, helsewhere schema.table (by rw [Preview.table?, hschema]; rfl)]
      exact Bool.false_ne_true
    have hfetched : Preview.fetchedRows schema (some snapshot) = [] := by
      rw [Preview.fetchedRows, if_neg hother]
    rw [Preview.show?, hfetched]
    rfl

end Session

namespace Desk

/-- A submission that refreshes a table has a statement, and its refresh is of that table. -/
theorem refresh_of_table {events : List Event} {number : Nat} {run : Run} {table : String}
    (hrun : (new.after events).runs[number]? = some run) (htable : run.table = some table) :
    run.query ≠ "" ∧ ∀ snapshot, run.after = some snapshot → snapshot.table = table := by
  obtain ⟨before, since, _, _, rfl⟩ := exists_begun hrun
  cases hplan : Plan.ofDraft (new.after before).session.draft with
  | nothing =>
    rw [hplan] at htable
    cases htable
  | plain query =>
    rw [hplan] at htable
    cases htable
  | bracketed query refreshed =>
    rw [hplan] at htable
    obtain rfl : refreshed = table := Option.some.inj htable
    refine ⟨Plan.query_ne_empty_of_bracketed hplan, fun snapshot hafter => ?_⟩
    obtain ⟨answer, _, rfl⟩ := Option.map_eq_some_iff.1 hafter
    exact Snapshot.table_ofAnswer refreshed answer

/-- A submission that ends while another table is shown than the one that it refreshes leaves the
schema and the rows of the draft.  It leaves the preview as a whole if and only if its refresh was
not answered or no rows are shown as fetched; otherwise those rows are lost. -/
theorem endRun_elsewhere (events : List Event) (number : Nat) (run : Run) (refreshed : String)
    (hrun : (new.after events).runs[number]? = some run) (htable : run.table = some refreshed)
    (helsewhere : ∀ shown, (new.after events).session.preview.table? = some shown →
      sameName shown refreshed = false) :
    let earlier := (new.after events).session.preview
    let later := ((new.after events).step (.endRun number)).session.preview
    later.schema = earlier.schema ∧
    later.rows = (if run.after.isSome then earlier.draftedRows else earlier.rows) ∧
    (later = earlier ↔ run.after = none ∨ earlier.existingRows = []) := by
  intro earlier later
  have hsettled : (new.after events).session.Settled := Session.settled_after events
  obtain ⟨hquery, hrefresh⟩ := refresh_of_table hrun htable
  have hlater : later = ((new.after events).session.endRun run).2.preview := by
    rw [← session_step_endRun hrun]
  cases hafter : run.after with
  | none =>
    have hsame : later = earlier := by
      rw [hlater, Session.preview_endRun_unanswered hsettled hquery hafter]
    rw [hsame]
    exact ⟨rfl, rfl, iff_of_true rfl (.inl rfl)⟩
  | some snapshot =>
    have hlost : later = ⟨earlier.schema, earlier.draftedRows⟩ := by
      rw [hlater]
      apply Session.preview_endRun_elsewhere hsettled hquery hafter
      rw [hrefresh snapshot hafter]
      exact helsewhere
    have hblocks : earlier.rows = earlier.existingRows ++ earlier.draftedRows :=
      hsettled.consistent.blocks
    rw [hlost]
    refine ⟨rfl, rfl, fun h => .inr ?_, fun h => ?_⟩
    · have hrows : earlier.draftedRows = earlier.rows := congrArg Preview.rows h
      rw [hblocks, List.self_eq_append_left] at hrows
      exact hrows
    · rcases h with h | h
      · cases h
      · rw [h, List.nil_append] at hblocks
        rw [← hblocks]

/-- A submission that is given up before its refresh does no harm to what is shown. -/
theorem endRun_elsewhere_given_up :
    let events : List Event := [.setDraft "DELETE FROM students", .beginRun,
      .setDraft "SELECT * FROM courses", .requestSnapshot,
      .deliver ⟨1, "courses"⟩ (.ok ⟨.success, none, [], [["1", "Logic", "5"]]⟩),
      .accept 0 (.failed "offline")]
    (new.after events).session.preview.existingRows ≠ [] ∧
    ((new.after events).step (.endRun 0)).session.preview = (new.after events).session.preview := by
  intro events
  refine ⟨by decide +kernel, ?_⟩
  apply (endRun_elsewhere events 0
    ⟨"DELETE FROM students", some "students", some (.empty "students"), none, none⟩ "students"
    (by decide +kernel) rfl ?_).2.2.2 (.inl rfl)
  have htable : (new.after events).session.preview.table? = some "courses" := by decide +kernel
  rw [htable]
  rintro shown ⟨⟩
  decide

/-- Rows fetched for a table while it is shown are lost to the refresh of another one. -/
theorem late_refresh_loses_rows :
    let events : List Event := [.setDraft "DELETE FROM students", .beginRun,
      .setDraft "SELECT * FROM courses", .requestSnapshot,
      .deliver ⟨1, "courses"⟩ (.ok ⟨.success, none, [], [["1", "Logic", "5"]]⟩),
      .accept 0 (.ok ⟨.success, none, [], []⟩), .accept 0 (.ok ⟨.success, none, [], []⟩),
      .accept 0 (.ok ⟨.success, none, [], []⟩)]
    (new.after events).runs.map Run.table = [some "students"] ∧
    (new.after events).session.preview.table? = some "courses" ∧
    sameName "courses" "students" = false ∧
    (new.after events).session.preview.rows =
      [⟨.existing, [some "1", some "Logic", some "5"]⟩] ∧
    ((new.after events).step (.endRun 0)).session.preview.rows = [] := by
  decide +kernel

end Desk

end SqlDraft
