import SqlDraft.Layout.Report
import SqlDraft.Proofs.Clipping

/-!
# Lines of grids

A grid has a line of text for every line of its table and one for the rule, and writes what its
cells hold as it is.  So a line break in a cell breaks its line, unless it is cut off with the white
space at the end of the line.  `Report.lines_of_tables` counts the line breaks of every report of a
table and says when it has one line of text for each row.
-/

namespace SqlDraft

/-! ## Texts made of lines -/

/-- A text that consists of the given lines, each ended by its only line break. -/
structure HasLines (text : List Char) (lines : List (List Char)) : Prop where
  text_eq : text = lines.flatMap fun line => line ++ ['\n']
  unbroken : ∀ line ∈ lines, '\n' ∉ line

/-- Whether a text consists of so many lines, each ended by its only line break. -/
def IsLines (n : Nat) (text : List Char) : Prop :=
  ∃ lines, lines.length = n ∧ HasLines text lines

theorem count_flatMap_lines (lines : List (List Char)) :
    (lines.flatMap fun line => line ++ ['\n']).count '\n' =
      lines.length + (lines.map (List.count '\n')).sum := by
  induction lines with
  | nil => rfl
  | cons line lines ih =>
    rw [List.flatMap_cons, List.count_append, ih, List.count_append, List.count_singleton_self,
      List.length_cons, List.map_cons, List.sum_cons]
    omega

theorem sum_count_eq_zero_iff (lines : List (List Char)) :
    (lines.map (List.count '\n')).sum = 0 ↔ ∀ line ∈ lines, '\n' ∉ line := by
  rw [List.sum_eq_zero_iff_forall_eq_nat, List.forall_mem_map]
  simp only [List.count_eq_zero]

/-- A text that is written as so many lines with so many line breaks within them.  It consists of so
many lines if there are none of these, and only then. -/
structure WritesLines (n breaks : Nat) (text : List Char) : Prop where
  count_eq : text.count '\n' = n + breaks
  isLines_iff : IsLines n text ↔ breaks = 0

theorem HasLines.count_eq {text : List Char} {lines : List (List Char)} (h : HasLines text lines) :
    text.count '\n' = lines.length := by
  rw [h.text_eq, count_flatMap_lines, (sum_count_eq_zero_iff lines).2 h.unbroken, Nat.add_zero]

theorem writesLines_flatMap (lines : List (List Char)) :
    WritesLines lines.length (lines.map (List.count '\n')).sum
      (lines.flatMap fun line => line ++ ['\n']) := by
  refine ⟨count_flatMap_lines lines, ?_⟩
  constructor
  · rintro ⟨others, hlength, hothers⟩
    have hcount := hothers.count_eq
    rw [count_flatMap_lines, hlength] at hcount
    omega
  · intro h
    exact ⟨lines, rfl, rfl, (sum_count_eq_zero_iff lines).1 h⟩

namespace Grid

/-! ## Columns -/

theorem le_greatest {n : Nat} {ns : List Nat} (h : n ∈ ns) : n ≤ greatest ns := by
  induction ns with
  | nil => contradiction
  | cons m ns ih =>
    rw [greatest, List.foldr_cons, ← greatest]
    rcases List.mem_cons.1 h with rfl | h
    · exact Nat.le_max_left _ _
    · exact Nat.le_trans (ih h) (Nat.le_max_right _ _)

theorem length_columnWidths (lines : List GridLine) :
    (columnWidths lines).length = greatest (lines.map List.length) := by
  rw [columnWidths, List.length_map, List.length_range]

/-! ## Separated texts -/

theorem separated_cons_cons (separator t u : List Char) (ts : List (List Char)) :
    separated separator (t :: u :: ts) = t ++ separator ++ separated separator (u :: ts) := rfl

theorem separated_append {separator : List Char} {front back : List (List Char)}
    (hfront : front ≠ []) (hback : back ≠ []) :
    separated separator (front ++ back) =
      separated separator front ++ separator ++ separated separator back := by
  induction front with
  | nil => contradiction
  | cons t ts ih =>
    cases ts with
    | nil =>
      obtain ⟨u, us, rfl⟩ := List.exists_cons_of_ne_nil hback
      rfl
    | cons u us =>
      have hrest := ih (List.cons_ne_nil u us)
      rw [List.cons_append] at hrest
      rw [List.cons_append, List.cons_append, separated_cons_cons, separated_cons_cons, hrest]
      simp only [List.append_assoc]

/-- A quantity that adds up over texts with a separator between them, such as their length. -/
theorem measure_separated {f : List Char → Nat} {separator : List Char} {n : Nat} (hnil : f [] = 0)
    (hsep : ∀ left right, f (left ++ separator ++ right) = f left + n + f right)
    (ts : List (List Char)) :
    f (separated separator ts) = (ts.map f).sum + (ts.length - 1) * n := by
  induction ts with
  | nil => simpa [separated] using hnil
  | cons t ts ih =>
    cases ts with
    | nil => simp [separated]
    | cons u us =>
      rw [separated_cons_cons, hsep, ih]
      simp only [List.map_cons, List.sum_cons, List.length_cons, Nat.add_sub_cancel, Nat.succ_mul]
      omega

theorem count_separated (c : Char) (separator : List Char) (ts : List (List Char)) :
    (separated separator ts).count c =
      (ts.map (List.count c)).sum + (ts.length - 1) * separator.count c :=
  measure_separated List.count_nil
    (fun left right => by rw [List.count_append, List.count_append]) ts

theorem mem_separated {c : Char} {separator : List Char} {ts : List (List Char)}
    (h : c ∈ separated separator ts) : c ∈ separator ∨ ∃ t ∈ ts, c ∈ t := by
  induction ts with
  | nil => contradiction
  | cons t ts ih =>
    cases ts with
    | nil => exact .inr ⟨t, List.mem_singleton_self t, h⟩
    | cons u us =>
      rw [separated_cons_cons, List.mem_append, List.mem_append] at h
      rcases h with (h | h) | h
      · exact .inr ⟨t, List.mem_cons_self, h⟩
      · exact .inl h
      · exact (ih h).imp_right fun ⟨v, hv, hc⟩ => ⟨v, List.mem_cons_of_mem t hv, hc⟩

/-! ## Padded cells -/

theorem paddedCells_concat (widths : List Nat) (width : Nat) (cells : GridLine) :
    paddedCells (widths ++ [width]) cells =
      paddedCells widths cells ++ [pad width (cells[widths.length]?.getD [])] := by
  rw [paddedCells, List.mapIdx_concat, ← paddedCells]

theorem length_paddedCells (widths : List Nat) (cells : GridLine) :
    (paddedCells widths cells).length = widths.length :=
  List.length_mapIdx

theorem count_pad {c : Char} (hc : c ≠ ' ') (width : Nat) (text : List Char) :
    (pad width text).count c = text.count c := by
  rw [pad, List.count_append, List.count_replicate, if_neg, Nat.add_zero]
  simpa using hc.symm

theorem sum_count_paddedCells {c : Char} (hc : c ≠ ' ') (widths : List Nat) (cells : GridLine) :
    ((paddedCells widths cells).map (List.count c)).sum =
      ((cells.take widths.length).map (List.count c)).sum := by
  induction widths using List.reverseRecOn with
  | nil => rfl
  | append_singleton widths width ih =>
    rw [paddedCells_concat, List.map_append, List.sum_append, ih, List.map_singleton,
      List.sum_singleton, count_pad hc, List.length_append, List.length_singleton,
      List.take_add_one, List.map_append, List.sum_append]
    cases cells[widths.length]? <;> rfl

/-! ## Line breaks -/

/-- The line breaks in a line of a grid with so many columns: all those in its cells, but for those
in the white space at the end of a cell of the last column. -/
def lineBreaks (columns : Nat) (cells : GridLine) : Nat :=
  ((cells.take (columns - 1)).map (List.count '\n')).sum +
    (trimEnd (cells[columns - 1]?.getD [])).count '\n'

theorem trimEnd_pad (width : Nat) (text : List Char) : trimEnd (pad width text) = trimEnd text := by
  rw [pad, trimEnd_append_of_blank]
  intro c hc
  rw [List.eq_of_mem_replicate hc]
  decide

/-- Only white space behind the last separator of a line is taken off. -/
theorem trimEnd_append_separator (front last : List Char) :
    (trimEnd (front ++ [' ', '|', ' '] ++ last)).count '\n' =
      front.count '\n' + (trimEnd last).count '\n' := by
  have hbar : trimEnd [' ', '|', ' '] = [' ', '|'] := by decide
  rw [trimEnd_append]
  split
  case isTrue hnone =>
    rw [trimEnd_append_of_ne_nil (by rw [hbar]; simp), hbar, hnone, List.count_append]
    rfl
  case isFalse =>
    rw [List.count_append, List.count_append]
    rfl

theorem count_lineText {widths : List Nat} {cells : GridLine}
    (hlength : cells.length ≤ widths.length) :
    (lineText widths cells).count '\n' = lineBreaks widths.length cells := by
  induction widths using List.reverseRecOn with
  | nil =>
    rw [List.eq_nil_of_length_eq_zero (Nat.le_zero.1 hlength)]
    rfl
  | append_singleton widths width _ =>
    have hlast := trimEnd_pad width (cells[widths.length]?.getD [])
    rw [lineText, fullLine, paddedCells_concat, lineBreaks, List.length_append,
      List.length_singleton, Nat.add_sub_cancel, ← sum_count_paddedCells (by decide), ← hlast]
    by_cases hfirst : paddedCells widths cells = []
    case pos =>
      rw [hfirst]
      exact (Nat.zero_add _).symm
    case neg =>
      rw [separated_append hfirst (List.cons_ne_nil _ _), separated, trimEnd_append_separator,
        count_separated]
      rfl

/-- The line breaks that a grid has within its lines. -/
def breaks (max : Nat) (lines : List GridLine) : Nat :=
  (lines.map fun line =>
    lineBreaks (greatest (lines.map List.length)) (line.map (clip max))).sum

/-! ## Lines of a grid -/

def clippedWidths (max : Nat) (lines : List GridLine) : List Nat :=
  columnWidths (lines.map fun line => line.map (clip max))

theorem length_clippedWidths (max : Nat) (lines : List GridLine) :
    (clippedWidths max lines).length = greatest (lines.map List.length) := by
  rw [clippedWidths, length_columnWidths, List.map_map]
  simp only [Function.comp_def, List.length_map]

theorem length_le_clippedWidths {line : GridLine} {lines : List GridLine} (h : line ∈ lines)
    (max : Nat) : line.length ≤ (clippedWidths max lines).length := by
  rw [length_clippedWidths]
  exact le_greatest (List.mem_map_of_mem h)

def lineTexts (max : Nat) (lines : List GridLine) : List (List Char) :=
  (lines.map fun line => line.map (clip max)).map (lineText (clippedWidths max lines))

theorem layout_eq {max headers : Nat} {lines : List GridLine} (hpos : 0 < headers)
    (hle : headers ≤ lines.length) :
    layout max headers lines =
      (lineTexts max lines).take headers ++
        ruleText (clippedWidths max lines) :: (lineTexts max lines).drop headers :=
  if_pos ⟨hpos, hle⟩

theorem length_layout {max headers : Nat} {lines : List GridLine} (hpos : 0 < headers)
    (hle : headers ≤ lines.length) : (layout max headers lines).length = lines.length + 1 := by
  rw [layout_eq hpos hle, List.length_append, List.length_cons, ← Nat.add_assoc,
    ← List.length_append, List.take_append_drop, lineTexts, List.length_map, List.length_map]

theorem sum_count_lineTexts (max : Nat) (lines : List GridLine) :
    ((lineTexts max lines).map (List.count '\n')).sum = breaks max lines := by
  rw [lineTexts, breaks, List.map_map, List.map_map, ← length_clippedWidths max lines]
  apply congrArg List.sum
  apply List.map_congr_left
  intro line hline
  apply count_lineText
  rw [List.length_map]
  exact length_le_clippedWidths hline max

/-- A rule is made of dashes and of the pluses between them. -/
theorem eq_of_mem_ruleText {c : Char} {widths : List Nat} (h : c ∈ ruleText widths) :
    c = '-' ∨ c = '+' := by
  rcases mem_separated h with h | ⟨t, ht, hc⟩
  · simp only [List.mem_cons, List.not_mem_nil, or_false] at h
    rcases h with h | h | h
    · exact .inl h
    · exact .inr h
    · exact .inl h
  · obtain ⟨width, -, rfl⟩ := List.mem_map.1 ht
    exact .inl (List.eq_of_mem_replicate hc)

theorem sum_count_layout {max headers : Nat} {lines : List GridLine} (hpos : 0 < headers)
    (hle : headers ≤ lines.length) :
    ((layout max headers lines).map (List.count '\n')).sum = breaks max lines := by
  have hrule : (ruleText (clippedWidths max lines)).count '\n' = 0 :=
    List.count_eq_zero.2 fun h => by rcases eq_of_mem_ruleText h with h | h <;> contradiction
  rw [layout_eq hpos hle, List.map_append, List.map_cons, List.sum_append, List.sum_cons, hrule,
    Nat.zero_add, ← List.sum_append, ← List.map_append, List.take_append_drop, sum_count_lineTexts]

theorem writesLines_text {max headers : Nat} {lines : List GridLine} (hpos : 0 < headers)
    (hle : headers ≤ lines.length) :
    WritesLines (lines.length + 1) (breaks max lines) (text max headers lines) := by
  rw [← length_layout hpos hle, ← sum_count_layout hpos hle]
  exact writesLines_flatMap _

theorem mem_clip {c : Char} {max : Nat} {text : List Char} (h : c ∈ clip max text) :
    c ∈ text ∨ c = ellipsis := by
  unfold clip at h
  split at h
  case isTrue => exact .inl h
  case isFalse =>
    rcases List.mem_append.1 h with h | h
    · exact .inl ((fitting_isPrefix max 0 text).subset h)
    · exact .inr (List.mem_singleton.1 h)

/-- Cells without line breaks leave every line whole. -/
theorem breaks_eq_zero {lines : List GridLine} (h : ∀ line ∈ lines, ∀ cell ∈ line, '\n' ∉ cell)
    (max : Nat) : breaks max lines = 0 := by
  rw [breaks, List.sum_eq_zero_iff_forall_eq_nat, List.forall_mem_map]
  intro line hline
  have hcells : ∀ cell ∈ line.map (clip max), '\n' ∉ cell := by
    rw [List.forall_mem_map]
    intro cell hcell hbreak
    rcases mem_clip hbreak with hbreak | hbreak
    · exact h line hline cell hcell hbreak
    · exact absurd hbreak (by decide)
  generalize line.map (clip max) = cells at hcells
  rw [lineBreaks, Nat.add_eq_zero_iff, sum_count_eq_zero_iff, List.count_eq_zero]
  refine ⟨fun cell hcell => hcells cell (List.mem_of_mem_take hcell), fun hbreak => ?_⟩
  obtain ⟨back, hsplit, -⟩ :=
    exists_trimEnd (cells[greatest (lines.map List.length) - 1]?.getD [])
  cases hlast : cells[greatest (lines.map List.length) - 1]? with
  | none =>
    rw [hlast] at hbreak
    contradiction
  | some cell =>
    rw [hlast, Option.getD_some] at hsplit hbreak
    exact hcells cell (List.mem_of_getElem? hlast) (hsplit ▸ List.mem_append_left back hbreak)

end Grid

namespace Report

def titleLine (schema : Schema) : List Char :=
  (schema.table ++ " (" ++ originText schema.origin ++ ")").toList

theorem count_titleLine (schema : Schema) :
    (titleLine schema).count '\n' = schema.table.toList.count '\n' := by
  have horigin : (originText schema.origin).toList.count '\n' = 0 := by
    cases schema.origin <;> decide
  rw [titleLine, String.toList_append, String.toList_append, String.toList_append,
    List.count_append, List.count_append, List.count_append, horigin]
  rfl

theorem toList_preview (options : ReportOptions) {p : Preview} {schema : Schema}
    (hschema : p.schema = some schema) (hcolumns : schema.columns ≠ []) :
    (preview options p).toList =
      (titleLine schema :: Grid.layout options.maxCellWidth 2
        (previewLines options schema p.rows)).flatMap fun line => line ++ ['\n'] := by
  have hnot : schema.columns.isEmpty = false := List.isEmpty_eq_false_iff.2 hcolumns
  simp only [preview, hschema, hnot, Bool.false_eq_true, if_false, titleLine, Grid.text,
    String.toList_append, String.toList_ofList, List.flatMap_cons, List.append_assoc]
  rfl

theorem length_previewLines (options : ReportOptions) (schema : Schema) (rows : List Row) :
    (previewLines options schema rows).length = rows.length + 2 := by
  rw [previewLines, List.length_cons, List.length_cons, List.length_map]

theorem writesLines_preview (options : ReportOptions) {p : Preview} {schema : Schema}
    (hschema : p.schema = some schema) (hcolumns : schema.columns ≠ []) :
    WritesLines (4 + p.rows.length)
      (schema.table.toList.count '\n' +
        Grid.breaks options.maxCellWidth (previewLines options schema p.rows))
      (preview options p).toList := by
  have hpos : 0 < 2 := by decide
  have hle : 2 ≤ (previewLines options schema p.rows).length := by
    rw [length_previewLines]
    exact Nat.le_add_left 2 _
  have h := writesLines_flatMap (titleLine schema ::
    Grid.layout options.maxCellWidth 2 (previewLines options schema p.rows))
  rw [List.length_cons, Grid.length_layout hpos hle, length_previewLines, List.map_cons,
    List.sum_cons, Grid.sum_count_layout hpos hle, count_titleLine,
    ← toList_preview options hschema hcolumns] at h
  have hlength : p.rows.length + 2 + 1 + 1 = 4 + p.rows.length := by omega
  rwa [hlength] at h

theorem writesLines_outcome (options : ReportOptions) (columns : List String)
    (rows : List (List String)) :
    WritesLines (2 + rows.length)
      (Grid.breaks options.maxCellWidth ((columns :: rows).map fun line => line.map String.toList))
      (outcome options (.rows columns rows)).toList := by
  have hlength : ((columns :: rows).map fun line => line.map String.toList).length =
      rows.length + 1 := by
    rw [List.length_map, List.length_cons]
  have h : WritesLines _ _ (Grid.text options.maxCellWidth 1
      ((columns :: rows).map fun line => line.map String.toList)) :=
    Grid.writesLines_text Nat.one_pos (by rw [hlength]; exact Nat.le_add_left 1 _)
  rw [hlength, Nat.add_assoc, Nat.add_comm] at h
  rwa [outcome, String.toList_ofList]

/-! ## Reports without line breaks in their cells -/

structure UnbrokenOptions (options : ReportOptions) : Prop where
  placeholder : '\n' ∉ options.placeholder.toList
  fetchedMarker : '\n' ∉ options.fetchedMarker.toList
  draftMarker : '\n' ∉ options.draftMarker.toList

structure UnbrokenRows (schema : Schema) (rows : List Row) : Prop where
  names : ∀ column ∈ schema.columns, '\n' ∉ column.name.toList
  values : ∀ row ∈ rows, ∀ value, some value ∈ row.cells → '\n' ∉ value.toList

theorem unbroken_headerLine {cells : List String} (h : ∀ cell ∈ cells, '\n' ∉ cell.toList) :
    ∀ cell ∈ headerLine cells, '\n' ∉ cell := by
  rw [headerLine, List.forall_mem_cons, List.forall_mem_map]
  exact ⟨by decide, h⟩

theorem unbroken_rowLine {options : ReportOptions} (hoptions : UnbrokenOptions options) {row : Row}
    (h : ∀ value, some value ∈ row.cells → '\n' ∉ value.toList) :
    ∀ cell ∈ rowLine options row, '\n' ∉ cell := by
  rw [rowLine, List.forall_mem_cons, List.forall_mem_map]
  constructor
  · cases row.origin
    · exact hoptions.fetchedMarker
    · exact hoptions.draftMarker
  · intro cell hcell
    cases cell with
    | none => exact hoptions.placeholder
    | some value => exact h value hcell

theorem unbroken_previewLines {options : ReportOptions} (hoptions : UnbrokenOptions options)
    {schema : Schema} {rows : List Row} (h : UnbrokenRows schema rows) :
    ∀ line ∈ previewLines options schema rows, ∀ cell ∈ line, '\n' ∉ cell := by
  rw [previewLines, List.forall_mem_cons, List.forall_mem_cons, List.forall_mem_map]
  refine ⟨unbroken_headerLine ?_, unbroken_headerLine ?_, fun row hrow =>
    unbroken_rowLine hoptions (h.values row hrow)⟩
  · rw [List.forall_mem_map]
    exact h.names
  · rw [List.forall_mem_map]
    intro column _
    cases column.type <;> decide

/-- The report of a preview with columns is written as four lines and one for each row, and that of
an outcome with rows as two lines and one for each row.  Each of them has just so many line breaks
more as its table name has and as its cells have that are not cut off with the white space at the
end of a line, and consists of so many lines if there are none, and only then.  So it does whenever
no name and no value holds a line break, and neither do the markers and the placeholder. -/
theorem lines_of_tables (options : ReportOptions) {p : Preview} {schema : Schema}
    (hschema : p.schema = some schema) (hcolumns : schema.columns ≠ []) (columns : List String)
    (rows : List (List String)) :
    WritesLines (4 + p.rows.length)
        (schema.table.toList.count '\n' +
          Grid.breaks options.maxCellWidth (previewLines options schema p.rows))
        (preview options p).toList ∧
      WritesLines (2 + rows.length)
        (Grid.breaks options.maxCellWidth
          ((columns :: rows).map fun line => line.map String.toList))
        (outcome options (.rows columns rows)).toList ∧
      (UnbrokenOptions options → '\n' ∉ schema.table.toList → UnbrokenRows schema p.rows →
        IsLines (4 + p.rows.length) (preview options p).toList) ∧
      ((∀ line ∈ columns :: rows, ∀ cell ∈ line, '\n' ∉ cell.toList) →
        IsLines (2 + rows.length) (outcome options (.rows columns rows)).toList) := by
  have hpreview := writesLines_preview options hschema hcolumns
  have houtcome := writesLines_outcome options columns rows
  refine ⟨hpreview, houtcome, fun hoptions htable hrows => ?_, fun hcells => ?_⟩
  · rw [hpreview.isLines_iff, List.count_eq_zero.2 htable,
      Grid.breaks_eq_zero (unbroken_previewLines hoptions hrows)]
  · rw [houtcome.isLines_iff]
    apply Grid.breaks_eq_zero
    rw [List.forall_mem_map]
    intro line hline
    rw [List.forall_mem_map]
    exact hcells line hline

/-- A line break within a value breaks its row, and one at the end of the last value does not.  A
row without one has a line of its own. -/
theorem lines_of_tables_courses :
    (preview .standard (Preview.derive
        "INSERT INTO courses VALUES (1, 'Logic\nand proof', '5\n')" .empty
        none)).toList.count '\n' = 4 + 1 + 1 ∧
    IsLines (4 + 1) (preview .standard (Preview.derive
      "INSERT INTO courses VALUES (2, 'Sets', 3)" .empty none)).toList := by
  have hbroken : (Preview.derive "INSERT INTO courses VALUES (1, 'Logic\nand proof', '5\n')" .empty
      none).schema =
        some ⟨"courses", [⟨"id", .number⟩, ⟨"title", .text⟩, ⟨"credits", .number⟩],
          .catalogue⟩ := by
    decide +kernel
  have hwhole : Preview.derive "INSERT INTO courses VALUES (2, 'Sets', 3)" .empty none =
      ⟨some ⟨"courses", [⟨"id", .number⟩, ⟨"title", .text⟩, ⟨"credits", .number⟩], .catalogue⟩,
        [⟨.draft, [some "2", some "Sets", some "3"]⟩]⟩ := by
    decide +kernel
  constructor
  · rw [(lines_of_tables .standard hbroken (List.cons_ne_nil _ _) [] []).1.count_eq]
    decide +kernel
  · have hvalues : ∀ value, some value ∈ [some "2", some "Sets", some "3"] →
        '\n' ∉ value.toList := by
      intro value hvalue
      simp only [List.mem_cons, Option.some.injEq, List.not_mem_nil, or_false] at hvalue
      rcases hvalue with rfl | rfl | rfl <;> decide
    obtain ⟨-, -, hunbroken, -⟩ := lines_of_tables .standard (congrArg Preview.schema hwhole)
      (List.cons_ne_nil _ _) [] []
    rw [hwhole] at hunbroken ⊢
    exact hunbroken ⟨by decide, by decide, by decide⟩ (by decide)
      ⟨by decide, List.forall_mem_singleton.2 hvalues⟩

/-- A title of two lines breaks the one row of its table. -/
theorem multiline_value_breaks_row :
    (Preview.derive
        "INSERT INTO courses VALUES (1, 'Logic\nand proof', 5)" .empty none).rows.length = 1 ∧
      ¬ IsLines (4 + 1) (preview .standard (Preview.derive
        "INSERT INTO courses VALUES (1, 'Logic\nand proof', 5)" .empty none)).toList := by
  refine ⟨by decide +kernel, ?_⟩
  rintro ⟨lines, hlength, hlines⟩
  have hcount : (preview .standard (Preview.derive
      "INSERT INTO courses VALUES (1, 'Logic\nand proof', 5)" .empty none)).toList.count '\n' =
        6 := by
    decide +kernel
  rw [hlines.count_eq, hlength] at hcount
  contradiction

end Report

end SqlDraft
