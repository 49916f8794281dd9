import Mathlib.Data.List.Forall2
import SqlDraft.Proofs.GridLines

/-!
# Aligned columns

A cell is padded to the width of the widest cell of its column, all of them clipped and measured as
they are written, and spaces part the clusters of a text.  So every line of a grid is as wide as its
rule, and its bars stand over the pluses of the rule.  `Grid.aligned_text` says so of the lines that
a grid is written with, whatever their cells hold.
-/

namespace SqlDraft.Grid

/-- Cells with a bar between each two of them. -/
def joined (parts : List (List Char)) : List Char :=
  separated [' ', '|', ' '] parts

/-- A line of a table over a rule: `parts` are its cells as they are laid out. -/
structure Aligned (max : Nat) (rule : List Char) (cells : GridLine) (parts : List (List Char)) :
    Prop where
  length_le : cells.length ≤ parts.length
  filled : ∀ (i : Nat) (part : List Char), parts[i]? = some part →
    ∃ fill, part = clip max (cells[i]?.getD []) ++ List.replicate fill ' '
  width : textWidth (joined parts) = textWidth rule
  pluses : rule.count '+' = parts.length - 1
  bars : ∀ k, k + 1 < parts.length →
    joined parts =
        (joined (parts.take (k + 1)) ++ [' ']) ++ '|' :: ' ' :: joined (parts.drop (k + 1)) ∧
      ∃ before after, rule = before ++ '+' :: after ∧ before.count '+' = k ∧
        textWidth (joined (parts.take (k + 1)) ++ [' ']) = textWidth before

/-! ## Widths of cells -/

theorem textWidth_pad {width : Nat} {text : List Char} (h : textWidth text ≤ width) :
    textWidth (pad width text) = width := by
  rw [pad, textWidth_append_spaces, Nat.add_sub_cancel' h]

theorem textWidth_le_columnWidths {cells : GridLine} {lines : List GridLine}
    (hcells : cells ∈ lines) {i : Nat} (hi : i < (columnWidths lines).length) :
    textWidth (cells[i]?.getD []) ≤ (columnWidths lines)[i] := by
  simp only [columnWidths, List.getElem_map, List.getElem_range]
  cases hcell : cells[i]? with
  | none => exact Nat.zero_le _
  | some cell =>
    apply le_greatest
    exact List.mem_map_of_mem (List.mem_filterMap.2 ⟨cells, hcells, hcell⟩)

/-- The cells of a line are as wide as their columns. -/
theorem map_textWidth_paddedCells {cells : GridLine} {lines : List GridLine}
    (hcells : cells ∈ lines) :
    (paddedCells (columnWidths lines) cells).map textWidth = columnWidths lines := by
  apply List.ext_getElem
  · rw [List.length_map, length_paddedCells]
  intro i _ hi
  rw [List.getElem_map]
  simp only [paddedCells, List.getElem_mapIdx]
  exact textWidth_pad (textWidth_le_columnWidths hcells hi)

theorem textWidth_joined (parts : List (List Char)) :
    textWidth (joined parts) = (parts.map textWidth).sum + (parts.length - 1) * 3 := by
  apply measure_separated textWidth_nil
  intro left right
  have hbar : textWidth ['|'] = 1 := by decide
  have h := textWidth_append_space left ('|' :: ' ' :: right)
  have hright := textWidth_append_space ['|'] right
  rw [List.singleton_append] at hright
  rw [List.append_assoc, List.cons_append, List.cons_append, List.singleton_append, h, hright, hbar]
  omega

/-! ## Rules -/

theorem textWidth_ruleText (widths : List Nat) :
    textWidth (ruleText widths) = (ruleText widths).length := by
  apply textWidth_eq_length
  intro c hc
  rcases eq_of_mem_ruleText hc with rfl | rfl <;> decide

theorem length_separated (separator : List Char) (ts : List (List Char)) :
    (separated separator ts).length =
      (ts.map List.length).sum + (ts.length - 1) * separator.length :=
  measure_separated List.length_nil
    (fun left right => by rw [List.length_append, List.length_append]) ts

theorem length_ruleText (widths : List Nat) :
    (ruleText widths).length = widths.sum + (widths.length - 1) * 3 := by
  rw [ruleText, length_separated, List.map_map, List.length_map]
  simp only [Function.comp_def, List.length_replicate, List.map_id']
  rfl

theorem count_ruleText (widths : List Nat) : (ruleText widths).count '+' = widths.length - 1 := by
  have hdashes :
      ((widths.map fun width => List.replicate width '-').map (List.count '+')).sum = 0 := by
    rw [List.sum_eq_zero_iff_forall_eq_nat, List.map_map, List.forall_mem_map]
    exact fun width _ => List.count_eq_zero.2 fun h => by cases List.eq_of_mem_replicate h
  rw [ruleText, count_separated, hdashes, Nat.zero_add, List.length_map]
  exact Nat.mul_one _

/-- Between two of its columns a rule has a plus. -/
theorem exists_ruleText_append {front back : List Nat} (hfront : front ≠ []) (hback : back ≠ []) :
    ∃ after, ruleText (front ++ back) = (ruleText front ++ ['-']) ++ '+' :: after := by
  refine ⟨'-' :: ruleText back, ?_⟩
  rw [ruleText, List.map_append, separated_append (by simpa using hfront) (by simpa using hback)]
  simp only [ruleText, List.append_assoc]
  rfl

/-! ## Lines under their rule -/

theorem textWidth_joined_of_widths {parts : List (List Char)} {widths : List Nat}
    (h : parts.map textWidth = widths) :
    textWidth (joined parts) = textWidth (ruleText widths) := by
  rw [textWidth_joined, textWidth_ruleText, length_ruleText, ← h, List.length_map]

theorem exists_getElem?_paddedCells {max i : Nat} {widths : List Nat} {cells : GridLine}
    {part : List Char} (h : (paddedCells widths (cells.map (clip max)))[i]? = some part) :
    ∃ fill, part = clip max (cells[i]?.getD []) ++ List.replicate fill ' ' := by
  rw [paddedCells, List.getElem?_mapIdx, Option.map_eq_some_iff] at h
  obtain ⟨width, -, rfl⟩ := h
  refine ⟨_, congrArg (· ++ _) ?_⟩
  rw [List.getElem?_map]
  cases cells[i]? with
  | none => exact (clip_of_le (Nat.zero_le max)).symm
  | some cell => rfl

/-- Neither side of a bar is empty. -/
theorem sides_ne_nil {α : Type} {parts : List α} {k : Nat} (hk : k + 1 < parts.length) :
    parts.take (k + 1) ≠ [] ∧ parts.drop (k + 1) ≠ [] := by
  rw [← List.length_pos_iff, ← List.length_pos_iff, List.length_take, List.length_drop]
  omega

/-- Cells that are as wide as their columns put their bars over the pluses of the rule. -/
theorem bars_of_widths {parts : List (List Char)} {widths : List Nat}
    (h : parts.map textWidth = widths) {k : Nat} (hk : k + 1 < parts.length) :
    joined parts =
        (joined (parts.take (k + 1)) ++ [' ']) ++ '|' :: ' ' :: joined (parts.drop (k + 1)) ∧
      ∃ before after, ruleText widths = before ++ '+' :: after ∧ before.count '+' = k ∧
        textWidth (joined (parts.take (k + 1)) ++ [' ']) = textWidth before := by
  have hlength : widths.length = parts.length := by rw [← h, List.length_map]
  constructor
  · obtain ⟨hfront, hback⟩ := sides_ne_nil hk
    conv_lhs => rw [← List.take_append_drop (k + 1) parts]
    rw [joined, separated_append hfront hback]
    simp only [joined, List.append_assoc]
    rfl
  · obtain ⟨hfront, hback⟩ := sides_ne_nil (hlength.symm ▸ hk)
    obtain ⟨after, hafter⟩ := exists_ruleText_append hfront hback
    rw [List.take_append_drop] at hafter
    have hspace : Cluster.ofChar ' ' = .plain 1 := by decide
    have hdash : Cluster.ofChar '-' = .plain 1 := by decide
    refine ⟨_, after, hafter, ?_, ?_⟩
    · rw [List.count_append, count_ruleText, List.length_take]
      have hnone : ['-'].count '+' = 0 := by decide
      omega
    · have hwidths : (parts.take (k + 1)).map textWidth = widths.take (k + 1) := by
        rw [List.map_take, h]
      rw [textWidth_concat hspace, textWidth_concat hdash, textWidth_joined_of_widths hwidths]

theorem aligned_paddedCells {cells : GridLine} {lines : List GridLine} (hcells : cells ∈ lines)
    (max : Nat) :
    Aligned max (ruleText (clippedWidths max lines)) cells
      (paddedCells (clippedWidths max lines) (cells.map (clip max))) := by
  have hclipped := List.mem_map_of_mem (f := fun cells : GridLine => cells.map (clip max)) hcells
  have hwidths := map_textWidth_paddedCells hclipped
  refine ⟨?length, fun i part hpart => exists_getElem?_paddedCells hpart,
    textWidth_joined_of_widths hwidths, ?pluses, fun k hk => bars_of_widths hwidths hk⟩
  case length =>
    rw [length_paddedCells]
    exact length_le_clippedWidths hcells max
  case pluses => rw [count_ruleText, length_paddedCells]

/-- The text of a grid whose cells hold no line break has a line for each line of its table, with
the rule behind the header lines.  The cells of each of these lines stand in order, clipped and
padded with spaces, the line is as wide as the rule, and its bars stand where the pluses of the rule
do.  Then white space is taken off the ends of the lines. -/
theorem aligned_text {max headers : Nat} {lines : List GridLine} (hpos : 0 < headers)
    (hle : headers ≤ lines.length) (hunbroken : ∀ cells ∈ lines, ∀ cell ∈ cells, '\n' ∉ cell) :
    ∃ (rule : List Char) (parts : List (List (List Char))),
      (∀ c ∈ rule, c = '-' ∨ c = '+') ∧ List.Forall₂ (Aligned max rule) lines parts ∧
      HasLines (text max headers lines)
        ((parts.take headers).map (fun ps => trimEnd (joined ps)) ++
          rule :: (parts.drop headers).map fun ps => trimEnd (joined ps)) := by
  refine ⟨ruleText (clippedWidths max lines),
    lines.map fun cells => paddedCells (clippedWidths max lines) (cells.map (clip max)),
    fun c hc => eq_of_mem_ruleText hc, ?_, ?_⟩
  · rw [List.forall₂_map_right_iff, List.forall₂_same]
    exact fun cells hcells => aligned_paddedCells hcells max
  · have htexts : lineTexts max lines = (lines.map fun cells => paddedCells
        (clippedWidths max lines) (cells.map (clip max))).map fun ps => trimEnd (joined ps) := by
      rw [lineTexts, List.map_map, List.map_map]
      rfl
    have hbreaks : ((layout max headers lines).map (List.count '\n')).sum = 0 := by
      rw [sum_count_layout hpos hle, breaks_eq_zero hunbroken]
    rw [List.map_take, List.map_drop, ← htexts, ← layout_eq hpos hle]
    exact ⟨rfl, (sum_count_eq_zero_iff _).1 hbreaks⟩

/-- A table with wide characters, a bar in a cell and a row that is too short. -/
theorem aligned_text_names :
    (∀ cells ∈ [["名前".toList, "x".toList], ["a|bcdef".toList]], ∀ cell ∈ cells, '\n' ∉ cell) ∧
      ∃ rule parts,
        List.Forall₂ (Aligned 5 rule) [["名前".toList, "x".toList], ["a|bcdef".toList]] parts ∧
        HasLines (text 5 1 [["名前".toList, "x".toList], ["a|bcdef".toList]])
          ((parts.take 1).map (fun ps => trimEnd (joined ps)) ++
            rule :: (parts.drop 1).map fun ps => trimEnd (joined ps)) := by
  have hunbroken : ∀ cells ∈ [["名前".toList, "x".toList], ["a|bcdef".toList]],
      ∀ cell ∈ cells, '\n' ∉ cell := by decide
  obtain ⟨rule, parts, -, haligned, hlines⟩ :=
    aligned_text (show 0 < 1 by decide) (by decide) hunbroken
  exact ⟨hunbroken, rule, parts, haligned, hlines⟩

example : text 24 1 [["名前".toList, "x".toList], ["ab".toList, "y".toList]] =
    "名前 | x\n-----+--\nab   | y\n".toList := by decide +kernel

end SqlDraft.Grid
