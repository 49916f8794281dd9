import SqlDraft.Display.Width
import SqlDraft.Text.Blank

/-!
# Grids

Rows of text laid out in aligned columns.  Long cells are clipped, short ones padded, and a rule
follows the header lines.  Rows may differ in length; absent cells are blank.
-/

namespace SqlDraft

abbrev GridLine := List (List Char)

namespace Grid

def ellipsis : Char := '…'

/-- The longest front part of a text whose characters and an ellipsis fit into `max` columns, when
`used` columns are taken already.  Characters count with the width that they have alone. -/
def fitting (max : Nat) : Nat → List Char → List Char
  | _, [] => []
  | used, c :: cs =>
    if max < used + charWidth c + 1 then [] else c :: fitting max (used + charWidth c) cs

/-- Shortens a text that takes more than `max` columns; zero sets no limit. -/
def clip (max : Nat) (text : List Char) : List Char :=
  if textWidth text ≤ max ∨ max = 0 then text else fitting max 0 text ++ [ellipsis]

def pad (width : Nat) (text : List Char) : List Char :=
  text ++ List.replicate (width - textWidth text) ' '

def greatest (ns : List Nat) : Nat :=
  ns.foldr max 0

def columnWidths (lines : List GridLine) : List Nat :=
  let columns := greatest (lines.map List.length)
  (List.range columns).map fun i =>
    greatest ((lines.filterMap fun cells => cells[i]?).map textWidth)

def separated (separator : List Char) : List (List Char) → List Char
  | [] => []
  | [t] => t
  | t :: ts => t ++ separator ++ separated separator ts

def paddedCells (widths : List Nat) (cells : GridLine) : List (List Char) :=
  widths.mapIdx fun i width => pad width (cells[i]?.getD [])

/-- A line of the grid before white space at its end is taken off. -/
def fullLine (widths : List Nat) (line : GridLine) : List Char :=
  separated [' ', '|', ' '] (paddedCells widths line)

def lineText (widths : List Nat) (line : GridLine) : List Char :=
  trimEnd (fullLine widths line)

def ruleText (widths : List Nat) : List Char :=
  separated ['-', '+', '-'] (widths.map fun width => List.replicate width '-')

/-- The lines of a grid with the rule after as many header lines as given. -/
def layout (max headers : Nat) (lines : List GridLine) : List (List Char) :=
  let clipped := lines.map fun line => line.map (clip max)
  let widths := columnWidths clipped
  let texts := clipped.map (lineText widths)
  if 0 < headers ∧ headers ≤ lines.length then
    texts.take headers ++ ruleText widths :: texts.drop headers
  else texts

/-- A grid as a text; every line ends with a line break. -/
def text (max headers : Nat) (lines : List GridLine) : List Char :=
  (layout max headers lines).flatMap fun line => line ++ ['\n']

end Grid

end SqlDraft
