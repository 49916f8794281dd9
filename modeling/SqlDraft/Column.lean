import SqlDraft.Text.Letters
import SqlDraft.Text.Words

/-!
# Columns

A column has a name and a coarse type.  The type is inferred from whatever stands after the name in
a definition, finished or not: anything that does not look numeric is text.
-/

namespace SqlDraft

inductive ColumnType
  | number
  | text
  deriving DecidableEq, Repr

structure Column where
  name : String
  type : ColumnType
  deriving DecidableEq, Repr

namespace ColumnType

def label : ColumnType → String
  | number => "number"
  | text => "text"

def numberMarkers : List String :=
  ["int", "num", "dec", "float", "real", "double", "serial"]

/-- The names of types that hold text although a number marker occurs in them. -/
def textNames : List String :=
  ["enum", "point"]

/-- The type that a type text in small letters stands for.  A number marker anywhere makes it a
number, unless its first word is the name of a type that holds text. -/
def ofSmalls (lowered : List Char) : ColumnType :=
  let name := (words lowered).headD []
  if textNames.any fun textName => textName.toList == name then .text
  else if numberMarkers.any fun marker => occurs marker.toList lowered then .number
  else .text

def infer (typeText : List Char) : ColumnType :=
  ofSmalls (smalls typeText)

end ColumnType

end SqlDraft
