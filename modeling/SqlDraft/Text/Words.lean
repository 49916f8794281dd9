import SqlDraft.Text.Numeric

/-!
# Words and runs

A word is a longest run of letters and numerals.  A run of patterns occurs in a list when it
matches consecutive members somewhere.
-/

namespace SqlDraft

/-- The word that a text starts with, which may be empty, and the words after it. -/
def leadingWord : List Char → List Char × List (List Char)
  | [] => ([], [])
  | c :: cs =>
    let (word, later) := leadingWord cs
    if isAlphanumeric c then (c :: word, later)
    else ([], if word.isEmpty then later else word :: later)

def words (text : List Char) : List (List Char) :=
  let (word, later) := leadingWord text
  if word.isEmpty then later else word :: later

/-- Whether the members at the front of a list match the patterns one by one. -/
def startsBy {α β : Type} (fits : α → β → Bool) : List β → List α → Bool
  | [], _ => true
  | _ :: _, [] => false
  | pattern :: patterns, x :: xs => fits x pattern && startsBy fits patterns xs

/-- Whether consecutive members of a list, starting anywhere, match the patterns one by one. -/
def occursBy {α β : Type} (fits : α → β → Bool) (patterns : List β) : List α → Bool
  | [] => startsBy fits patterns []
  | x :: xs => startsBy fits patterns (x :: xs) || occursBy fits patterns xs

def occurs {α : Type} [BEq α] (run list : List α) : Bool :=
  occursBy (fun x y => x == y) run list

end SqlDraft
