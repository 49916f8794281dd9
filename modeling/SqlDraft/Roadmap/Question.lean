import SqlDraft.Text.Letters
import SqlDraft.Text.Words

/-!
# Questions

A question is a list of small words.  It mentions a term when the term's words stand next to each
other in it, longer ones possibly with a plural or verb ending.
-/

namespace SqlDraft

/-- The words of a term, in small letters. -/
abbrev Term := List String

def endings : List String :=
  ["s", "es", "ed", "ing"]

/-- A word without the final `e` that an ending replaces. -/
def stem (word : List Char) : List Char :=
  if word.getLast? = some 'e' then word.dropLast else word

def afterBeginning? (beginning text : List Char) : Option (List Char) :=
  if beginning.isPrefixOf text then some (text.drop beginning.length) else none

/-- Whether a word of a question is a word of a term, or has it as its stem.  Words of fewer than
four letters match as they are only. -/
def inflects (word : List Char) (termWord : String) : Bool :=
  let base := termWord.toList
  if word == base then true
  else if base.length < 4 then false
  else
    match afterBeginning? (stem base) word with
    | some ending => endings.any fun e => e.toList == ending
    | none => false

structure Question where
  words : List (List Char)
  deriving DecidableEq, Repr

namespace Question

def ofText (text : String) : Question :=
  ⟨SqlDraft.words (smalls text.toList)⟩

def mentions (q : Question) (terms : List Term) : Bool :=
  terms.any fun term => occursBy inflects term q.words

end Question

end SqlDraft
