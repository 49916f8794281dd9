import SqlDraft.Column
import SqlDraft.Reading.Group
import SqlDraft.Reading.Reference

/-!
# Table definitions

The name and the columns of a `CREATE TABLE` shape.  A definition need not be finished: the columns
are those that are there so far.
-/

namespace SqlDraft

structure Definition where
  table : String
  columns : List Column
  deriving DecidableEq, Repr

/-- The words that start a constraint on the whole table where a column could stand. -/
def constraintWords : List String :=
  ["PRIMARY", "FOREIGN", "CONSTRAINT", "KEY", "UNIQUE", "CHECK"]

def clauseNames : List String :=
  ["DEFAULT", "REFERENCES", "NULL", "COLLATE", "GENERATED"]

def endsType : Token → Bool
  | .keyword .NOT | .keyword .CONSTRAINT | .keyword .CHECK | .keyword .PRIMARY
  | .keyword .UNIQUE => true
  | .str _ => true
  | .ident name => clauseNames.any fun clause => sameName clause name
  | _ => false

def typeLexemes (ls : List Lexeme) : List Lexeme :=
  ls.takeWhile fun l => !endsType l.token

namespace Column

/-- The column that a part of a definition describes.  Parts that start with no word describe
none, and neither do constraints. -/
def ofFragment? : List Lexeme → Option Column
  | [] => none
  | l :: ls => do
    let name ← l.word?
    if constraintWords.any fun word => sameName word name then none
    else some ⟨name, .infer (Lexeme.source (typeLexemes ls))⟩

end Column

namespace Definition

def atFront? (ls : List Lexeme) : Option Definition := do
  let rest ← after? [.keyword .CREATE, .keyword .TABLE] ls
  let (table, rest) ← tableName? (afterOptional ifNotExists rest)
  let body ← after? [.symbol .openParen] rest
  return ⟨table, (Group.read body).fragments.filterMap Column.ofFragment?⟩

def ofLexemes? (ls : List Lexeme) : Option Definition :=
  firstFrom atFront? ls

def ofDraft? (draft : String) : Option Definition :=
  ofLexemes? (lexemes draft)

end Definition

end SqlDraft
