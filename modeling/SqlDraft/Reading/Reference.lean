import SqlDraft.Lexeme

/-!
# Table references

The table that a draft is about is named after one of a few shapes.  The shapes have an order of
precedence: a later one counts only if no earlier one occurs anywhere in the draft.
-/

namespace SqlDraft

def after? : List Token → List Lexeme → Option (List Lexeme)
  | [], ls => some ls
  | _ :: _, [] => none
  | t :: ts, l :: ls => if l.token = t then after? ts ls else none

/-- What is left of some lexemes when a shape that may stand in front is taken off. -/
def afterOptional (shape : List Token) (ls : List Lexeme) : List Lexeme :=
  (after? shape ls).getD ls

/-- The first answer that a reading gives on the lexemes from some place on. -/
def firstFrom {α : Type} (reading : List Lexeme → Option α) : List Lexeme → Option α
  | [] => none
  | l :: ls => (reading (l :: ls)).or (firstFrom reading ls)

/-- The table name in front of some lexemes and what follows it.  Of a name in two parts, the last
part is the table's. -/
def tableName? : List Lexeme → Option (String × List Lexeme)
  | [] => none
  | l :: ls =>
    match l.token with
    | .ident name =>
      match ls with
      | point :: inner :: rest =>
        match point.token, inner.token with
        | .symbol .dot, .ident innerName => some (innerName, rest)
        | _, _ => some (name, ls)
      | _ => some (name, ls)
    | _ => none

def ifNotExists : List Token :=
  [.keyword .IF, .keyword .NOT, .keyword .EXISTS]

def ifExists : List Token :=
  [.keyword .IF, .keyword .EXISTS]

def nameAfter? (shape : List Token) (ls : List Lexeme) : Option String := do
  let rest ← after? shape ls
  let (name, _) ← tableName? rest
  return name

def nameAfterTable? (ls : List Lexeme) : Option String := do
  let rest ← after? [.keyword .TABLE] ls
  let (name, _) ← tableName? (afterOptional ifExists (afterOptional ifNotExists rest))
  return name

/-- The table that lexemes refer to: one inserted into, else one read or deleted from, else one
updated, else one created or dropped. -/
def tableReference? (ls : List Lexeme) : Option String :=
  (firstFrom (nameAfter? [.keyword .INSERT, .keyword .INTO]) ls).or <|
  (firstFrom (nameAfter? [.keyword .FROM]) ls).or <|
  (firstFrom (nameAfter? [.keyword .UPDATE]) ls).or <|
  firstFrom nameAfterTable? ls

def referencedTable? (draft : String) : Option String :=
  tableReference? (lexemes draft)

end SqlDraft
