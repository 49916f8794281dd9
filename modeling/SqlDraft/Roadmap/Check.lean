import SqlDraft.Lexeme
import SqlDraft.Text.Words

/-!
# Checks

The conditions that the steps of a roadmap put on a draft.  Each looks at tokens only, so it can
hold long before the draft is a statement.
-/

namespace SqlDraft

inductive Check
  | aggregateCall
  | fromClause
  | asAlias
  | deleteFrom
  | whereClause
  | selectKeyword
  | createTable
  | ifNotExists
  /-- It has an opening parenthesis and a closing one somewhere after it. -/
  | parenGroup
  deriving DecidableEq, Repr

namespace Check

def all : List Check :=
  [aggregateCall, fromClause, asAlias, deleteFrom, whereClause, selectKeyword, createTable,
   ifNotExists, parenGroup]

def aggregateNames : List String :=
  ["MAX", "MIN", "AVG", "COUNT", "SUM"]

def isAggregate : Token → Bool
  | .ident name => aggregateNames.any fun f => sameName f name
  | _ => false

def holdsIn (check : Check) (ts : List Token) : Bool :=
  match check with
  | aggregateCall => ts.any isAggregate
  | fromClause => ts.contains (.keyword .FROM)
  | asAlias => ts.contains (.keyword .AS)
  | deleteFrom => occurs [.keyword .DELETE, .keyword .FROM] ts
  | whereClause => ts.contains (.keyword .WHERE)
  | selectKeyword => ts.contains (.keyword .SELECT)
  | createTable => occurs [.keyword .CREATE, .keyword .TABLE] ts
  | ifNotExists => occurs [.keyword .IF, .keyword .NOT, .keyword .EXISTS] ts
  | parenGroup =>
    (ts.dropWhile fun t => t != .symbol .openParen).contains (.symbol .closeParen)

def holds (check : Check) (draft : String) : Bool :=
  check.holdsIn (tokens draft)

end Check

end SqlDraft
