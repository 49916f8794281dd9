import SqlDraft.Lexeme
import SqlDraft.Text.Words

/-!
# Effects

Whether a draft drops a table, and whether it changes stored data or structure at all.
-/

namespace SqlDraft

def changingNames : List String :=
  ["ALTER", "TRUNCATE"]

def dropsTable (ts : List Token) : Bool :=
  occurs [.keyword .DROP, .keyword .TABLE] ts

def Token.startsChange : Token → Bool
  | keyword .INSERT | keyword .UPDATE | keyword .DELETE | keyword .CREATE | keyword .DROP => true
  | ident name => changingNames.any fun word => sameName word name
  | _ => false

def changesData (ts : List Token) : Bool :=
  ts.head?.any Token.startsChange

end SqlDraft
