import SqlDraft.Text.Letters

/-!
# Tokens

The vocabulary of a draft: the keywords that its reading depends on, names, literals and symbols.
A word that is no keyword is a name, so `DEFAULT` or `MAX` are names here.
-/

namespace SqlDraft

inductive Keyword
  | CREATE | TABLE | IF | NOT | EXISTS
  | INSERT | INTO | VALUES | FROM | UPDATE | DELETE | DROP | SELECT | WHERE | AS
  | PRIMARY | FOREIGN | CONSTRAINT | KEY | UNIQUE | CHECK
  deriving DecidableEq, Repr

namespace Keyword

def spelling : Keyword → String
  | CREATE => "CREATE"
  | TABLE => "TABLE"
  | IF => "IF"
  | NOT => "NOT"
  | EXISTS => "EXISTS"
  | INSERT => "INSERT"
  | INTO => "INTO"
  | VALUES => "VALUES"
  | FROM => "FROM"
  | UPDATE => "UPDATE"
  | DELETE => "DELETE"
  | DROP => "DROP"
  | SELECT => "SELECT"
  | WHERE => "WHERE"
  | AS => "AS"
  | PRIMARY => "PRIMARY"
  | FOREIGN => "FOREIGN"
  | CONSTRAINT => "CONSTRAINT"
  | KEY => "KEY"
  | UNIQUE => "UNIQUE"
  | CHECK => "CHECK"

def all : List Keyword :=
  [CREATE, TABLE, IF, NOT, EXISTS, INSERT, INTO, VALUES, FROM, UPDATE, DELETE, DROP, SELECT,
   WHERE, AS, PRIMARY, FOREIGN, CONSTRAINT, KEY, UNIQUE, CHECK]

theorem mem_all (k : Keyword) : k ∈ all := by
  cases k <;> decide

def ofCapitals? (capitalised : List Char) : Option Keyword :=
  all.find? fun k => k.spelling.toList == capitalised

/-- The keyword that a word spells in letters of any case. -/
def ofWord? (word : List Char) : Option Keyword :=
  ofCapitals? (capitals word)

end Keyword

inductive Symbol
  | openParen | closeParen | comma | semicolon | dot | star
  deriving DecidableEq, Repr

namespace Symbol

def char : Symbol → Char
  | openParen => '('
  | closeParen => ')'
  | comma => ','
  | semicolon => ';'
  | dot => '.'
  | star => '*'

def ofChar? : Char → Option Symbol
  | '(' => some openParen
  | ')' => some closeParen
  | ',' => some comma
  | ';' => some semicolon
  | '.' => some dot
  | '*' => some star
  | _ => none

theorem char_of_ofChar? {c : Char} {s : Symbol} (h : ofChar? c = some s) : c = s.char := by
  unfold ofChar? at h
  split at h <;> simp_all [char] <;> subst h <;> rfl

end Symbol

/-- What a stretch of a draft says.  Names and literals carry their content: quotes are off and
doubled quotes are single. -/
inductive Token
  | keyword (word : Keyword)
  | ident (name : String)
  | str (content : String)
  | num (digits : String)
  | symbol (mark : Symbol)
  | eof
  deriving DecidableEq, Repr

namespace Token

def isKeyword : Token → Bool
  | keyword _ => true
  | _ => false

def content? : Token → Option String
  | ident name => some name
  | str content => some content
  | num digits => some digits
  | _ => none

/-- The token that an unquoted word stands for. -/
def ofWord (word : List Char) : Token :=
  match Keyword.ofWord? word with
  | some k => keyword k
  | none => ident (String.ofList word)

end Token

end SqlDraft
