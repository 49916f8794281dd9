/-!
# Reading JSON from left to right

A reader takes a value off the front of a text or reports the first fault that it meets.  The
readers for lists and for the entries of objects are the same whatever stands inside.
-/

namespace SqlDraft.Json

/-- What is wrong with a text, at the first place where something is. -/
inductive Fault
  | ended
  | malformed
  /-- The value is JSON, but not of the shape that is wanted. -/
  | mismatched
  deriving DecidableEq, Repr

/-- Takes a value off the front of a text and gives the text after it, or the first fault. -/
abbrev Reader (α : Type) := List Char → Except Fault (α × List Char)

def isSpace (c : Char) : Bool :=
  c == ' ' || c == '\n' || c == '\t' || c == '\r'

def skipSpace (cs : List Char) : List Char :=
  cs.dropWhile isSpace

def word : List Char → List Char → Except Fault (List Char)
  | [], cs => .ok cs
  | _ :: _, [] => .error .ended
  | w :: ws, c :: cs => if c = w then word ws cs else .error .malformed

def colon (cs : List Char) : Except Fault (List Char) :=
  match skipSpace cs with
  | [] => .error .ended
  | ':' :: rest => .ok rest
  | _ => .error .malformed

/-- Reads the elements of a list, from one element on.  There are no more of them than characters
in the first text, which is the text itself at the start. -/
def elementsFrom {α : Type} (item : Reader α) : List Char → Reader (List α)
  | [], _ => .error .ended
  | _ :: bound, cs => do
    let (x, rest) ← item cs
    match skipSpace rest with
    | [] => .error .ended
    | ']' :: rest => return ([x], rest)
    | ',' :: rest =>
      match skipSpace rest with
      | [] => .error .ended
      | ']' :: _ => .error .malformed
      | rest =>
        let (xs, rest) ← elementsFrom item bound rest
        return (x :: xs, rest)
    | _ => .error .malformed

def elements {α : Type} (item : Reader α) : Reader (List α) := fun cs =>
  match skipSpace cs with
  | [] => .error .ended
  | ']' :: rest => .ok ([], rest)
  | rest => elementsFrom item rest rest

/-- Reads the entries of an object from the quote of a key on, each into what the entries before it
have given.  There are no more of them than characters in the first text, which is the text itself
at the start. -/
def entriesFrom {σ : Type} (entry : σ → Reader σ) : List Char → σ → Reader σ
  | [], _, _ => .error .ended
  | _ :: bound, s, cs =>
    match cs with
    | [] => .error .ended
    | '"' :: rest => do
      let (s, rest) ← entry s rest
      match skipSpace rest with
      | [] => .error .ended
      | '\x7d' :: rest => return (s, rest)
      | ',' :: rest => entriesFrom entry bound s (skipSpace rest)
      | _ => .error .malformed
    | _ => .error .malformed

/-- Reads the entries of an object after its opening brace.  An entry is read from after the quote
that opens its key. -/
def entries {σ : Type} (entry : σ → Reader σ) (s : σ) : Reader σ := fun cs =>
  match skipSpace cs with
  | '\x7d' :: rest => .ok (s, rest)
  | rest => entriesFrom entry rest s rest

end SqlDraft.Json
