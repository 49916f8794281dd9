import SqlDraft.Json.Number
import SqlDraft.Json.Text

/-!
# JSON values

Any JSON value, its compact text, and its reader, which admits a limited number of brackets inside
one another.
-/

namespace SqlDraft.Json

/-- A JSON value.  The members of an object are in the order of their keys, each key once. -/
inductive Value
  | null
  | bool (b : Bool)
  | number (n : Number)
  | string (text : String)
  | list (items : List Value)
  | object (members : List (String × Value))
  deriving Repr

/-- Adds a member to an object in the place of its key, or in that of an earlier member with the
same key. -/
def putMember {α : Type} (key : String) (value : α) :
    List (String × α) → List (String × α)
  | [] => [(key, value)]
  | (k, v) :: rest =>
    if key < k then (key, value) :: (k, v) :: rest
    else if key = k then (key, value) :: rest
    else (k, v) :: putMember key value rest

def commaSeparated : List (List Char) → List Char
  | [] => []
  | [t] => t
  | t :: ts => t ++ ',' :: commaSeparated ts

def listText (items : List (List Char)) : List Char :=
  '[' :: commaSeparated items ++ [']']

def objectText (members : List (String × List Char)) : List Char :=
  '\x7b' :: commaSeparated (members.map fun (key, value) => quote key.toList ++ ':' :: value) ++
    ['\x7d']

namespace Value

mutual

def text : Value → List Char
  | null => ['n', 'u', 'l', 'l']
  | bool true => ['t', 'r', 'u', 'e']
  | bool false => ['f', 'a', 'l', 's', 'e']
  | number n => n.text
  | string s => quote s.toList
  | list items => listText (texts items)
  | object members => objectText (memberTexts members)

def texts : List Value → List (List Char)
  | [] => []
  | v :: vs => v.text :: texts vs

def memberTexts : List (String × Value) → List (String × List Char)
  | [] => []
  | (key, v) :: rest => (key, v.text) :: memberTexts rest

end

/-- Reads a value, with at most so many brackets inside one another. -/
def read : Nat → Reader Value
  | levels, cs =>
    match skipSpace cs with
    | [] => .error .ended
    | 'n' :: rest => (word ['u', 'l', 'l'] rest).map fun rest => (null, rest)
    | 't' :: rest => (word ['r', 'u', 'e'] rest).map fun rest => (bool true, rest)
    | 'f' :: rest => (word ['a', 'l', 's', 'e'] rest).map fun rest => (bool false, rest)
    | '"' :: rest => (Json.text rest).map fun (s, rest) => (string (String.ofList s), rest)
    | '[' :: rest =>
      match levels with
      | 0 => .error .malformed
      | inner + 1 => (elements (read inner) rest).map fun (items, rest) => (list items, rest)
    | '\x7b' :: rest =>
      match levels with
      | 0 => .error .malformed
      | inner + 1 =>
        let entry := fun members cs => do
          let (key, rest) ← Json.text cs
          let (value, rest) ← read inner (← colon rest)
          return (putMember (String.ofList key) value members, rest)
        (entries entry [] rest).map fun (members, rest) => (object members, rest)
    | c :: rest =>
      if c = '-' ∨ c.isDigit then
        (Json.number (c :: rest)).map fun (n, rest) => (number n, rest)
      else .error .malformed

end Value

/-- Reads past a value without regard to the size of its numbers.  There are no more brackets inside
one another than characters in the first text, which is the text itself at the start. -/
def skipWithin : List Char → List Char → Except Fault (List Char)
  | levels, cs =>
    match skipSpace cs with
    | [] => .error .ended
    | 'n' :: rest => word ['u', 'l', 'l'] rest
    | 't' :: rest => word ['r', 'u', 'e'] rest
    | 'f' :: rest => word ['a', 'l', 's', 'e'] rest
    | '"' :: rest => skipText rest
    | '[' :: rest =>
      match levels with
      | [] => .error .ended
      | _ :: inner =>
        (elements (fun cs => (skipWithin inner cs).map fun rest => ((), rest)) rest).map Prod.snd
    | '\x7b' :: rest =>
      match levels with
      | [] => .error .ended
      | _ :: inner =>
        let entry := fun (_ : Unit) cs => do
          let rest ← skipWithin inner (← colon (← skipText cs))
          return ((), rest)
        (entries entry () rest).map Prod.snd
    | c :: rest =>
      if c = '-' ∨ c.isDigit then (literal .malformed (c :: rest)).map Prod.snd
      else .error .malformed

def skipValue (cs : List Char) : Except Fault (List Char) :=
  skipWithin cs cs

/-- The fault that is met where another kind of value was wanted.  A scalar is read to its end
first, so a fault inside it comes before its kind. -/
def unwanted (cs : List Char) : Fault :=
  let faultOf (reading : Except Fault Unit) : Fault :=
    match reading with
    | .ok () => .mismatched
    | .error fault => fault
  match skipSpace cs with
  | [] => .ended
  | 'n' :: rest => faultOf ((word ['u', 'l', 'l'] rest).map fun _ => ())
  | 't' :: rest => faultOf ((word ['r', 'u', 'e'] rest).map fun _ => ())
  | 'f' :: rest => faultOf ((word ['a', 'l', 's', 'e'] rest).map fun _ => ())
  | '"' :: rest => faultOf ((text rest).map fun _ => ())
  | '[' :: _ => .mismatched
  | '\x7b' :: _ => .mismatched
  | c :: rest =>
    if c = '-' ∨ c.isDigit then faultOf ((number (c :: rest)).map fun _ => ()) else .malformed

end SqlDraft.Json
