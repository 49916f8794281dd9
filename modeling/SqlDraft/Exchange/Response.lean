import SqlDraft.Json.Value

/-!
# Responses

What the service that executes statements answers: a status, maybe a message, the names of columns
and rows of text.  A response is read from JSON strictly from left to right, so of several faults
the first counts.  It may be an object, in which unknown fields are passed over, or a list of its
fields in their order.
-/

namespace SqlDraft

inductive Status
  | success
  | error
  deriving DecidableEq, Repr

structure Response where
  status : Status
  message : Option String
  columns : List String
  data : List (List String)
  deriving DecidableEq, Repr

namespace Status

def name : Status → String
  | success => "success"
  | error => "error"

def ofName? (name : String) : Option Status :=
  if name = "success" then some success
  else if name = "error" then some error
  else none

@[simp] theorem ofName?_name (s : Status) : ofName? s.name = some s := by
  cases s <;> rfl

end Status

namespace Response

open Json

def isSuccess (r : Response) : Bool :=
  r.status == .success

/-! ## Writing -/

inductive FieldName
  | status
  | message
  | columns
  | data
  deriving DecidableEq, Repr

namespace FieldName

def key : FieldName → String
  | status => "status"
  | message => "message"
  | columns => "columns"
  | data => "data"

def ofKey? (key : String) : Option FieldName :=
  [status, message, columns, data].find? fun field => field.key == key

end FieldName

def stringsText (items : List String) : List Char :=
  listText (items.map fun s => quote s.toList)

/-- A response as JSON.  An absent message is left out. -/
def encode (r : Response) : String :=
  let message := r.message.map fun message => (FieldName.message.key, quote message.toList)
  String.ofList <| objectText <|
    (FieldName.status.key, quote r.status.name.toList) :: message.toList ++
      [(FieldName.columns.key, stringsText r.columns),
       (FieldName.data.key, listText (r.data.map stringsText))]

/-! ## Reading the fields -/

/-- The text of a cell: a string as it is, `NULL` for null, and JSON for anything else. -/
def cellOfValue : Value → String
  | .string s => s
  | .null => "NULL"
  | v => String.ofList v.text

def readString : Reader String := fun cs =>
  match skipSpace cs with
  | '"' :: rest => (text rest).map fun (s, rest) => (String.ofList s, rest)
  | rest => .error (unwanted rest)

def readList {α : Type} (item : Reader α) : Reader (List α) := fun cs =>
  match skipSpace cs with
  | '[' :: rest => elements item rest
  | rest => .error (unwanted rest)

def readStatusName : Reader Status := fun cs => do
  let (name, rest) ← readString cs
  match Status.ofName? name with
  | some status => return (status, rest)
  | none => .error .mismatched

/-- Reads the name of a status as the key of an object; anything but a string there is no JSON. -/
def readStatusKey : Reader Status := fun cs =>
  match skipSpace cs with
  | [] => .error .ended
  | '"' :: rest => readStatusName ('"' :: rest)
  | _ => .error .malformed

def readNull (cs : List Char) : Except Fault (List Char) :=
  match skipSpace cs with
  | 'n' :: rest => word ['u', 'l', 'l'] rest
  | rest => .error (unwanted rest)

/-- Reads a status: its name, or an object whose only key is its name. -/
def readStatus : Reader Status := fun cs =>
  match skipSpace cs with
  | [] => .error .ended
  | '"' :: rest => readStatusName ('"' :: rest)
  | '\x7b' :: rest => do
    let (status, rest) ← readStatusKey rest
    let rest ← readNull (← colon rest)
    match skipSpace rest with
    | [] => .error .ended
    | '\x7d' :: rest => return (status, rest)
    | _ => .error .malformed
  | _ => .error .malformed

def readMessage : Reader (Option String) := fun cs =>
  match skipSpace cs with
  | 'n' :: rest => (word ['u', 'l', 'l'] rest).map fun rest => (none, rest)
  | rest => (readString rest).map fun (message, rest) => (some message, rest)

/-- The number of brackets that may stand inside one another in a response. -/
def maxNesting : Nat := 127

/-- Reads a cell, which stands inside three brackets. -/
def readCell : Reader String := fun cs =>
  (Value.read (maxNesting - 3) cs).map fun (v, rest) => (cellOfValue v, rest)

def readColumns : Reader (List String) :=
  readList readString

def readData : Reader (List (List String)) :=
  readList (readList readCell)

/-! ## Objects -/

structure Fields where
  status : Option Status
  message : Option (Option String)
  columns : Option (List String)
  data : Option (List (List String))
  deriving DecidableEq, Repr

def noFields : Fields :=
  ⟨none, none, none, none⟩

/-- Reads the value of a field that has not been read before. -/
def readField {α : Type} (before : Option α) (value : Reader α) : Reader α := fun cs =>
  if before.isSome then .error .mismatched
  else do value (← colon cs)

/-- Reads an entry of a response from after the quote that opens its key. -/
def readEntry (fields : Fields) : Reader Fields := fun cs => do
  let (key, rest) ← text cs
  match FieldName.ofKey? (String.ofList key) with
  | some .status =>
    let (status, rest) ← readField fields.status readStatus rest
    return ({ fields with status := some status }, rest)
  | some .message =>
    let (message, rest) ← readField fields.message readMessage rest
    return ({ fields with message := some message }, rest)
  | some .columns =>
    let (columns, rest) ← readField fields.columns readColumns rest
    return ({ fields with columns := some columns }, rest)
  | some .data =>
    let (data, rest) ← readField fields.data readData rest
    return ({ fields with data := some data }, rest)
  | none => return (fields, ← skipValue (← colon rest))

def readObject : Reader Response := fun cs => do
  let (fields, rest) ← entries readEntry noFields cs
  match fields.status with
  | some status =>
    return (⟨status, fields.message.getD none, fields.columns.getD [], fields.data.getD []⟩, rest)
  | none => .error .mismatched

/-! ## Lists -/

/-- Reads the next field of a list, if the list has one.  Fields after the first are preceded by
commas. -/
def readNext {α : Type} (isFirst : Bool) (value : Reader α) : Reader (Option α) := fun cs =>
  match skipSpace cs with
  | [] => .error .ended
  | ']' :: rest => .ok (none, ']' :: rest)
  | c :: rest =>
    if isFirst then (value (c :: rest)).map fun (x, rest) => (some x, rest)
    else if c = ',' then
      match skipSpace rest with
      | [] => .error .ended
      | ']' :: _ => .error .malformed
      | rest => (value rest).map fun (x, rest) => (some x, rest)
    else .error .malformed

def readClosing (cs : List Char) : Except Fault (List Char) :=
  match skipSpace cs with
  | [] => .error .ended
  | ']' :: rest => .ok rest
  | _ => .error .malformed

/-- Reads a response that is a list, after its opening bracket.  Fields at the end may be left
out. -/
def readSequence : Reader Response := fun cs => do
  let (status, rest) ← readNext true readStatus cs
  match status with
  | none => .error .mismatched
  | some status =>
    let (message, rest) ← readNext false readMessage rest
    let (columns, rest) ← readNext false readColumns rest
    let (data, rest) ← readNext false readData rest
    let rest ← readClosing rest
    return (⟨status, message.getD none, columns.getD [], data.getD []⟩, rest)

/-! ## Whole texts -/

def read : Reader Response := fun cs =>
  match skipSpace cs with
  | '\x7b' :: rest => readObject rest
  | '[' :: rest => readSequence rest
  | rest => .error (unwanted rest)

def decode (json : String) : Except Fault Response := do
  let (response, rest) ← read json.toList
  match skipSpace rest with
  | [] => return response
  | _ => .error .malformed

end Response

end SqlDraft
