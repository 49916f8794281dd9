import SqlDraft.Layout.Report
import SqlDraft.Session.Basic

/-!
# Command line

The arguments of the command and what it prints: the preview of a draft and, when a question is
asked, the checklist for it.
-/

namespace SqlDraft.CommandLine

structure Arguments where
  /-- The file that holds the draft, or `-` for the standard input. -/
  draft : String
  question : Option String
  snapshot : Option String
  placeholder : Option String
  maxCellWidth : Option Nat
  deriving DecidableEq, Repr

inductive UsageError
  | missingDraft
  | unexpected (argument : String)
  | missingValue (option : String)
  | repeated (option : String)
  | invalidWidth (text : String)
  deriving DecidableEq, Repr

def widthLimit : Nat := 0x10000000000000000

/-- The cell width that a text spells: digits, maybe after a plus. -/
def width? (text : String) : Option Nat :=
  let digits :=
    match text.toList with
    | '+' :: rest => rest
    | cs => cs
  if digits.isEmpty || !digits.all Char.isDigit then none
  else
    let n := digits.foldl (fun n c => n * 10 + (c.toNat - '0'.toNat)) 0
    if n < widthLimit then some n else none

inductive ValueOption
  | question
  | snapshot
  | placeholder
  | maxCellWidth
  deriving DecidableEq, Repr

namespace ValueOption

def ofName? (name : String) : Option ValueOption :=
  match name with
  | "--question" | "-q" => some question
  | "--snapshot" | "-s" => some snapshot
  | "--placeholder" => some placeholder
  | "--max-cell-width" => some maxCellWidth
  | _ => none

end ValueOption

structure Collected where
  draft : Option String
  question : Option String
  snapshot : Option String
  placeholder : Option String
  maxCellWidth : Option Nat
  deriving DecidableEq, Repr

def setOnce {α : Type} (name : String) (before : Option α) (value : α) :
    Except UsageError (Option α) :=
  if before.isSome then .error (.repeated name) else .ok (some value)

def setOption (p : Collected) (name : String) (option : ValueOption) (value : String) :
    Except UsageError Collected := do
  match option with
  | .question => return { p with question := ← setOnce name p.question value }
  | .snapshot => return { p with snapshot := ← setOnce name p.snapshot value }
  | .placeholder => return { p with placeholder := ← setOnce name p.placeholder value }
  | .maxCellWidth =>
    match width? value with
    | some n => return { p with maxCellWidth := ← setOnce name p.maxCellWidth n }
    | none => .error (.invalidWidth value)

def setDraft (p : Collected) (draft : String) : Except UsageError Collected := do
  if p.draft.isSome then .error (.unexpected draft)
  else return { p with draft := some draft }

def splitValue? (argument : String) : Option (String × String) :=
  let cs := argument.toList
  match cs.dropWhile fun c => c != '=' with
  | [] => none
  | _ :: value =>
    some (String.ofList (cs.takeWhile fun c => c != '='), String.ofList value)

def isOption (argument : String) : Bool :=
  -- A minus alone is no option but the standard input.
  match argument.toList with
  | '-' :: _ :: _ => true
  | _ => false

def readFrom (p : Collected) : List String → Except UsageError Collected
  | [] => .ok p
  | argument :: rest =>
    if isOption argument then
      match splitValue? argument with
      | some (name, value) =>
        match ValueOption.ofName? name with
        | some option => do readFrom (← setOption p name option value) rest
        | none => .error (.unexpected argument)
      | none =>
        match ValueOption.ofName? argument, rest with
        | some option, value :: rest => do readFrom (← setOption p argument option value) rest
        | some _, [] => .error (.missingValue argument)
        | none, _ => .error (.unexpected argument)
    else do readFrom (← setDraft p argument) rest

def read (arguments : List String) : Except UsageError Arguments := do
  let p ← readFrom ⟨none, none, none, none, none⟩ arguments
  match p.draft with
  | some draft => return ⟨draft, p.question, p.snapshot, p.placeholder, p.maxCellWidth⟩
  | none => .error .missingDraft

def UsageError.message : UsageError → String
  | missingDraft => "no draft is given"
  | unexpected argument => "unexpected argument " ++ argument
  | missingValue option => "a value is required for " ++ option
  | repeated option => "the option " ++ option ++ " cannot be given twice"
  | invalidWidth text => "no cell width: " ++ text

def options (a : Arguments) : ReportOptions :=
  let standard := ReportOptions.standard
  { standard with
    placeholder := a.placeholder.getD standard.placeholder
    maxCellWidth := a.maxCellWidth.getD standard.maxCellWidth }

/-- The session of a draft into which the text of a response has been delivered.  It is ignored if
no table is shown. -/
def sessionOf (draft : String) (snapshot : Option String) : Session :=
  let s := Session.new.setDraft draft
  match snapshot with
  | none => s
  | some json =>
    match s.requestSnapshot with
    | (some ticket, s) => (s.deliver ticket (.ofJson json)).2
    | (none, s) => s

def output (a : Arguments) (draft : String) (snapshot : Option String) : String :=
  let s := sessionOf draft snapshot
  let preview := Report.preview (options a) s.preview
  match a.question with
  | none => preview
  | some question =>
    let s := s.ask question
    preview ++ "\n" ++ Report.checklist s.roadmap s.progress

def fileErrorCode : Nat := 1

def usageErrorCode : Nat := 2

end SqlDraft.CommandLine
