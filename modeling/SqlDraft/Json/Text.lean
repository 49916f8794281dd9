import SqlDraft.Json.Reader
import SqlDraft.Text.Bytes

/-!
# Strings in JSON

Writing a string escapes quotes, backslashes and control characters.  Reading one undoes every
escape; a character beyond the first 65536 may be spelled as a pair of surrogates.
-/

namespace SqlDraft.Json

/-! ## Writing -/

def hexDigit (n : Nat) : Char :=
  Nat.digitChar n

def escape (c : Char) : List Char :=
  if c = '"' then ['\\', '"']
  else if c = '\\' then ['\\', '\\']
  else if c = '\x08' then ['\\', 'b']
  else if c = '\t' then ['\\', 't']
  else if c = '\n' then ['\\', 'n']
  else if c = '\x0c' then ['\\', 'f']
  else if c = '\r' then ['\\', 'r']
  else if c.toNat < 32 then
    ['\\', 'u', '0', '0', hexDigit (c.toNat / 16), hexDigit (c.toNat % 16)]
  else [c]

def quote (text : List Char) : List Char :=
  '"' :: text.flatMap escape ++ ['"']

/-! ## Reading -/

def hexValue? (c : Char) : Option Nat :=
  if c.isDigit then some (c.toNat - '0'.toNat)
  else if 'a' ≤ c ∧ c ≤ 'f' then some (c.toNat - 'a'.toNat + 10)
  else if 'A' ≤ c ∧ c ≤ 'F' then some (c.toNat - 'A'.toNat + 10)
  else none

/-- The number that four hexadecimal digits spell.  The text has ended if it has fewer than four
bytes left. -/
def hexNumber (cs : List Char) : Except Fault Nat :=
  match cs with
  | a :: b :: c :: d :: _ =>
    match hexValue? a, hexValue? b, hexValue? c, hexValue? d with
    | some a, some b, some c, some d => .ok (((a * 16 + b) * 16 + c) * 16 + d)
    | _, _, _, _ => .error .malformed
  | _ => if byteSize cs < 4 then .error .ended else .error .malformed

def isLeadingSurrogate (n : Nat) : Bool :=
  0xD800 ≤ n && n ≤ 0xDBFF

def isTrailingSurrogate (n : Nat) : Bool :=
  0xDC00 ≤ n && n ≤ 0xDFFF

def surrogatePair (leading trailing : Nat) : Char :=
  Char.ofNat (0x10000 + (leading - 0xD800) * 0x400 + (trailing - 0xDC00))

/-- The character that `\u` and four digits stand for, and the number of characters after the `u`
that spell it.  A leading surrogate has to be followed by a trailing one. -/
def unicodeEscape (cs : List Char) : Except Fault (Char × Nat) := do
  let n ← hexNumber cs
  if isTrailingSurrogate n then .error .malformed
  else if isLeadingSurrogate n then
    match cs.drop 4 with
    | [] => .error .ended
    | '\\' :: [] => .error .ended
    | '\\' :: 'u' :: rest =>
      let m ← hexNumber rest
      if isTrailingSurrogate m then return (surrogatePair n m, 10) else .error .malformed
    | _ => .error .malformed
  else return (Char.ofNat n, 4)

/-- The character that a letter after a backslash stands for, `u` apart. -/
def shortEscape? (c : Char) : Option Char :=
  match c with
  | '"' => some '"'
  | '\\' => some '\\'
  | '/' => some '/'
  | 'b' => some '\x08'
  | 'f' => some '\x0c'
  | 'n' => some '\n'
  | 'r' => some '\r'
  | 't' => some '\t'
  | _ => none

/-- How the readers of strings treat `\u`: the character that it stands for and the number of
characters after the `u` that belong to it. -/
abbrev UnicodeRule := List Char → Except Fault (Char × Nat)

/-- The character that an escape stands for, read after its backslash, and the number of
characters that spell it. -/
def escaped (unicode : UnicodeRule) (cs : List Char) : Except Fault (Char × Nat) :=
  match cs with
  | [] => .error .ended
  | c :: rest =>
    if c = 'u' then do
      let (d, n) ← unicode rest
      return (d, n + 1)
    else
      match shortEscape? c with
      | some d => .ok (d, 1)
      | none => .error .malformed

/-- Reads a string to its closing quote, after as many characters as given that belong to an
escape already read. -/
def textAfter (unicode : UnicodeRule) : Nat → Reader (List Char)
  | _, [] => .error .ended
  | skip + 1, _ :: cs => textAfter unicode skip cs
  | 0, c :: cs =>
    if c = '"' then .ok ([], cs)
    else if c = '\\' then
      match escaped unicode cs with
      | .error fault => .error fault
      | .ok (d, n) => (textAfter unicode n cs).map fun (text, rest) => (d :: text, rest)
    else if c.toNat < 32 then .error .malformed
    else (textAfter unicode 0 cs).map fun (text, rest) => (c :: text, rest)

def text : Reader (List Char) :=
  textAfter unicodeEscape 0

/-- Reads past a string after its opening quote.  Surrogates need not be paired there. -/
def skipText (cs : List Char) : Except Fault (List Char) :=
  (textAfter (fun cs => (hexNumber cs).map fun _ => (' ', 4)) 0 cs).map Prod.snd

end SqlDraft.Json
