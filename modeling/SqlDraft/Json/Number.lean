import SqlDraft.Json.Reader
import SqlDraft.Number.Shortest

/-!
# Numbers in JSON

A number without point and exponent is a whole number as long as it fits into 64 bits; any other is
a double, as is minus zero.
-/

namespace SqlDraft.Json

inductive Number
  | whole (n : Int)
  | double (negative : Bool) (size : Double)
  deriving DecidableEq, Repr

namespace Number

def text : Number → List Char
  | whole n => (toString n).toList
  | double negative size => if negative then '-' :: size.text else size.text

end Number

structure Literal where
  negative : Bool
  whole : List Char
  fraction : Option (List Char)
  exponent : Option Int
  deriving DecidableEq, Repr

def digitsValue (digits : List Char) : Nat :=
  digits.foldl (fun n c => n * 10 + (c.toNat - '0'.toNat)) 0

/-- The least and the greatest whole number of 64 bits, with and without a sign. -/
def wholeRange : Int × Int :=
  (-0x8000000000000000, 0xFFFFFFFFFFFFFFFF)

/-- Takes digits into a number as long as it fits into 64 bits, and counts those that are left. -/
def takeDigits (n : Nat) : List Char → Nat × Nat
  | [] => (n, 0)
  | c :: cs =>
    let next := n * 10 + (c.toNat - '0'.toNat)
    if next ≤ wholeRange.2 then takeDigits next cs else (n, cs.length + 1)

namespace Literal

/-- The double that a literal is read as, unless it is beyond all doubles.  Digits in front of the
point that are left count as places, and those behind it do not count at all. -/
def double? (l : Literal) : Option Double :=
  let places := l.fraction.getD []
  let (whole, left) := takeDigits 0 l.whole
  let (significand, unread) := takeDigits whole places
  Double.ofScaled? significand (l.exponent.getD 0 + left - (places.length - unread))

def number? (l : Literal) : Option Number :=
  let digits := digitsValue (l.whole ++ l.fraction.getD [])
  let value : Int := if l.negative then -(digits : Int) else digits
  if l.fraction.isNone && l.exponent.isNone && !(l.negative && digits == 0) &&
      wholeRange.1 ≤ value && value ≤ wholeRange.2 then
    some (.whole value)
  else
    l.double?.map (Number.double l.negative)

end Literal

/-- Reads digits, at least one.  `short` is the fault of a text that ends before it. -/
def digits (short : Fault) : Reader (List Char) := fun cs =>
  match cs with
  | [] => .error short
  | c :: _ =>
    if c.isDigit then .ok (cs.takeWhile Char.isDigit, cs.dropWhile Char.isDigit)
    else .error .malformed

def wholeDigits (short : Fault) : Reader (List Char) := fun cs => do
  let (whole, rest) ← digits short cs
  match whole with
  | '0' :: _ :: _ => .error .malformed
  | _ => return (whole, rest)

def fraction (short : Fault) : Reader (Option (List Char)) := fun cs =>
  match cs with
  | '.' :: rest => (digits short rest).map fun (ds, rest) => (some ds, rest)
  | _ => .ok (none, cs)

def sign (cs : List Char) : Bool × List Char :=
  match cs with
  | '+' :: rest => (false, rest)
  | '-' :: rest => (true, rest)
  | _ => (false, cs)

def exponent (short : Fault) : Reader (Option Int) := fun cs =>
  match cs with
  | c :: rest =>
    if c = 'e' ∨ c = 'E' then do
      let (negative, rest) := sign rest
      let (ds, rest) ← digits short rest
      let size : Int := digitsValue ds
      return (some (if negative then -size else size), rest)
    else .ok (none, cs)
  | [] => .ok (none, [])

def literal (short : Fault) : Reader Literal := fun cs => do
  let (negative, cs) :=
    match cs with
    | '-' :: rest => (true, rest)
    | _ => (false, cs)
  let (whole, cs) ← wholeDigits short cs
  let (fraction, cs) ← fraction short cs
  let (exponent, cs) ← exponent short cs
  return (⟨negative, whole, fraction, exponent⟩, cs)

def number : Reader Number := fun cs => do
  let (l, rest) ← literal .ended cs
  match l.number? with
  | some n => return (n, rest)
  | none => .error .malformed

end SqlDraft.Json
