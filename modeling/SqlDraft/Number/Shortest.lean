import SqlDraft.Number.Double

/-!
# The shortest decimal of a double

The decimal with the fewest digits among those that are nearer to a double than to any other; of
several with as few digits the nearest to it.  It is written positionally if its first digit stands
near the point, and otherwise with an exponent.
-/

namespace SqlDraft

structure Decimal where
  digits : Nat
  exponent : Int
  deriving DecidableEq, Repr

namespace Double

def digitCount (n : Nat) : Nat :=
  (Nat.toDigits 10 n).length

/-- Whether a double is the first with its exponent, so that the one below it is nearer than the
one above. -/
def isLowest (d : Double) : Bool :=
  d.mantissa == twoTo 52 && d.exponent != leastExponent

/-- The two ends of the numbers that round to a double, in quarters of its last place. -/
def bounds (d : Double) : Nat × Nat :=
  (if d.isLowest then 4 * d.mantissa - 1 else 4 * d.mantissa - 2, 4 * d.mantissa + 2)

/-- The exponent of the first decimal digit of a fraction that is not zero. -/
def floorLog10 (num den : Nat) : Int :=
  if den ≤ num then (digitCount (num / den) : Int) - 1
  else -(digitCount ((den + num - 1) / num - 1) : Int)

/-- Whether a decimal rounds to a double; the ends of the range do if the mantissa is even. -/
def isDecimal (d : Double) (c : Decimal) : Bool :=
  let (low, high) := d.bounds
  let (unitNum, unitDen) := fractionOf 1 (d.exponent - 2)
  let value := c.digits * tenTo c.exponent.toNat * unitDen
  let scale := tenTo (-c.exponent).toNat * unitNum
  if d.mantissa % 2 = 0 then low * scale ≤ value && value ≤ high * scale
  else low * scale < value && value < high * scale

/-- The decimal with a given last place that a double calls for, if one there rounds to it: the
nearer of its two neighbours, a tie going to the even one. -/
def decimalAt? (d : Double) (place : Int) : Option Decimal :=
  let (num, den) := fractionOf d.mantissa d.exponent
  let top := num * tenTo (-place).toNat
  let bottom := den * tenTo place.toNat
  let below : Decimal := ⟨top / bottom, place⟩
  let above : Decimal := ⟨top / bottom + 1, place⟩
  let remainder := top % bottom
  let belowIsNearer := 2 * remainder < bottom ∨ (2 * remainder = bottom ∧ below.digits % 2 = 0)
  match d.isDecimal below, d.isDecimal above with
  | true, true => if belowIsNearer then some below else some above
  | true, false => some below
  | false, true => some above
  | false, false => none

/-- The shortest decimal of a double that is not zero.  Seventeen digits always suffice. -/
def shortest (d : Double) : Decimal :=
  let (num, den) := fractionOf d.mantissa d.exponent
  let first := floorLog10 num den
  ((List.range 17).findSome? fun (n : Nat) => d.decimalAt? (first - n)).getD ⟨0, 0⟩

/-- Decimals are written positionally when the exponent of their first digit lies between these. -/
def positionalExponents : Int × Int := (-5, 15)

def significantDigits (n : Nat) : List Char :=
  ((Nat.toDigits 10 n).reverse.dropWhile fun c => c == '0').reverse

def decimalText (digits : List Char) (first : Int) : List Char :=
  if positionalExponents.1 ≤ first ∧ first ≤ positionalExponents.2 then
    if 0 ≤ first then
      let whole := first.toNat + 1
      let fraction := digits.drop whole
      digits.take whole ++ List.replicate (whole - digits.length) '0' ++
        '.' :: (if fraction.isEmpty then ['0'] else fraction)
    else '0' :: '.' :: List.replicate (-first - 1).toNat '0' ++ digits
  else
    let tail := digits.drop 1
    digits.take 1 ++ (if tail.isEmpty then [] else '.' :: tail) ++
      'e' :: (if first < 0 then '-' else '+') :: Nat.toDigits 10 first.natAbs

/-- The text of a double: its shortest decimal, with at least one digit after a point. -/
def text (d : Double) : List Char :=
  if d.mantissa = 0 then ['0', '.', '0']
  else
    let c := d.shortest
    decimalText (significantDigits c.digits) (c.exponent + digitCount c.digits - 1)

end Double

end SqlDraft
