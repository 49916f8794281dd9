/-!
# Doubles

The finite nonnegative doubles as exact numbers `mantissa * 2 ^ exponent`, and the double nearest
to a fraction.  A decimal is scaled by powers of ten that are doubles themselves, with a rounding at
each step, so that what comes out need not be the double nearest to it.  All arithmetic is on whole
numbers.
-/

namespace SqlDraft

/-- The quotient of two numbers rounded to the nearest whole number, halves to the even one. -/
def roundDiv (a b : Nat) : Nat :=
  let quotient := a / b
  let remainder := a % b
  if 2 * remainder < b then quotient
  else if b < 2 * remainder then quotient + 1
  else if quotient % 2 = 0 then quotient
  else quotient + 1

def twoTo (n : Nat) : Nat :=
  Nat.pow 2 n

def tenTo (n : Nat) : Nat :=
  Nat.pow 10 n

structure Double where
  mantissa : Nat
  exponent : Int
  deriving DecidableEq, Repr

namespace Double

def leastExponent : Int := -1074

def greatestExponent : Int := 971

def zero : Double :=
  ⟨0, leastExponent⟩

/-- The exponent of the greatest power of two that is not above `num / den`. -/
def floorLog2 (num den : Nat) : Int :=
  let guess : Int := num.log2 - den.log2
  let reached :=
    if 0 ≤ guess then den * twoTo guess.toNat ≤ num else den ≤ num * twoTo (-guess).toNat
  if reached then guess else guess - 1

def multipleOf (num den : Nat) (exponent : Int) : Nat :=
  if 0 ≤ exponent then roundDiv num (den * twoTo exponent.toNat)
  else roundDiv (num * twoTo (-exponent).toNat) den

/-- The double nearest to `num / den`, a tie going to the even mantissa.  There is none above the
largest finite double. -/
def nearest? (num den : Nat) : Option Double :=
  if num = 0 then some zero
  else
    let exponent := max leastExponent (floorLog2 num den - 52)
    let mantissa := multipleOf num den exponent
    let rounded : Double :=
      if mantissa = twoTo 53 then ⟨twoTo 52, exponent + 1⟩ else ⟨mantissa, exponent⟩
    if rounded.exponent ≤ greatestExponent then some rounded else none

def fractionOf (n : Nat) (e : Int) : Nat × Nat :=
  (n * twoTo e.toNat, twoTo (-e).toNat)

def times? (a b : Double) : Option Double :=
  let (num, den) := fractionOf (a.mantissa * b.mantissa) (a.exponent + b.exponent)
  nearest? num den

def over? (a b : Double) : Option Double :=
  let (num, den) := fractionOf a.mantissa (a.exponent - b.exponent)
  nearest? num (den * b.mantissa)

def powerOfTen? (n : Nat) : Option Double :=
  nearest? (tenTo n) 1

/-- The exponent of the largest power of ten that is not beyond all doubles. -/
def greatestPower : Nat := 308

/-- A double over the largest power of ten, so many times over.  What has come to zero stays so. -/
def shrink? : Nat → Double → Option Double
  | 0, d => some d
  | steps + 1, d => do
    if d = zero then return zero
    shrink? steps (← d.over? (← powerOfTen? greatestPower))

/-- The double that a whole number with so many zeros behind it is read as, or with the point so
many places in front of its end. -/
def ofScaled? (n : Nat) (exponent : Int) : Option Double := do
  let d ← nearest? n 1
  let places := exponent.natAbs
  if exponent < 0 then
    -- The last step is by one place at least and by as many as it can take.
    let steps := (places - 1) / greatestPower
    (← shrink? steps d).over? (← powerOfTen? (places - steps * greatestPower))
  else if d = zero then return zero
  else if places ≤ greatestPower then d.times? (← powerOfTen? places)
  else none

end Double

end SqlDraft
