/-
Module: RepoAtlas.Number.Binary64
Purpose: Double-precision numbers with exact arithmetic underneath.
  A finite number is `± mantissa · 2 ^ exponent` in its one normal form, and every operation is the
  exact rational result rounded to the nearest number, a tie going to the even mantissa.  Nothing
  here rests on machine arithmetic, so a fact about a score is a fact about rationals.
Main exports: Binary64, roundHalfEven, powerOfTwo, ofRatio, ofRat, ofInt, toRat, truncate?, toBits
-/

namespace RepoAtlas.Number

/-- The natural number nearest to `num / den`; a tie goes to the even neighbour. -/
def roundHalfEven (num den : Nat) : Nat :=
  let below := num / den
  let excess := 2 * (num % den)
  if excess < den then below
  else if den < excess then below + 1
  else if below % 2 = 0 then below else below + 1

/-- The power of two with a natural exponent. -/
def powerOfTwo (exponent : Nat) : Nat :=
  Nat.pow 2 exponent

/-- A double-precision number.  A finite one has a mantissa below `2 ^ 53` and an exponent of at
least `-1074`; below `2 ^ 52` the exponent is exactly that. -/
inductive Binary64 where
  | nan
  | infinite (negative : Bool)
  | finite (negative : Bool) (mantissa : Nat) (exponent : Int)
deriving DecidableEq, Repr, Inhabited

namespace Binary64

/-- The least exponent of a finite number. -/
def minExponent : Int := -1074

/-- The greatest exponent of a finite number. -/
def maxExponent : Int := 971

/-- Zero with a positive sign. -/
def zero : Binary64 := .finite false 0 minExponent

/-- `num / den` divided by `2 ^ exponent`, again as a quotient of natural numbers. -/
def scaleRatio (num den : Nat) (exponent : Int) : Nat × Nat :=
  if 0 ≤ exponent then (num, den * powerOfTwo exponent.toNat)
  else (num * powerOfTwo (-exponent).toNat, den)

/-- The exponent at which `num / den` has a mantissa of fifty-three bits, or the least one. -/
def exponentFor (num den : Nat) : Int :=
  let guess : Int := (num.log2 : Int) - den.log2 - 53
  let scaled := scaleRatio num den guess
  let exponent := if powerOfTwo 53 * scaled.2 ≤ scaled.1 then guess + 1 else guess
  if exponent < minExponent then minExponent else exponent

/-- The number nearest to `± num / den` for a positive denominator. -/
def ofRatio (negative : Bool) (num den : Nat) : Binary64 :=
  if num = 0 then .finite negative 0 minExponent
  else
    let exponent := exponentFor num den
    let scaled := scaleRatio num den exponent
    let mantissa := roundHalfEven scaled.1 scaled.2
    let carried := mantissa = powerOfTwo 53
    let mantissa := if carried then powerOfTwo 52 else mantissa
    let exponent := if carried then exponent + 1 else exponent
    if maxExponent < exponent then .infinite negative else .finite negative mantissa exponent

/-- The number nearest to a rational. -/
def ofRat (value : Rat) : Binary64 :=
  ofRatio (value < 0) value.num.natAbs value.den

/-- The number nearest to an integer; infinite when the integer is out of range. -/
def ofInt (value : Int) : Binary64 :=
  ofRatio (value < 0) value.natAbs 1

/-- The integer power of two with a possibly negative exponent. -/
def twoPow (exponent : Int) : Rat :=
  if 0 ≤ exponent then (2 : Rat) ^ exponent.toNat else 1 / (2 : Rat) ^ (-exponent).toNat

/-- The exact value of a finite number, and zero for the others. -/
def toRat : Binary64 → Rat
  | .finite negative mantissa exponent =>
    let size : Rat := (mantissa : Rat) * twoPow exponent
    if negative then -size else size
  | _ => 0

/-- The size of a finite number as a quotient of natural numbers. -/
def ratio (mantissa : Nat) (exponent : Int) : Nat × Nat :=
  if 0 ≤ exponent then (mantissa * powerOfTwo exponent.toNat, 1)
  else (mantissa, powerOfTwo (-exponent).toNat)

/-- The integer part of a finite number, towards zero. -/
def truncate? : Binary64 → Option Int
  | .finite negative mantissa exponent =>
    let parts := ratio mantissa exponent
    let size : Int := (parts.1 / parts.2 : Nat)
    some (if negative then -size else size)
  | _ => none

/-- The sixty-four bits of a number: sign, biased exponent, fraction. -/
def toBits : Binary64 → Nat
  | .nan => 0x7FF8000000000000
  | .infinite negative => (if negative then powerOfTwo 63 else 0) + 0x7FF0000000000000
  | .finite negative mantissa exponent =>
    let sign := if negative then powerOfTwo 63 else 0
    if mantissa < powerOfTwo 52 then sign + mantissa
    else sign + (exponent + 1075).toNat * powerOfTwo 52 + (mantissa - powerOfTwo 52)

end Binary64

end RepoAtlas.Number
