/-
Module: RepoAtlas.Number.Decimal
Purpose: The decimal texts of double-precision numbers.
  A finite number is written with the fewest significant digits that read back as the same number,
  and among those with the digits nearest to its exact value.  Where the point stands, and how the
  special numbers are spelled, is a `RealLayout`.
Main exports: Decimal, ofDecimal, shortest, RealLayout, RealLayout.render
-/
import RepoAtlas.Number.Binary64

namespace RepoAtlas.Number

/-- The decimal digits of a natural number, most significant first. -/
def digits (value : Nat) : List Char :=
  Nat.toDigits 10 value

/-- The non-negative number `coefficient · 10 ^ exponent`. -/
structure Decimal where
  coefficient : Nat
  exponent : Int
deriving DecidableEq, Repr, Inhabited

namespace Decimal

/-- A decimal as a quotient of natural numbers. -/
def ratio (decimal : Decimal) : Nat × Nat :=
  if 0 ≤ decimal.exponent then (decimal.coefficient * Nat.pow 10 decimal.exponent.toNat, 1)
  else (decimal.coefficient, Nat.pow 10 (-decimal.exponent).toNat)

/-- The double nearest to `± decimal`.  A decimal whose leading digit lies far outside the range is
decided by its position alone, so an enormous exponent costs nothing. -/
def toBinary64 (negative : Bool) (decimal : Decimal) : Binary64 :=
  let leading : Int := decimal.exponent + (digits decimal.coefficient).length
  if decimal.coefficient = 0 ∨ leading < -400 then .finite negative 0 Binary64.minExponent
  else if 400 < leading then .infinite negative
  else Binary64.ofRatio negative decimal.ratio.1 decimal.ratio.2

/-- The power of ten of the first significant digit of `num / den`, for positive numbers. -/
def magnitude (num den : Nat) : Int :=
  let guess : Int := (digits num).length - (digits den).length
  let power : Decimal := ⟨1, guess⟩
  if power.ratio.1 * den ≤ num * power.ratio.2 then guess else guess - 1

/-- The neighbours of `num / den` on the grid of multiples of `10 ^ exponent` that read back as the
given double, the nearer one first; an exact tie puts the even coefficient first. -/
def neighbours (target : Binary64) (num den : Nat) (exponent : Int) : List Decimal :=
  let unit : Decimal := ⟨1, exponent⟩
  let top := num * unit.ratio.2
  let bottom := den * unit.ratio.1
  let below := top / bottom
  let nearest := roundHalfEven top bottom
  let other := if nearest = below then below + 1 else below
  let readsBack (coefficient : Nat) : Bool := toBinary64 false ⟨coefficient, exponent⟩ == target
  ([nearest, other].filter readsBack).map (fun coefficient => ⟨coefficient, exponent⟩)

/-- Tries coarse grids before fine ones, `tries` of them from `exponent` downwards. -/
def search (target : Binary64) (num den : Nat) : (tries : Nat) → (exponent : Int) → Decimal
  | 0, exponent => ⟨roundHalfEven (num * (⟨1, exponent⟩ : Decimal).ratio.2)
      (den * (⟨1, exponent⟩ : Decimal).ratio.1), exponent⟩
  | tries + 1, exponent =>
    match neighbours target num den exponent with
    | best :: _ => best
    | [] => search target num den tries (exponent - 1)

/-- The shortest decimal that reads back as the positive double `mantissa · 2 ^ exponent`. -/
def shortest (mantissa : Nat) (exponent : Int) : Decimal :=
  let parts := Binary64.ratio mantissa exponent
  search (.finite false mantissa exponent) parts.1 parts.2 17 (magnitude parts.1 parts.2)

end Decimal

/-- How a double is laid out as text. -/
structure RealLayout where
  /-- The least power of ten of the first digit that is written positionally. -/
  positionalFrom : Int
  /-- The first power of ten that is no longer written positionally. -/
  positionalBelow : Int
  /-- The least number of digits of a written exponent. -/
  exponentDigits : Nat
  nan : String
  infinity : String
  negativeInfinity : String

namespace RealLayout

/-- A decimal exponent with its sign and at least the given number of digits. -/
def exponentText (layout : RealLayout) (exponent : Int) : List Char :=
  let text := digits exponent.natAbs
  let padding := List.replicate (layout.exponentDigits - text.length) '0'
  ['e', if exponent < 0 then '-' else '+'] ++ padding ++ text

/-- Significant digits with the point placed after the digit of `10 ^ 0`. -/
def positional (figures : List Char) (leading : Int) : List Char :=
  if leading < 0 then ['0', '.'] ++ List.replicate (-leading - 1).toNat '0' ++ figures
  else
    let whole := leading.toNat + 1
    if figures.length ≤ whole then
      figures ++ List.replicate (whole - figures.length) '0' ++ ['.', '0']
    else figures.take whole ++ ['.'] ++ figures.drop whole

/-- Significant digits with the point after the first and an exponent. -/
def scientific (layout : RealLayout) (figures : List Char) (leading : Int) : List Char :=
  let fraction := figures.drop 1
  figures.take 1 ++ (if fraction.isEmpty then [] else '.' :: fraction) ++
    layout.exponentText leading

/-- The text of a positive finite number. -/
def renderPositive (layout : RealLayout) (mantissa : Nat) (exponent : Int) : List Char :=
  let decimal := Decimal.shortest mantissa exponent
  let all := digits decimal.coefficient
  let leading : Int := decimal.exponent + all.length - 1
  let trimmed := (all.reverse.dropWhile (· == '0')).reverse
  if layout.positionalFrom ≤ leading ∧ leading < layout.positionalBelow then
    positional trimmed leading
  else layout.scientific trimmed leading

/-- The text of a double. -/
def render (layout : RealLayout) : Binary64 → String
  | .nan => layout.nan
  | .infinite false => layout.infinity
  | .infinite true => layout.negativeInfinity
  | .finite negative mantissa exponent =>
    let size := if mantissa = 0 then ['0', '.', '0'] else layout.renderPositive mantissa exponent
    String.ofList ((if negative then ['-'] else []) ++ size)

end RealLayout

end RepoAtlas.Number
