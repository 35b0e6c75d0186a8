/-
Module: RepoAtlas.Ranking.Score
Purpose: The importance of a file as a number from zero to one.
  A file earns up to 0.7 by its share of the largest number of importers and a bonus for its role;
  tests count three tenths.  Each step is rounded to double precision, and the result to the nearest
  thousandth.
Main exports: score, score?, Importance, Importance.ofScore, Importance.text, Importance.fixedText
-/
import RepoAtlas.Number.Decimal
import RepoAtlas.Ranking.Role

namespace RepoAtlas.Ranking

open Number

/-- A double as an exact rational. -/
def double (value : Rat) : Rat :=
  (Binary64.ofRat value).toRat

/-- What a file imported by as many files as the most imported one earns. -/
def inDegreeWeight : Rat := double (7 / 10)

/-- The factor for test files. -/
def testFactor : Rat := double (3 / 10)

/-- The bonus of a role. -/
def bonus : Role → Rat
  | .entry => double (2 / 10)
  | .core => double (5 / 100)
  | _ => 0

/-- The part of the score that the importers give. -/
def importScore (inDegree maxInDegree : Int) : Rat :=
  if 0 < maxInDegree then
    double (double (inDegreeWeight * double inDegree) / double maxInDegree)
  else 0

/-- The score before it is cut to the range from zero to one. -/
def rawScore (inDegree maxInDegree : Int) (role : Role) : Rat :=
  let total := double (importScore inDegree maxInDegree + bonus role)
  if role = .test then double (total * testFactor) else total

/-- The score of a file: an exact double from zero to one. -/
def score (inDegree maxInDegree : Int) (role : Role) : Rat :=
  let raw := rawScore inDegree maxInDegree role
  if raw < 0 then 0 else if 1 < raw then 1 else raw

/-- Whether an integer is beyond the range of a double. -/
def isOutOfRange (value : Int) : Bool :=
  match Binary64.ofInt value with
  | .infinite _ => true
  | _ => false

/-- The score of a file, unless a degree that it is computed from is beyond the range of a double. -/
def score? (inDegree maxInDegree : Int) (role : Role) : Option Rat :=
  if 0 < maxInDegree && (isOutOfRange inDegree || isOutOfRange maxInDegree) then none
  else some (score inDegree maxInDegree role)

/-- An importance in thousandths. -/
structure Importance where
  thousandths : Nat
deriving DecidableEq, Repr, Inhabited

namespace Importance

/-- A score rounded to the nearest thousandth; a tie goes to the even one. -/
def ofScore (value : Rat) : Importance :=
  ⟨roundHalfEven (value.num.natAbs * 1000) value.den⟩

/-- Exactly `width` digits of a number that has no more. -/
def padded (width value : Nat) : List Char :=
  let text := digits value
  List.replicate (width - text.length) '0' ++ text

/-- Three decimal places. -/
def fixedText (importance : Importance) : String :=
  String.ofList
    (digits (importance.thousandths / 1000) ++ '.' :: padded 3 (importance.thousandths % 1000))

/-- As many decimal places as are needed, at least one. -/
def text (importance : Importance) : String :=
  let places := padded 3 (importance.thousandths % 1000)
  let trimmed := Text.dropEndWhile (· == '0') places
  String.ofList (digits (importance.thousandths / 1000) ++
    '.' :: (if trimmed.isEmpty then ['0'] else trimmed))

end Importance

end RepoAtlas.Ranking
