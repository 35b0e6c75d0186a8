/-
Module: RepoAtlas.Number.Reading
Purpose: Integers and doubles written by people.
  White space may surround the number, digits of every script count, and one underscore may stand
  between two digits.  A double may have a fraction and an exponent, or be spelled as an infinity or
  as not a number in any mixture of cases.  A count takes ASCII digits only, but may have a fraction
  of zeros.
Main exports: readInteger?, readCount?, readReal?, integerDigitLimit
-/
import RepoAtlas.Number.Decimal
import RepoAtlas.Text.Characters

namespace RepoAtlas.Number

open Text

/-- An integer with more digits than this is not read. -/
def integerDigitLimit : Nat := 4300

/-- The white space that may surround a number: all but the information separators. -/
def isNumberBlank (char : Char) : Bool :=
  isBlank char && !(0x1C ≤ char.toNat && char.toNat ≤ 0x1F)

/-- A digit of any script as the digit of the same value in ASCII; other characters are kept. -/
def plainDigit (char : Char) : Char :=
  match digitValue? char with
  | some value => Char.ofNat (0x30 + value)
  | none => char

/-- Whether a character is one of the ten ASCII digits. -/
def isPlainDigit (char : Char) : Bool :=
  '0' ≤ char && char ≤ '9'

/-- The number that ASCII digits spell. -/
def digitsValue (figures : List Char) : Nat :=
  figures.foldl (fun value figure => value * 10 + (figure.toNat - 0x30)) 0

/-- The text of a number without surrounding white space, its digits in ASCII. -/
def numberText (chars : List Char) : List Char :=
  (dropEndWhile isNumberBlank (chars.dropWhile isNumberBlank)).map plainDigit

/-- Splits off an optional sign; true means negative. -/
def takeSign : List Char → Bool × List Char
  | '-' :: rest => (true, rest)
  | '+' :: rest => (false, rest)
  | chars => (false, chars)

/-- Removes underscores that stand between two digits, and fails on any other.  `previous` is the
character before the rest. -/
def dropUnderscores (previous : Char) : List Char → Option (List Char)
  | [] => if previous = '_' then none else some []
  | char :: rest =>
    if char = '_' then
      if isPlainDigit previous then dropUnderscores char rest else none
    else if previous = '_' && !isPlainDigit char then none
    else (dropUnderscores char rest).map (char :: ·)

/-- Reads an integer. -/
def readInteger? (chars : List Char) : Option Int := do
  let (negative, body) := takeSign (numberText chars)
  let figures ← dropUnderscores ' ' body
  if figures.isEmpty || !figures.all isPlainDigit || integerDigitLimit < figures.length then none
  else
    let size : Int := digitsValue figures
    some (if negative then -size else size)

/-- Whether a text is no fraction at all, or a point and at least one zero. -/
def isZeroFraction : List Char → Bool
  | [] => true
  | mark :: zeros => mark = '.' && !zeros.isEmpty && zeros.all (· = '0')

/-- Reads an integer in ASCII digits that may have a fraction of zeros.  Zeros at its beginning do not
count towards the limit. -/
def readCount? (chars : List Char) : Option Int := do
  let trimmed := dropEndWhile isNumberBlank (chars.dropWhile isNumberBlank)
  let (negative, body) := takeSign trimmed
  let figures ← dropUnderscores ' ' (body.takeWhile (· ≠ '.'))
  if figures.isEmpty || !figures.all isPlainDigit || !isZeroFraction (body.dropWhile (· ≠ '.')) ||
      integerDigitLimit < (figures.dropWhile (· = '0')).length then none
  else
    let size : Int := digitsValue figures
    some (if negative then -size else size)

/-- Reads an exponent mark, an optional sign and digits that end the text; no text is exponent
zero. -/
def readExponent? : List Char → Option Int
  | [] => some 0
  | mark :: rest =>
    if mark = 'e' ∨ mark = 'E' then
      let (negative, figures) := takeSign rest
      if figures.isEmpty || !figures.all isPlainDigit then none
      else
        let size : Int := digitsValue figures
        some (if negative then -size else size)
    else none

/-- Reads an unsigned decimal with optional fraction and exponent. -/
def readDecimal? (chars : List Char) : Option Decimal := do
  let whole := chars.takeWhile isPlainDigit
  let rest := chars.dropWhile isPlainDigit
  let (fraction, rest) :=
    match rest with
    | '.' :: tail => (tail.takeWhile isPlainDigit, tail.dropWhile isPlainDigit)
    | _ => ([], rest)
  if whole.isEmpty && fraction.isEmpty then none
  else
    let exponent ← readExponent? rest
    some ⟨digitsValue (whole ++ fraction), exponent - fraction.length⟩

/-- Reads a double. -/
def readReal? (chars : List Char) : Option Binary64 := do
  let (negative, body) := takeSign (numberText chars)
  let word := String.ofList (body.map Char.toLower)
  if word = "nan" then some .nan
  else if word = "inf" ∨ word = "infinity" then some (.infinite negative)
  else
    let plain ← dropUnderscores ' ' body
    let decimal ← readDecimal? plain
    some (decimal.toBinary64 negative)

end RepoAtlas.Number
