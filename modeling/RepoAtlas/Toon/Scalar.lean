/-
Module: RepoAtlas.Toon.Scalar
Purpose: Single values in token-oriented notation.
  A value stands as it is unless it could be read as something else; then it is quoted.  Numbers
  stand as they are.
Main exports: keywords, isNumeric, isSpecial, needsQuotes, quote, encodeValue
-/
import RepoAtlas.Text.Characters
import RepoAtlas.Text.Lowercase

namespace RepoAtlas.Toon

open Text

/-- The words that have a meaning of their own. -/
def keywords : List String := ["true", "false", "null"]

/-- Whether a character is a decimal digit of some script. -/
def isDigit (char : Char) : Bool :=
  (digitValue? char).isSome

/-- Whether the text after the whole part of a number ends it: nothing, or a point and digits. -/
def isFraction : List Char → Bool
  | [] => true
  | '.' :: figures => !figures.isEmpty && figures.all isDigit
  | _ => false

/-- Whether a text is a number without sign. -/
def isUnsignedNumber : List Char → Bool
  | [] => false
  | first :: rest =>
    if first = '0' then isFraction rest
    else if '1' ≤ first ∧ first ≤ '9' then isFraction (rest.dropWhile isDigit)
    else false

/-- Whether a text is a number: an optional minus sign, a whole part without leading zeros, and an
optional fraction. -/
def isNumeric : List Char → Bool
  | '-' :: rest => isUnsignedNumber rest
  | chars => isUnsignedNumber chars

/-- The characters that have a meaning in the notation. -/
def isSpecial (char : Char) : Bool :=
  [',', ':', '"', '\\', '\x7b', '\x7d', '[', ']'].contains char

/-- Whether a character would break a line or a cell. -/
def isControl (char : Char) : Bool :=
  char = '\n' || char = '\r' || char = '\t'

/-- Whether a non-empty value must be quoted. -/
def needsQuotes (chars : List Char) : Bool :=
  if chars ≠ strip chars || chars.any isControl then true
  else if keywords.contains (lowerText (String.ofList chars)) then true
  else if isNumeric chars then false
  else chars.any isSpecial || chars.head? = some '-'

/-- A character as it stands between quotes. -/
def escapeChar (char : Char) : List Char :=
  if char = '\\' then ['\\', '\\']
  else if char = '"' then ['\\', '"']
  else if char = '\n' then ['\\', 'n']
  else if char = '\r' then ['\\', 'r']
  else if char = '\t' then ['\\', 't']
  else [char]

/-- A value between quotes. -/
def quote (chars : List Char) : List Char :=
  ['"'] ++ chars.flatMap escapeChar ++ ['"']

/-- A value in the notation. -/
def encodeChars (chars : List Char) : List Char :=
  if chars.isEmpty || needsQuotes chars then quote chars else chars

/-- `encodeChars` on strings. -/
def encodeValue (value : String) : String :=
  String.ofList (encodeChars value.toList)

end RepoAtlas.Toon
