/-
Module: RepoAtlas.Text.Characters
Purpose: Classes of characters, and what is cut off or split by them.
  A class of Unicode characters is a table of closed ranges of code points.  White space holds the
  separators of every script, the line breaks and the four information separators U+001C to U+001F.
  A script's ten decimal digits are consecutive, so a table of the zeros determines them all.
Main exports: inRanges, isBlank, dropEndWhile, strip, stripText, isLineBreak, lines, digitValue?,
  hexDigit, hexPadded, hexOfBytes
-/

namespace RepoAtlas.Text

/-- Whether a code point lies in one of the closed ranges.  The ranges are listed in increasing
order, so the search stops at the first range that begins above the code point. -/
def inRanges (code : Nat) : List (Nat × Nat) → Bool
  | [] => false
  | (low, high) :: rest =>
    if code < low then false else if code ≤ high then true else inRanges code rest

/-! ### White space -/

/-- The code points that count as white space. -/
def blankRanges : List (Nat × Nat) := [
  (0x9, 0xD), (0x1C, 0x20), (0x85, 0x85), (0xA0, 0xA0), (0x1680, 0x1680), (0x2000, 0x200A),
  (0x2028, 0x2029), (0x202F, 0x202F), (0x205F, 0x205F), (0x3000, 0x3000)]

/-- Whether a character is white space. -/
def isBlank (char : Char) : Bool :=
  inRanges char.toNat blankRanges

/-- Drops leading white space. -/
def dropBlanks (chars : List Char) : List Char :=
  chars.dropWhile isBlank

/-- Drops trailing characters that satisfy a test. -/
def dropEndWhile (test : Char → Bool) (chars : List Char) : List Char :=
  (chars.reverse.dropWhile test).reverse

/-- Drops trailing white space. -/
def dropBlanksEnd (chars : List Char) : List Char :=
  dropEndWhile isBlank chars

/-- Drops white space at both ends. -/
def strip (chars : List Char) : List Char :=
  dropBlanksEnd (dropBlanks chars)

/-- `strip` on strings. -/
def stripText (text : String) : String :=
  String.ofList (strip text.toList)

/-! ### Lines -/

/-- Whether a character ends a line. -/
def isLineBreak (char : Char) : Bool :=
  let code := char.toNat
  (0x0A ≤ code && code ≤ 0x0D) || (0x1C ≤ code && code ≤ 0x1E) || code = 0x85 ||
    code = 0x2028 || code = 0x2029

/-- The lines of a text after `line`, which holds the characters of the present line latest first.
A carriage return and a line feed after it end one line, and a break at the end begins no further
line. -/
def linesFrom (line : List Char) : List Char → List (List Char)
  | [] => if line.isEmpty then [] else [line.reverse]
  | '\r' :: '\n' :: rest => line.reverse :: linesFrom [] rest
  | char :: rest =>
    if isLineBreak char then line.reverse :: linesFrom [] rest
    else linesFrom (char :: line) rest

/-- The lines of a text without their breaks. -/
def lines (text : List Char) : List (List Char) :=
  linesFrom [] text

/-! ### Digits -/

/-- The code point of digit zero in every script that has decimal digits. -/
def digitZeros : List Nat := [
  0x30, 0x660, 0x6F0, 0x7C0, 0x966, 0x9E6, 0xA66, 0xAE6, 0xB66, 0xBE6,
  0xC66, 0xCE6, 0xD66, 0xDE6, 0xE50, 0xED0, 0xF20, 0x1040, 0x1090, 0x17E0,
  0x1810, 0x1946, 0x19D0, 0x1A80, 0x1A90, 0x1B50, 0x1BB0, 0x1C40, 0x1C50,
  0xA620, 0xA8D0, 0xA900, 0xA9D0, 0xA9F0, 0xAA50, 0xABF0, 0xFF10, 0x104A0,
  0x10D30, 0x11066, 0x110F0, 0x11136, 0x111D0, 0x112F0, 0x11450, 0x114D0,
  0x11650, 0x116C0, 0x11730, 0x118E0, 0x11950, 0x11C50, 0x11D50, 0x11DA0,
  0x16A60, 0x16AC0, 0x16B50, 0x1D7CE, 0x1D7D8, 0x1D7E2, 0x1D7EC, 0x1D7F6,
  0x1E140, 0x1E2F0, 0x1E950, 0x1FBF0]

/-- The value of a decimal digit of any script. -/
def digitValue? (char : Char) : Option Nat :=
  (digitZeros.find? (fun base => base ≤ char.toNat && char.toNat ≤ base + 9)).map
    (fun base => char.toNat - base)

/-- The hexadecimal digit of a value below sixteen. -/
def hexDigit (value : Nat) : Char :=
  if value < 10 then Char.ofNat (0x30 + value) else Char.ofNat (0x57 + value % 16)

/-- The last `width` hexadecimal digits of a number, most significant first. -/
def hexPadded : (width : Nat) → (value : Nat) → List Char
  | 0, _ => []
  | width + 1, value => hexPadded width (value / 16) ++ [hexDigit (value % 16)]

/-- Two digits for each byte. -/
def hexOfBytes (bytes : List UInt8) : String :=
  String.ofList (bytes.flatMap (fun byte => hexPadded 2 byte.toNat))

end RepoAtlas.Text
