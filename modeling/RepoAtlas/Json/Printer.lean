/-
Module: RepoAtlas.Json.Printer
Purpose: Writing a JSON document over several lines, two spaces deeper at each level.
  Members are written in the order in which the object holds them.  Only ASCII is written: any other
  character is escaped by its UTF-16 units, and a lone surrogate is escaped by itself.  A value with
  an integer of too many digits is not written at all.
Main exports: escapeChar, escapePoint, renderString, documentLayout, render, isShortInteger,
  Value.isWritable
-/
import RepoAtlas.Json.Value
import RepoAtlas.Number.Reading

namespace RepoAtlas.Json

open Number Text.Utf8

/-- A UTF-16 unit as an escape. -/
def escapeUnit (unit : Nat) : List Char :=
  ['\\', 'u'] ++ Text.hexPadded 4 unit

/-- A character as it stands in a string. -/
def escapeChar (char : Char) : List Char :=
  if char = '"' then ['\\', '"']
  else if char = '\\' then ['\\', '\\']
  else if char = '\n' then ['\\', 'n']
  else if char = '\r' then ['\\', 'r']
  else if char = '\t' then ['\\', 't']
  else if char = '\x08' then ['\\', 'b']
  else if char = '\x0c' then ['\\', 'f']
  else if 0x20 ≤ char.toNat ∧ char.toNat ≤ 0x7E then [char]
  else if char.toNat < 0x10000 then escapeUnit char.toNat
  else
    let rest := char.toNat - 0x10000
    escapeUnit (0xD800 + rest / 0x400) ++ escapeUnit (0xDC00 + rest % 0x400)

/-- A code point as it stands in a string. -/
def escapePoint : CodePoint → List Char
  | .scalar char => escapeChar char
  | .surrogate offset => escapeUnit (0xD800 + offset.val)

/-- A string between its quotes. -/
def renderString (text : Points) : List Char :=
  ['"'] ++ text.flatMap escapePoint ++ ['"']

/-- Doubles in a document have the displayed digits, and words for the special numbers. -/
def documentLayout : RealLayout :=
  { displayLayout with nan := "NaN", infinity := "Infinity", negativeInfinity := "-Infinity" }

/-- A line break followed by the indentation of a level. -/
def lineBreak (level : Nat) : List Char :=
  '\n' :: List.replicate (2 * level) ' '

mutual

/-- Writes a value whose first character stands at the given level. -/
def renderAt (level : Nat) : Value → List Char
  | .null => "null".toList
  | .boolean true => "true".toList
  | .boolean false => "false".toList
  | .integer value => (integerText value).toList
  | .real value => (documentLayout.render value).toList
  | .string value => renderString value
  | .array [] => ['[', ']']
  | .array (first :: rest) =>
    ['['] ++ lineBreak (level + 1) ++ renderAt (level + 1) first ++
      renderItems (level + 1) rest ++ lineBreak level ++ [']']
  | .object [] => ['\x7b', '\x7d']
  | .object ((key, value) :: rest) =>
    ['\x7b'] ++ lineBreak (level + 1) ++ renderString key ++ [':', ' '] ++
      renderAt (level + 1) value ++ renderMembers (level + 1) rest ++ lineBreak level ++ ['\x7d']

/-- Writes the items after the first, each after a comma on a line of its own. -/
def renderItems (level : Nat) : List Value → List Char
  | [] => []
  | item :: rest =>
    [','] ++ lineBreak level ++ renderAt level item ++ renderItems level rest

/-- Writes the members after the first, each after a comma on a line of its own. -/
def renderMembers (level : Nat) : List (Points × Value) → List Char
  | [] => []
  | (key, value) :: rest =>
    [','] ++ lineBreak level ++ renderString key ++ [':', ' '] ++ renderAt level value ++
      renderMembers level rest

end

/-- Writes a document. -/
def render (value : Value) : List Char :=
  renderAt 0 value

/-- Whether an integer has few enough digits to be written. -/
def isShortInteger (value : Int) : Bool :=
  (digits value.natAbs).length ≤ integerDigitLimit

mutual

/-- Whether every integer of a value has few enough digits to be written. -/
def Value.isWritable : Value → Bool
  | .integer value => isShortInteger value
  | .array items => areWritableItems items
  | .object members => areWritableMembers members
  | .null | .boolean _ | .real _ | .string _ => true

/-- `Value.isWritable` of every item. -/
def areWritableItems : List Value → Bool
  | [] => true
  | item :: rest => item.isWritable && areWritableItems rest

/-- `Value.isWritable` of every member. -/
def areWritableMembers : List (Points × Value) → Bool
  | [] => true
  | (_, value) :: rest => value.isWritable && areWritableMembers rest

end

end RepoAtlas.Json
