/-
Module: RepoAtlas.Ignore.Expression
Purpose: The regular expression that a pattern stands for, and the backward ranges in it.
  A range that ends before it begins makes an expression invalid.  It is reported by its text and by
  its place in the expression, which is not its place in the line of the ignore file.
Main exports: Piece.expression, expressionOf, BackwardRange, BackwardRange.message, backwardRange?
-/
import RepoAtlas.Ignore.Glob

namespace RepoAtlas.Ignore

/-- Characters that have a meaning of their own in an expression. -/
def specialChars : List Char :=
  "()[]\x7b\x7d?*+-|^$\\.&~# \t\n\r\x0b\x0c".toList

/-- The expression for a character itself. -/
def escaped (char : Char) : List Char :=
  if specialChars.contains char then ['\\', char] else [char]

/-- A character inside brackets, where only the backslash has to be doubled. -/
def bracketed (char : Char) : List Char :=
  if char = '\\' then ['\\', '\\'] else [char]

/-- The text of a member inside brackets. -/
def Member.expression : Member → List Char
  | .single char => bracketed char
  | .range low high => bracketed low ++ '-' :: bracketed high

/-- What stands before the members of a set in brackets. -/
def openingOf (negated : Bool) : List Char :=
  if negated then ['[', '^'] else ['[']

/-- The expression for one character of a set. -/
def CharSet.expression : CharSet → List Char
  | .only char => escaped char
  | .notSlash => "[^/]".toList
  | .notLineFeed => ['.']
  | .listed negated members => openingOf negated ++ members.flatMap Member.expression ++ [']']

/-- The expression for a piece. -/
def Piece.expression : Piece → List Char
  | .one set => set.expression
  | .many set => set.expression ++ ['*']
  | .wholeName => "[^/]+".toList
  | .leadingDirectories => "(?:.+/)?".toList
  | .innerDirectories => "(?:/.+)?".toList
  | .boundary => "(?:/|$)".toList
  | .finish => "/?$".toList

/-- The expression for pieces at the beginning of a path. -/
def expressionOf (pieces : List Piece) : List Char :=
  '^' :: pieces.flatMap Piece.expression

/-- A range that ends before it begins, the expression it makes invalid, and how many characters of
the expression stand before it. -/
structure BackwardRange where
  expression : List Char
  position : Nat
  range : Member
deriving DecidableEq, Repr, Inhabited

/-- The line and the column of a position in an expression that has more than one line. -/
def lineAndColumn? (expression : List Char) (position : Nat) : Option (Nat × Nat) :=
  if expression.contains '\n' then
    let before := expression.take position
    some (before.count '\n' + 1, (before.reverse.takeWhile (· ≠ '\n')).length + 1)
  else none

/-- The sentence for a backward range. -/
def BackwardRange.message (flaw : BackwardRange) : String :=
  "bad character range " ++ String.ofList flaw.range.expression ++ " at position " ++
    toString flaw.position ++
    (match lineAndColumn? flaw.expression flaw.position with
      | some (line, column) =>
        " (line " ++ toString line ++ ", column " ++ toString column ++ ")"
      | none => "")

/-- The first backward range among members, with the number of characters before it.  `position`
counts the characters before the members. -/
def backwardMember? (position : Nat) : List Member → Option (Nat × Member)
  | [] => none
  | member :: rest =>
    if member.isBackward then some (position, member)
    else backwardMember? (position + member.expression.length) rest

/-- The first backward range in a set that stands at a position. -/
def CharSet.backwardMember? (set : CharSet) (position : Nat) : Option (Nat × Member) :=
  match set with
  | .listed negated members =>
    Ignore.backwardMember? (position + (openingOf negated).length) members
  | _ => none

/-- The first backward range in a piece that stands at a position. -/
def Piece.backwardMember? (piece : Piece) (position : Nat) : Option (Nat × Member) :=
  match piece with
  | .one set => set.backwardMember? position
  | .many set => set.backwardMember? position
  | _ => none

/-- The first backward range among pieces that stand at a position. -/
def backwardIn? (position : Nat) : List Piece → Option (Nat × Member)
  | [] => none
  | piece :: rest =>
    (piece.backwardMember? position).or (backwardIn? (position + piece.expression.length) rest)

/-- The first backward range in the expression for pieces. -/
def backwardRange? (pieces : List Piece) : Option BackwardRange :=
  (backwardIn? 1 pieces).map (fun (position, range) => ⟨expressionOf pieces, position, range⟩)

end RepoAtlas.Ignore
