/-
Module: RepoAtlas.Ignore.Pattern
Purpose: The patterns of an ignore file, one a line, and which paths they ignore.
  A pattern without inner slash applies in every directory, any other from the root on.  Two stars
  stand for any directories.  The last pattern found in a path decides; a negated one keeps the path.
Main exports: Rule, Pattern, InvalidPattern, readPattern, readPatterns, Rule.occursIn, isIgnored,
  Matcher, matcher
-/
import RepoAtlas.Ignore.Expression
import RepoAtlas.Text.Characters
import RepoAtlas.Text.Quoted
import RepoAtlas.Text.Search

namespace RepoAtlas.Ignore

open Text

/-- Where a pattern is found in a path. -/
inductive Rule where
  /-- Some character of the path belongs to a set. -/
  | somewhere (set : CharSet)
  /-- The path begins with the pieces. -/
  | leading (pieces : List Piece)
deriving DecidableEq, Repr, Inhabited

/-- A line of an ignore file. -/
structure Pattern where
  negated : Bool
  rule : Rule
deriving DecidableEq, Repr, Inhabited

/-- A line that is no pattern. -/
inductive InvalidPattern where
  /-- The line cannot be read. -/
  | unreadable (line : String)
  /-- A range in brackets ends before it begins. -/
  | backwardRange (flaw : BackwardRange)
deriving DecidableEq, Repr, Inhabited

/-- The sentence for a line that is no pattern. -/
def InvalidPattern.message : InvalidPattern → String
  | .unreadable line => "Invalid git pattern: " ++ quotedText line
  | .backwardRange flaw => flaw.message

/-- A segment of two stars. -/
def stars : List Char := ['*', '*']

/-- A line without trailing white space, unless that is escaped. -/
def trimmedLine (line : List Char) : List Char :=
  if ['\\', ' '].isSuffixOf line then line else dropBlanksEnd line

/-- Splits off an exclamation mark; true means negated. -/
def takeNegation : List Char → Bool × List Char
  | '!' :: rest => (true, rest)
  | chars => (false, chars)

/-- Makes explicit where the segments apply: an empty first segment is dropped, and a lone one gets
two stars in front. -/
def anchored (segments : List (List Char)) : List (List Char) :=
  match segments with
  | [] => []
  | [] :: rest => rest
  | first :: rest =>
    if (rest = [] ∨ rest = [[]]) ∧ first ≠ stars then stars :: segments else segments

/-- Two stars in place of an empty last segment. -/
def closed : List (List Char) → List (List Char)
  | [] => []
  | [last] => [if last = [] then stars else last]
  | segment :: rest => segment :: closed rest

/-- Runs of segments of two stars as one of them. -/
def collapsed : List (List Char) → List (List Char)
  | first :: second :: rest =>
    if first = stars ∧ second = stars then collapsed (second :: rest)
    else first :: collapsed (second :: rest)
  | segments => segments

/-- The pieces of one segment.  `afterSlash` says that a slash stands before it and `isLast` that
nothing follows. -/
def segmentPieces (afterSlash isLast : Bool) (segment : List Char) : Option (List Piece) := do
  let slash := if afterSlash then [Piece.one (.only '/')] else []
  if segment = ['*'] then
    some (slash ++ [.wholeName] ++ (if isLast then [.finish] else []))
  else
    let glob ← readGlob segment
    some (slash ++ glob ++ (if isLast then [.boundary] else []))

/-- The pieces of the segments after the first. -/
def laterPieces (afterSlash : Bool) : List (List Char) → Option (List Piece)
  | [] => some []
  | segment :: rest => do
    let here ←
      if segment = stars then
        some (if rest.isEmpty then [Piece.one (.only '/')] else [.innerDirectories])
      else segmentPieces afterSlash rest.isEmpty segment
    return here ++ (← laterPieces true rest)

/-- The pieces of all segments. -/
def allPieces : List (List Char) → Option (List Piece)
  | [] => some []
  | segment :: rest =>
    if segment = stars then (laterPieces false rest).map (.leadingDirectories :: ·)
    else do
      let here ← segmentPieces false rest.isEmpty segment
      return here ++ (← laterPieces true rest)

/-- The rule of the segments.  `isDirectory` says that the pattern ends in a slash. -/
def ruleOf (isDirectory : Bool) (segments : List (List Char)) : Option Rule :=
  if segments = [stars] then
    some (.somewhere (if isDirectory then .only '/' else .notLineFeed))
  else if segments = [stars, ['*']] then some (.somewhere .notLineFeed)
  else if segments = [stars, ['*'], stars] then some (.somewhere (.only '/'))
  else (allPieces segments).map .leading

/-- The rule of a pattern without its negation. -/
def ruleOfText (text : List Char) : Option Rule :=
  let segments := split '/' text
  let isDirectory := segments.getLast? = some [] && text ≠ ['/']
  match anchored segments with
  | [] => none
  | first :: rest => ruleOf isDirectory (collapsed (closed (first :: rest)))

/-- The first backward range in a rule. -/
def Rule.backwardRange? : Rule → Option BackwardRange
  | .somewhere _ => none
  | .leading pieces => Ignore.backwardRange? pieces

/-- Reads a line: no pattern for an empty line or a comment.  A line that cannot be read is refused
as such even if it has a backward range. -/
def readPattern (line : List Char) : Except InvalidPattern (Option Pattern) :=
  let trimmed := trimmedLine line
  if trimmed.isEmpty || trimmed.head? = some '#' then .ok none
  else
    let (negated, text) := takeNegation trimmed
    match ruleOfText text with
    | none => .error (.unreadable (String.ofList line))
    | some rule =>
      match rule.backwardRange? with
      | some flaw => .error (.backwardRange flaw)
      | none => .ok (some ⟨negated, rule⟩)

/-- Reads all lines, and fails at the first that is no pattern. -/
def readPatterns (lines : List (List Char)) : Except InvalidPattern (List Pattern) := do
  return (← lines.mapM readPattern).filterMap id

/-- What may be left of a text after dropping any number of characters of a set at its start. -/
def dropsOf (set : CharSet) : List Char → List (List Char)
  | [] => [[]]
  | char :: rest => (char :: rest) :: (if set.contains char then dropsOf set rest else [])

/-- What may be left of a text after one character of a set. -/
def afterOne (set : CharSet) : List Char → List (List Char)
  | [] => []
  | char :: rest => if set.contains char then [rest] else []

/-- Whether a text is at its end, or before the line feed that ends it. -/
def atEnd (rest : List Char) : Bool :=
  rest = [] || rest = ['\n']

/-- What may be left of a text after a piece at its start. -/
def Piece.rests (piece : Piece) (text : List Char) : List (List Char) :=
  match piece with
  | .one set => afterOne set text
  | .many set => dropsOf set text
  | .wholeName => (afterOne .notSlash text).flatMap (dropsOf .notSlash)
  | .leadingDirectories =>
    text :: (((afterOne .notLineFeed text).flatMap (dropsOf .notLineFeed)).flatMap
      (afterOne (.only '/')))
  | .innerDirectories =>
    text :: (((afterOne (.only '/') text).flatMap (afterOne .notLineFeed)).flatMap
      (dropsOf .notLineFeed))
  | .boundary => afterOne (.only '/') text ++ (if atEnd text then [text] else [])
  | .finish => (text :: afterOne (.only '/') text).filter atEnd

/-- What may be left of a text after pieces at its start. -/
def restsAfter (pieces : List Piece) (text : List Char) : List (List Char) :=
  pieces.foldl (fun rests piece => (rests.flatMap piece.rests).eraseDups) [text]

/-- Whether a rule is met by a path. -/
def Rule.occursIn (rule : Rule) (path : List Char) : Bool :=
  match rule with
  | .somewhere set => path.any set.contains
  | .leading pieces => !(restsAfter pieces path).isEmpty

/-- Whether a path is ignored: the last pattern found in it is not negated. -/
def isIgnored (patterns : List Pattern) (path : String) : Bool :=
  match patterns.reverse.find? (fun pattern => pattern.rule.occursIn path.toList) with
  | some pattern => !pattern.negated
  | none => false

/-- What lines of patterns ignore. -/
abbrev Matcher := List (List Char) → Except InvalidPattern (String → Bool)

/-- The matcher of this library. -/
def matcher : Matcher := fun lines =>
  (readPatterns lines).map isIgnored

end RepoAtlas.Ignore
