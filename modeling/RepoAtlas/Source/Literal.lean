/-
Module: RepoAtlas.Source.Literal
Purpose: How far a string literal of a Python source text reaches.
  A literal may span lines, escape its own quote, and, when it is formatted, hold replacement fields
  whose expressions contain further literals, brackets and comments.  The scan keeps the stack of
  constructs it is inside of and ends when that stack is empty.
Main exports: Flags, Mode, literalLength, isLiteralLead
-/

namespace RepoAtlas.Source

/-- How a literal treats backslashes and braces, read off the letters before its quote. -/
structure Flags where
  raw : Bool
  format : Bool
deriving DecidableEq, Repr, Inhabited

/-- What the scan is inside of. -/
inductive Mode where
  /-- The text of a literal. -/
  | text (quote : Char) (triple : Bool) (flags : Flags)
  /-- The expression of a replacement field with the given number of brackets open in it. -/
  | field (depth : Nat)
  /-- The format of a replacement field. -/
  | format
  /-- A comment inside a replacement field. -/
  | comment
  /-- The name of a character in an escape, up to its closing brace. -/
  | characterName
deriving DecidableEq, Repr, Inhabited

/-- Whether a character opens and closes literals. -/
def isQuote (char : Char) : Bool :=
  char = '"' || char.toNat = 0x27

/-- Whether a letter may stand directly before the quote of a literal. -/
def isLiteralLetter (char : Char) : Bool :=
  "bfrtuBFRTU".toList.contains char

/-- Whether a word, standing directly before a quote, belongs to the literal. -/
def isLiteralLead (word : List Char) : Bool :=
  word.all isLiteralLetter

/-- The flags that the letters before a quote give. -/
def flagsOf (word : List Char) : Flags where
  raw := isLiteralLead word && word.any (fun letter => letter = 'r' || letter = 'R')
  format := isLiteralLead word &&
    word.any (fun letter => letter = 'f' || letter = 'F' || letter = 't' || letter = 'T')

/-- Whether a character can continue a name.  In a well-formed source every character beyond ASCII
that stands outside literals and comments belongs to a name, blanks of zero width apart. -/
def isNameChar (char : Char) : Bool :=
  char.isAlphanum || char = '_' ||
    (0x80 ≤ char.toNat && char.toNat ≠ 0xFEFF && char.toNat ≠ 0x2060 && char.toNat ≠ 0x200B)

/-- Whether a character opens a bracket. -/
def isOpening (char : Char) : Bool :=
  char = '(' || char = '[' || char = '\x7b'

/-- Whether a character closes a bracket. -/
def isClosing (char : Char) : Bool :=
  char = ')' || char = ']' || char = '\x7d'

/-- Whether a text goes on with two more of the given quote. -/
def continuesTriple (quote : Char) (rest : List Char) : Bool :=
  rest.take 2 = [quote, quote]

/-- The number of characters, added to `count`, until the constructs in `modes` are closed.  `word`
holds the name characters directly before the rest, latest first. -/
def literalLength (modes : List Mode) (word : List Char) (count : Nat) : List Char → Nat
  | [] => count
  | char :: rest =>
    match modes with
    | [] => count
    | .text quote triple flags :: outer =>
      if char = '\\' then
        let next := rest.head?
        if flags.format && (next = some '\x7b' || next = some '\x7d') then
          literalLength modes [] (count + 1) rest
        else if flags.format && !flags.raw && rest.take 2 = ['N', '\x7b'] then
          literalLength (.characterName :: modes) [] (count + 2) (rest.drop 1)
        else literalLength modes [] (count + 2) (rest.drop 1)
      else if char = quote then
        if !triple then literalLength outer [] (count + 1) rest
        else if continuesTriple quote rest then literalLength outer [] (count + 3) (rest.drop 2)
        else literalLength modes [] (count + 1) rest
      else if flags.format && char = '\x7b' then
        if rest.head? = some '\x7b' then literalLength modes [] (count + 2) (rest.drop 1)
        else literalLength (.field 0 :: modes) [] (count + 1) rest
      else literalLength modes [] (count + 1) rest
    | .field depth :: outer =>
      if isQuote char then
        if continuesTriple char rest then
          literalLength (.text char true (flagsOf word) :: modes) [] (count + 3) (rest.drop 2)
        else literalLength (.text char false (flagsOf word) :: modes) [] (count + 1) rest
      else if isOpening char then literalLength (.field (depth + 1) :: outer) [] (count + 1) rest
      else if isClosing char then
        if depth = 0 then literalLength outer [] (count + 1) rest
        else literalLength (.field (depth - 1) :: outer) [] (count + 1) rest
      else if char = ':' && depth = 0 then literalLength (.format :: outer) [] (count + 1) rest
      else if char = '#' then literalLength (.comment :: modes) [] (count + 1) rest
      else literalLength modes (if isNameChar char then char :: word else []) (count + 1) rest
    | .format :: outer =>
      if char = '\x7b' then literalLength (.field 0 :: modes) [] (count + 1) rest
      else if char = '\x7d' then literalLength outer [] (count + 1) rest
      else literalLength modes [] (count + 1) rest
    | .comment :: outer =>
      if char = '\n' then literalLength outer [] (count + 1) rest
      else literalLength modes [] (count + 1) rest
    | .characterName :: outer =>
      if char = '\x7d' then literalLength outer [] (count + 1) rest
      else literalLength modes [] (count + 1) rest
termination_by chars => chars.length
decreasing_by all_goals simp only [List.length_cons, List.length_drop]; omega

/-- The length of a literal whose text begins with its opening quote.  The letters before the quote
are `word`; they are not counted. -/
def quotedLength (word : List Char) : List Char → Nat
  | [] => 0
  | quote :: rest =>
    if continuesTriple quote rest then
      literalLength [.text quote true (flagsOf word)] [] 3 (rest.drop 2)
    else literalLength [.text quote false (flagsOf word)] [] 1 rest

end RepoAtlas.Source
