/-
Module: RepoAtlas.Source.Token
Purpose: The tokens of a Python source text, grouped into logical lines.
  A token carries the blanks, comments and line continuations before it, so the text between any two
  tokens can be recovered exactly: a dotted name keeps the white space its author put around a dot.
  A logical line ends at a line break outside brackets and has the indentation of its first token.
Main exports: TokenKind, Token, Line, spanText, indentation, lexeme, lines
-/
import RepoAtlas.Source.Literal

namespace RepoAtlas.Source

/-- The classes of tokens. -/
inductive TokenKind where
  | name
  | number
  | literal
  | mark
deriving DecidableEq, Repr, Inhabited

/-- A token with what stands before it. -/
structure Token where
  kind : TokenKind
  /-- Blanks, comments and line continuations since the token before. -/
  leading : List Char
  text : List Char
  /-- The line of the first character, counted from one. -/
  line : Nat
deriving DecidableEq, Repr, Inhabited

namespace Token

/-- Whether a token is the given mark. -/
def isMark (token : Token) (mark : String) : Bool :=
  token.kind = .mark && token.text = mark.toList

/-- Whether a token is the given word. -/
def isWord (token : Token) (word : String) : Bool :=
  token.kind = .name && token.text = word.toList

/-- Whether a token is an opening bracket. -/
def opens (token : Token) : Bool :=
  token.kind = .mark && token.text.any isOpening

/-- Whether a token is a closing bracket. -/
def closes (token : Token) : Bool :=
  token.kind = .mark && token.text.any isClosing

end Token

/-- The text from the first token to the last, with everything that stands between them. -/
def spanChars : List Token → List Char
  | [] => []
  | first :: rest => first.text ++ rest.flatMap (fun token => token.leading ++ token.text)

/-- `spanChars` as a string. -/
def spanText (tokens : List Token) : String :=
  String.ofList (spanChars tokens)

/-- The tokens up to a line break outside brackets, and the indentation of the first. -/
structure Line where
  indent : Nat
  tokens : List Token
deriving DecidableEq, Repr, Inhabited

/-- The width of the blanks before the first token of a line: a space counts one and a tab eight.  A
line break, a carriage return or a form feed starts over; comment lines do not count, and a
continued line adds to the width before it. -/
def indentationFrom (width : Nat) (comment : Bool) : List Char → Nat
  | [] => width
  | char :: rest =>
    if comment then
      if char = '\n' then indentationFrom 0 false rest else indentationFrom width true rest
    else if char = '\n' ∨ char = '\r' ∨ char = '\x0c' then indentationFrom 0 false rest
    else if char = ' ' then indentationFrom (width + 1) false rest
    else if char = '\t' then indentationFrom (width + 8) false rest
    else if char = '#' then indentationFrom width true rest
    else if char = '\\' then
      indentationFrom width false (rest.drop (if rest.head? = some '\r' then 2 else 1))
    else width
termination_by chars => chars.length
decreasing_by
  all_goals simp only [List.length_cons, List.length_drop]
  all_goals omega

/-- The indentation that the characters before a line's first token give it. -/
def indentation (leading : List Char) : Nat :=
  indentationFrom 0 false leading

/-- Whether a character separates tokens without meaning anything itself. -/
def isGap (char : Char) : Bool :=
  char = ' ' || char = '\t' || char = '\r' || char = '\x0b' || char = '\x0c' ||
    char.toNat = 0xFEFF || char.toNat = 0x2060 || char.toNat = 0x200B

/-- Whether a character can begin a name. -/
def isNameStart (char : Char) : Bool :=
  isNameChar char && !char.isDigit

/-- The length of the digits and underscores a text begins with. -/
def figuresLength (chars : List Char) : Nat :=
  (chars.takeWhile (fun char => char.isDigit || char = '_')).length

/-- Whether a character continues a hexadecimal number. -/
def isHexFigure (char : Char) : Bool :=
  char.isDigit || "abcdefABCDEF_".toList.contains char

/-- The length of a complete exponent a text begins with. -/
def exponentLength : List Char → Nat
  | mark :: rest =>
    if mark = 'e' ∨ mark = 'E' then
      let signs := (rest.take 1).countP (fun char => char = '+' || char = '-')
      let figures := figuresLength (rest.drop signs)
      if figures = 0 then 0 else 1 + signs + figures
    else 0
  | [] => 0

/-- The length of a number a text begins with. -/
def numberLength (chars : List Char) : Nat :=
  let second := (chars.drop 1).head?
  if chars.head? = some '0' && second.any (fun char => char = 'x' || char = 'X') then
    2 + ((chars.drop 2).takeWhile isHexFigure).length
  else if chars.head? = some '0' && second.any (fun char => "oObB".toList.contains char) then
    2 + figuresLength (chars.drop 2)
  else
    let whole := figuresLength chars
    let rest := chars.drop whole
    let fraction := if rest.head? = some '.' then 1 + figuresLength (rest.drop 1) else 0
    let rest := rest.drop fraction
    let exponent := exponentLength rest
    let letter := ((rest.drop exponent).take 1).countP (fun char => "jJlL".toList.contains char)
    whole + fraction + exponent + letter

/-- The kind and length of the token a text begins with. -/
def lexeme (chars : List Char) : TokenKind × Nat :=
  match chars with
  | [] => (.mark, 0)
  | char :: rest =>
    if isQuote char then (.literal, quotedLength [] chars)
    else if isNameStart char then
      let word := chars.takeWhile isNameChar
      let tail := chars.dropWhile isNameChar
      if isLiteralLead word && tail.head?.any isQuote then
        (.literal, word.length + quotedLength word tail)
      else (.name, word.length)
    else if char.isDigit || (char = '.' && rest.head?.any Char.isDigit) then
      (.number, numberLength chars)
    else if char = ':' && rest.head? = some '=' then (.mark, 2)
    else if char = '.' && rest.take 2 = ['.', '.'] then (.mark, 3)
    else (.mark, 1)

/-- The number of characters of a line continuation a text begins with, its backslash included. -/
def continuationLength : List Char → Nat
  | ['\\'] => 1
  | '\\' :: '\n' :: _ => 2
  | '\\' :: '\r' :: '\n' :: _ => 3
  | _ => 0

/-- The line of tokens that are given latest first. -/
def lineOf (tokens : List Token) : Line :=
  let ordered := tokens.reverse
  ⟨indentation ((ordered.head?.map Token.leading).getD []), ordered⟩

/-- Adds a line to the finished ones unless it has no tokens. -/
def closeLine (tokens : List Token) (done : List Line) : List Line :=
  if tokens.isEmpty then done else lineOf tokens :: done

/-- Scans the rest of a source.  `depth` counts the open brackets and `line` the lines; `leading`
holds the characters since the last token, `tokens` the tokens of the current line and `done` the
finished lines, each latest first. -/
def scan (depth line : Nat) (leading : List Char) (tokens : List Token) (done : List Line) :
    List Char → List Line
  | [] => (closeLine tokens done).reverse
  | char :: rest =>
    if char = '\n' then
      if depth = 0 then scan 0 (line + 1) ('\n' :: leading) [] (closeLine tokens done) rest
      else scan depth (line + 1) ('\n' :: leading) tokens done rest
    else if isGap char then scan depth line (char :: leading) tokens done rest
    else if char = '#' then
      let comment := rest.takeWhile (· ≠ '\n')
      scan depth line (comment.reverse ++ char :: leading) tokens done (rest.drop comment.length)
    else
      let continuation := continuationLength (char :: rest)
      if continuation ≠ 0 then
        let skipped := char :: rest.take (continuation - 1)
        scan depth (line + skipped.count '\n') (skipped.reverse ++ leading) tokens done
          (rest.drop (continuation - 1))
      else
        let (kind, size) := lexeme (char :: rest)
        let token : Token := ⟨kind, leading.reverse, char :: rest.take (size - 1), line⟩
        let depth := if token.opens then depth + 1 else if token.closes then depth - 1 else depth
        scan depth (line + token.text.count '\n') [] (token :: tokens) done (rest.drop (size - 1))
termination_by chars => chars.length
decreasing_by
  all_goals simp only [List.length_cons, List.length_drop]
  all_goals omega

/-- The logical lines of a source. -/
def lines (source : List Char) : List Line :=
  scan 0 1 [] [] [] source

end RepoAtlas.Source
