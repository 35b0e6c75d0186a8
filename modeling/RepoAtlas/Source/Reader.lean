/-
Module: RepoAtlas.Source.Reader
Purpose: From the logical lines of a source to its statements.
  A line whose last token is the colon of its header opens a block if the next line is indented
  further than the block the header stands in; the block reaches up to the first line that is
  indented less than its own first line.  Sources are taken to be well formed: on others the reader
  still answers, without saying where they fail.  This is the grammar that programs of this library
  run with; what they promise holds of any other.
Main exports: Base.ofTokens, simpleStatement, readBlock, statements
-/
import RepoAtlas.Source.Token
import RepoAtlas.Source.Tree

namespace RepoAtlas.Source

/-- How the number of open brackets changes at a token. -/
def depthAfter (depth : Nat) (token : Token) : Nat :=
  if token.opens then depth + 1 else if token.closes then depth - 1 else depth

/-- How the number of anonymous functions whose colon is still to come changes at a token outside
brackets. -/
def lambdasAfter (lambdas : Nat) (token : Token) : Nat :=
  if token.isWord "lambda" then lambdas + 1 else if token.isMark ":" then lambdas - 1 else lambdas

/-- Splits tokens at a mark outside brackets that stands in no parameter list of an anonymous
function.  `part` and `done` hold the current part and the finished parts, latest first, and
`lambdas` counts the parameter lists that are still open. -/
def splitMarksFrom (mark : String) (depth lambdas : Nat) (part : List Token)
    (done : List (List Token)) : List Token → List (List Token)
  | [] => (part.reverse :: done).reverse
  | token :: rest =>
    if depth = 0 && lambdas = 0 && token.isMark mark then
      splitMarksFrom mark depth lambdas [] (part.reverse :: done) rest
    else
      let lambdas := if depth = 0 then lambdasAfter lambdas token else lambdas
      splitMarksFrom mark (depthAfter depth token) lambdas (token :: part) done rest

/-- The non-empty parts of tokens between marks outside brackets and parameter lists. -/
def splitMarks (mark : String) (tokens : List Token) : List (List Token) :=
  (splitMarksFrom mark 0 0 [] [] tokens).filter (fun part => !part.isEmpty)

/-- Splits tokens at the colon that ends a header: the first one outside brackets that belongs to no
anonymous function.  `lambdas` counts those whose colon is still to come. -/
def splitHeaderFrom (depth lambdas : Nat) (done : List Token) :
    List Token → Option (List Token × List Token)
  | [] => none
  | token :: rest =>
    if depth = 0 && lambdas = 0 && token.isMark ":" then some (done.reverse, rest)
    else
      let lambdas := if depth = 0 then lambdasAfter lambdas token else lambdas
      splitHeaderFrom (depthAfter depth token) lambdas (token :: done) rest

/-- The header of a line and the tokens after its colon. -/
def splitHeader (tokens : List Token) : Option (List Token × List Token) :=
  splitHeaderFrom 0 0 [] tokens

/-- The number of tokens, added to `count`, until `depth` further brackets are closed. -/
def groupLengthFrom (depth count : Nat) : List Token → Nat
  | [] => count
  | token :: rest =>
    let depth := depthAfter depth token
    if depth = 0 then count + 1 else groupLengthFrom depth (count + 1) rest

/-- The number of tokens of the bracketed group that tokens begin with, both brackets included. -/
def groupLength (tokens : List Token) : Nat :=
  groupLengthFrom 0 0 tokens

/-- A name that may be followed by what it is renamed to. -/
def importNameOf (tokens : List Token) : ImportName :=
  let name := tokens.takeWhile (fun token => !token.isWord "as")
  if name.length = tokens.length then .plain (spanText tokens)
  else .aliased (spanText tokens) (some (spanText name))

/-- Words that begin an expression other than a plain name. -/
def expressionWords : List String := ["not", "lambda", "yield"]

/-- Words that are values and not names. -/
def valueWords : List String := ["True", "False", "None"]

/-- Follows the attributes, subscripts and calls after an expression.  `done` holds the tokens of
the expression so far and `node` what they are. -/
def trailers (done : List Token) (node : Base) : List Token → Base
  | [] => node
  | token :: rest =>
    if token.isMark "." then
      match rest.head? with
      | some name =>
        if name.kind = .name then
          let whole := done ++ [token, name]
          trailers whole (.attribute (spanText whole)) (rest.drop 1)
        else .other
      | none => .other
    else if token.isMark "[" || token.isMark "(" then
      let size := groupLength (token :: rest)
      let whole := done ++ token :: rest.take (size - 1)
      trailers whole (if token.isMark "[" then .subscript node else .other) (rest.drop (size - 1))
    else .other
termination_by tokens => tokens.length
decreasing_by
  all_goals simp only [List.length_cons, List.length_drop]
  all_goals omega

/-- What an argument of a class header is. -/
def Base.ofTokens (tokens : List Token) : Base :=
  match tokens with
  | [] => .other
  | first :: rest =>
    match first.kind with
    | .name =>
      if expressionWords.any first.isWord then .other
      else if first.isWord "await" && !rest.isEmpty && !rest.head?.any (Token.isMark · ".") then
        .other
      else if valueWords.any first.isWord then trailers [first] .other rest
      else trailers [first] (.identifier (spanText [first])) rest
    | .number => trailers [first] .other rest
    | .literal =>
      let literals := rest.takeWhile (fun token => token.kind = .literal)
      trailers (first :: literals) .other (rest.drop literals.length)
    | .mark =>
      if first.opens then
        let size := groupLength tokens
        trailers (tokens.take size) .other (tokens.drop size)
      else if first.isMark "..." then trailers [first] .other rest
      else .other

/-- The arguments of a class header, given the tokens after the name. -/
def basesOf (tokens : List Token) : Option (List Base) :=
  let tokens :=
    if tokens.head?.any (Token.isMark · "[") then tokens.drop (groupLength tokens) else tokens
  if tokens.head?.any (Token.isMark · "(") then
    let inner := (tokens.take (groupLength tokens)).drop 1
    some ((splitMarks "," inner.dropLast).map Base.ofTokens)
  else none

/-- The imported names after the word `import` of a `from` import. -/
def importedOf (tokens : List Token) : Imported :=
  if tokens.head?.any (Token.isMark · "*") then .wildcard
  else
    let inner :=
      if tokens.head?.any (Token.isMark · "(") then (tokens.drop 1).dropLast else tokens
    .names ((splitMarks "," inner).map importNameOf)

/-- A `from` import, given the tokens after that word.  Importing language features from
`__future__` is a statement of another kind. -/
def importFromOf (tokens : List Token) : Statement :=
  let origin := tokens.takeWhile (fun token => !token.isWord "import")
  let imported := importedOf (tokens.drop (origin.length + 1))
  match origin with
  | [] => .simple
  | first :: rest =>
    if first.kind = .mark then .importFrom (.relative (spanText origin)) imported
    else if rest.isEmpty && first.isWord "__future__" then .simple
    else .importFrom (.absolute (spanText origin)) imported

/-- A statement without a block. -/
def simpleStatement (tokens : List Token) : Statement :=
  match tokens with
  | [] => .simple
  | first :: rest =>
    if first.isWord "import" then .importModules ((splitMarks "," rest).map importNameOf)
    else if first.isWord "from" then importFromOf rest
    else .simple

/-- The statements that semicolons separate. -/
def simpleStatements (tokens : List Token) : List Statement :=
  (splitMarks ";" tokens).map simpleStatement

/-- The words that begin a statement with a block, definitions apart. -/
def clauseWords : List String :=
  ["if", "elif", "else", "for", "while", "try", "except", "finally", "with", "async", "match",
    "case"]

/-- The name that a token spells. -/
def nameOf (token : Token) : Name :=
  ⟨String.ofList token.text, token.line⟩

/-- What the first tokens of a line begin. -/
inductive Head where
  | function (name : Name) (isAsync : Bool)
  | classDef (name : Name) (superclasses : Option (List Base))
  | clause
  | simple

/-- Reads what a line begins. -/
def headOf (tokens : List Token) : Head :=
  match tokens with
  | [] => .simple
  | first :: rest =>
    if first.isWord "def" then
      match rest.head? with
      | some name => .function (nameOf name) false
      | none => .simple
    else if first.isWord "async" && rest.head?.any (Token.isWord · "def") then
      match (rest.drop 1).head? with
      | some name => .function (nameOf name) true
      | none => .simple
    else if first.isWord "class" then
      match rest.head? with
      | some name => .classDef (nameOf name) (basesOf (rest.drop 1))
      | none => .simple
    else if clauseWords.any first.isWord then .clause
    else .simple

/-- The tokens after the colon of a line's header, if the line has one.  A header holds no
semicolon. -/
def suiteOf (tokens : List Token) : Option (List Token) :=
  match splitHeader tokens with
  | some (header, suite) =>
    if header.any (Token.isMark · ";") then none else some suite
  | none => none

/-- The statements of a line, given the statements of the block it opens. -/
def lineStatements (line : Line) (block : List Statement) : List Statement :=
  let body := simpleStatements ((suiteOf line.tokens).getD []) ++ block
  match headOf line.tokens with
  | .function name isAsync => [.functionDef name isAsync body]
  | .classDef name superclasses => [.classDef name superclasses body]
  | .clause =>
    if (suiteOf line.tokens).isSome then [.compound body] else simpleStatements line.tokens
  | .simple => simpleStatements line.tokens

/-- Whether a line's header ends it, so that a block may follow. -/
def opensBlock (line : Line) : Bool :=
  match headOf line.tokens with
  | .function _ _ | .classDef _ _ | .clause => (suiteOf line.tokens).any List.isEmpty
  | _ => false

/-- Whether a line is a decorator of the definition below it. -/
def isDecorator (line : Line) : Bool :=
  line.tokens.head?.any (Token.isMark · "@")

/-- Reads the statements of a block that is indented by at least `indent`, with the number of lines
it takes added to `count`.  `decorated` says whether a decorator stands directly above, and `done`
holds the finished statements, latest first. -/
def readBlock (indent : Nat) (decorated : Bool) (done : List Statement) (count : Nat) :
    List Line → List Statement × Nat
  | [] => (done.reverse, count)
  | line :: rest =>
    if line.indent < indent then (done.reverse, count)
    else if isDecorator line then readBlock indent true done (count + 1) rest
    else
      let inner := ((rest.head?.map Line.indent).getD 0)
      let (block, used) :=
        if opensBlock line && indent < inner then readBlock inner false [] 0 rest else ([], 0)
      let found := lineStatements line block
      let found := if decorated then found.map Statement.decorated else found
      readBlock indent false (found.reverse ++ done) (count + 1 + used) (rest.drop used)
termination_by lines => lines.length
decreasing_by
  all_goals simp only [List.length_cons, List.length_drop]
  all_goals omega

/-- The statements of a source. -/
def statements : Grammar := fun source =>
  (readBlock 0 false [] 0 (lines source)).1

end RepoAtlas.Source
