/-
Module: RepoAtlas.Proofs.ImportStatements
Purpose: The text of a relative `from` import is read as that statement.
  Tokens that are written one after the other are scanned as those tokens, provided none runs into
  the text after it.  The tokens of a relative import are of that kind whatever its dots, segments
  and names are, and the reader takes them apart again.
Main exports: isIdentifier, ImportedName, ImportList, relativeImport, StandBefore, lines_written,
  statements_relativeImport
-/
import RepoAtlas.Proofs.PathSegments
import RepoAtlas.Source.Reader
import RepoAtlas.Source.Specifier
import Mathlib.Data.List.Basic

namespace RepoAtlas.Source

/-! ### The statement as its author writes it -/

/-- The words that name nothing. -/
def reservedWords : List String := [
  "False", "None", "True", "and", "as", "assert", "async", "await", "break", "class", "continue",
  "def", "del", "elif", "else", "except", "finally", "for", "from", "global", "if", "import", "in",
  "is", "lambda", "nonlocal", "not", "or", "pass", "raise", "return", "try", "while", "with",
  "yield"]

/-- Whether a text is a word: characters of names, the first no digit. -/
def isWordText (chars : List Char) : Bool :=
  chars.head?.any isNameStart && chars.all isNameChar

/-- Whether a text can name a module, or something in one. -/
def isIdentifier (name : String) : Bool :=
  isWordText name.toList && !reservedWords.contains name

/-- A name that a `from` import brings in, and the name it is renamed to. -/
structure ImportedName where
  name : String
  renamed : Option String := none
deriving DecidableEq, Repr

/-- What stands after the word `import`: everything, or at least one name. -/
inductive ImportList where
  | all
  | names (first : ImportedName) (others : List ImportedName)
deriving DecidableEq, Repr

/-- Whether a name and the one it is renamed to are identifiers. -/
def ImportedName.isProper (imported : ImportedName) : Bool :=
  isIdentifier imported.name && imported.renamed.all isIdentifier

/-- Whether all names after `import` are identifiers. -/
def ImportList.isProper : ImportList → Bool
  | .all => true
  | .names first others => (first :: others).all ImportedName.isProper

def ImportedName.text (imported : ImportedName) : String :=
  match imported.renamed with
  | none => imported.name
  | some renamed => imported.name ++ " as " ++ renamed

def ImportList.text : ImportList → String
  | .all => "*"
  | .names first others => String.intercalate ", " ((first :: others).map ImportedName.text)

/-- The node of an imported name. -/
def ImportedName.node (imported : ImportedName) : ImportName :=
  match imported.renamed with
  | none => .plain imported.name
  | some _ => .aliased imported.text (some imported.name)

theorem ImportedName.unaliased_node (imported : ImportedName) :
    imported.node.unaliased = imported.name := by
  unfold ImportedName.node
  cases imported.renamed <;> rfl

/-- What a list of names is in the tree. -/
def ImportList.imported : ImportList → Imported
  | .all => .wildcard
  | .names first others => .names ((first :: others).map ImportedName.node)

/-- The module of a relative import: dots, and segments with dots between them. -/
def relativeModule (dots : Nat) (segments : List String) : String :=
  String.ofList (List.replicate dots '.') ++ String.intercalate "." segments

/-- The text of a relative import. -/
def relativeImport (dots : Nat) (segments : List String) (list : ImportList) : String :=
  "from " ++ relativeModule dots segments ++ " import " ++ list.text

/-! ### Tokens written one after the other -/

/-- The characters of tokens with what stands before each. -/
def written (tokens : List Token) : List Char :=
  tokens.flatMap (fun token => token.leading ++ token.text)

/-- Whether a token of the first line is scanned as itself when the given text follows it. -/
structure StandsBefore (rest : List Char) (token : Token) : Prop where
  blank : ∀ char ∈ token.leading, char = ' '
  line : token.line = 1
  lexed : lexeme (token.text ++ rest) = (token.kind, token.text.length)
  begins : ∃ first more, token.text = first :: more ∧ first ≠ '\n' ∧ isGap first = false ∧
    first ≠ '#' ∧ first ≠ '\\'
  oneLine : token.text.count '\n' = 0
  noBracket : token.opens = false ∧ token.closes = false

/-- Whether tokens are scanned as themselves when the given text follows them. -/
def StandBefore (rest : List Char) : List Token → Prop
  | [] => True
  | token :: others => StandsBefore (written others ++ rest) token ∧ StandBefore rest others

theorem standBefore_append (rest : List Char) (first second : List Token) :
    StandBefore rest (first ++ second) ↔
      StandBefore (written second ++ rest) first ∧ StandBefore rest second := by
  induction first with
  | nil => simp [StandBefore]
  | cons token others ih =>
    simp [StandBefore, ih, written, and_assoc]

theorem scan_blanks {blanks : List Char} (blank : ∀ char ∈ blanks, char = ' ') (depth line : Nat)
    (leading : List Char) (tokens : List Token) (done : List Line) (rest : List Char) :
    scan depth line leading tokens done (blanks ++ rest) =
      scan depth line (blanks.reverse ++ leading) tokens done rest := by
  induction blanks generalizing leading with
  | nil => rfl
  | cons char others ih =>
    obtain rfl := blank char (by simp)
    have step : scan depth line leading tokens done (' ' :: (others ++ rest)) =
        scan depth line (' ' :: leading) tokens done (others ++ rest) := by
      rw [scan]
      rfl
    rw [List.cons_append, step, ih (fun other member => blank other (by simp [member]))]
    simp

/-- One token is scanned. -/
theorem scan_token {rest : List Char} {token : Token} (stands : StandsBefore rest token)
    (tokens : List Token) :
    scan 0 1 [] tokens [] (token.leading ++ (token.text ++ rest)) =
      scan 0 1 [] (token :: tokens) [] rest := by
  obtain ⟨first, more, text, notBreak, notGap, notComment, notEscape⟩ := stands.begins
  have continued : continuationLength (first :: (more ++ rest)) = 0 := by
    unfold continuationLength
    split <;> simp_all
  have lexed := stands.lexed
  rw [text, List.cons_append, List.length_cons] at lexed
  have same : (⟨token.kind, token.leading, first :: more, 1⟩ : Token) = token := by
    rw [← text, ← stands.line]
  have counted : (first :: more).count '\n' = 0 := text ▸ stands.oneLine
  rw [scan_blanks stands.blank, text, List.cons_append, scan]
  simp only [notBreak, notGap, notComment, if_false, Bool.false_eq_true, continued, ne_eq,
    not_true_eq_false, lexed, List.append_nil, List.reverse_reverse, Nat.add_sub_cancel,
    List.take_left, List.drop_left, same, stands.noBracket, counted, Nat.add_zero]

/-- Tokens that stand before the end of the text are scanned as one line of those tokens. -/
theorem scan_written {tokens : List Token} (stand : StandBefore [] tokens) (before : List Token) :
    scan 0 1 [] before [] (written tokens) = (closeLine (tokens.reverse ++ before) []).reverse := by
  induction tokens generalizing before with
  | nil =>
    rw [written, List.flatMap_nil, scan]
    rfl
  | cons token others ih =>
    obtain ⟨stands, later⟩ := stand
    rw [List.append_nil] at stands
    have split : written (token :: others) = token.leading ++ (token.text ++ written others) := by
      simp [written]
    rw [split, scan_token stands, ih later]
    simp

theorem lines_written {first : Token} {others : List Token}
    (stand : StandBefore [] (first :: others)) :
    lines (written (first :: others)) = [⟨indentation first.leading, first :: others⟩] := by
  rw [lines, scan_written stand]
  simp [closeLine, lineOf]

/-! ### Words and marks -/

def wordToken (leading text : List Char) : Token := ⟨.name, leading, text, 1⟩

def markToken (leading text : List Char) : Token := ⟨.mark, leading, text, 1⟩

theorem ne_of_isNameChar {char : Char} (named : isNameChar char = true) (other : Char)
    (unnamed : isNameChar other = false) : char ≠ other := by
  rintro rfl
  simp [named] at unnamed

theorem isGap_of_isNameChar {char : Char} (named : isNameChar char = true) :
    isGap char = false := by
  have apart (code : Nat) (unnamed : isNameChar (Char.ofNat code) = false) :
      char.toNat ≠ code := by
    rintro rfl
    rw [Char.ofNat_toNat, named] at unnamed
    cases unnamed
  simp [isGap, ne_of_isNameChar named ' ' rfl, ne_of_isNameChar named '\t' rfl,
    ne_of_isNameChar named '\r' rfl, ne_of_isNameChar named '\x0b' rfl,
    ne_of_isNameChar named '\x0c' rfl, apart 0xFEFF rfl, apart 0x2060 rfl,
    apart 0x200B rfl]

theorem isQuote_of_isNameChar {char : Char} (named : isNameChar char = true) :
    isQuote char = false := by
  have apart : char.toNat ≠ 0x27 := by
    intro quote
    have same : char = Char.ofNat 0x27 := by rw [← quote, Char.ofNat_toNat]
    exact ne_of_isNameChar named (Char.ofNat 0x27) rfl same
  simp [isQuote, ne_of_isNameChar named '"' rfl, apart]

/-- A character that does not continue a word: no character of names, and no quote. -/
def EndsWord (rest : List Char) : Prop :=
  ∀ char ∈ rest.head?, isNameChar char = false ∧ isQuote char = false

theorem standsBefore_word {text leading rest : List Char} (word : isWordText text = true)
    (blank : ∀ char ∈ leading, char = ' ') (ends : EndsWord rest) :
    StandsBefore rest (wordToken leading text) := by
  cases text with
  | nil => cases word
  | cons first more =>
    simp only [isWordText, List.head?_cons, Option.any_some, Bool.and_eq_true] at word
    obtain ⟨start, all⟩ := word
    have named : isNameChar first = true := (Bool.and_eq_true _ _ ▸ start : _ ∧ _).1
    have inside : ∀ char ∈ first :: more, isNameChar char = true := by
      simpa using all
    have stop : rest.takeWhile isNameChar = [] ∧ rest.dropWhile isNameChar = rest := by
      cases rest with
      | nil => exact ⟨rfl, rfl⟩
      | cons char others => simp [(ends char rfl).1]
    have unquoted : rest.head?.any isQuote = false := by
      cases rest with
      | nil => rfl
      | cons char others => simpa using (ends char rfl).2
    have taken : (first :: more ++ rest).takeWhile isNameChar = first :: more := by
      rw [List.takeWhile_append_of_pos inside, stop.1, List.append_nil]
    have dropped : (first :: more ++ rest).dropWhile isNameChar = rest := by
      rw [List.dropWhile_append_of_pos inside, stop.2]
    refine ⟨blank, rfl, ?_, ?_, ?_, rfl, rfl⟩
    · rw [List.cons_append] at taken dropped
      simp [wordToken, lexeme, isQuote_of_isNameChar named, start, taken, dropped, unquoted]
    · exact ⟨first, more, rfl, ne_of_isNameChar named _ rfl, isGap_of_isNameChar named,
        ne_of_isNameChar named _ rfl, ne_of_isNameChar named _ rfl⟩
    · apply List.count_eq_zero.2
      intro broken
      exact ne_of_isNameChar (inside _ broken) _ rfl rfl

/-- A text that continues no dot: it begins with neither a digit nor another dot. -/
def EndsDots (rest : List Char) : Prop :=
  ∀ char ∈ rest.head?, char.isDigit = false ∧ char ≠ '.'

theorem standsBefore_dot {leading rest : List Char} (blank : ∀ char ∈ leading, char = ' ')
    (digit : ∀ char ∈ rest.head?, char.isDigit = false) (apart : rest.take 2 ≠ ['.', '.']) :
    StandsBefore rest (markToken leading ['.']) := by
  have unnumbered : rest.head?.any Char.isDigit = false := by
    cases rest with
    | nil => rfl
    | cons char others => simpa using digit char rfl
  have lexed : lexeme ('.' :: rest) = (.mark, 1) := by
    simp [lexeme, unnumbered, apart, isQuote, isNameStart, isNameChar]
  exact ⟨blank, rfl, lexed, ⟨'.', [], rfl, by decide⟩, rfl, rfl, rfl⟩

/-- A dot stands before a text that does not continue it. -/
theorem standsBefore_lastDot {leading rest : List Char} (blank : ∀ char ∈ leading, char = ' ')
    (ends : EndsDots rest) : StandsBefore rest (markToken leading ['.']) := by
  apply standsBefore_dot blank (fun char same => (ends char same).1)
  intro taken
  cases rest with
  | nil => cases taken
  | cons char more => exact (ends char rfl).2 (List.cons.inj taken).1

theorem standsBefore_ellipsis {leading rest : List Char} (blank : ∀ char ∈ leading, char = ' ') :
    StandsBefore rest (markToken leading ['.', '.', '.']) :=
  ⟨blank, rfl, rfl, ⟨'.', ['.', '.'], rfl, by decide⟩, rfl, rfl, rfl⟩

theorem standsBefore_comma {rest : List Char} : StandsBefore rest (markToken [] [',']) :=
  ⟨by simp [markToken], rfl, rfl, ⟨',', [], rfl, by decide⟩, rfl, rfl, rfl⟩

theorem standsBefore_star {leading rest : List Char} (blank : ∀ char ∈ leading, char = ' ') :
    StandsBefore rest (markToken leading ['*']) :=
  ⟨blank, rfl, rfl, ⟨'*', [], rfl, by decide⟩, rfl, rfl, rfl⟩

/-! ### The tokens of a relative import -/

/-- The tokens of leading dots, three at a time as far as they go. -/
def dotTokens (leading : List Char) : Nat → List Token
  | 0 => []
  | 1 => [markToken leading ['.']]
  | 2 => [markToken leading ['.'], markToken [] ['.']]
  | count + 3 => markToken leading ['.', '.', '.'] :: dotTokens [] count

/-- The tokens of segments with dots between them. -/
def dottedTokens : List (List Char) → List Token
  | [] => []
  | [segment] => [wordToken [] segment]
  | segment :: next :: others =>
    wordToken [] segment :: markToken [] ['.'] :: dottedTokens (next :: others)

/-- The tokens of an imported name. -/
def nameTokens (imported : ImportedName) : List Token :=
  wordToken [' '] imported.name.toList ::
    match imported.renamed with
    | none => []
    | some renamed => [wordToken [' '] "as".toList, wordToken [' '] renamed.toList]

/-- The tokens of imported names with commas between them. -/
def namesTokens : List ImportedName → List Token
  | [] => []
  | [imported] => nameTokens imported
  | imported :: next :: others =>
    nameTokens imported ++ markToken [] [','] :: namesTokens (next :: others)

def ImportList.tokens : ImportList → List Token
  | .all => [markToken [' '] ['*']]
  | .names first others => namesTokens (first :: others)

/-- The tokens between `from` and `import`. -/
def moduleTokens (dots : Nat) (segments : List String) : List Token :=
  dotTokens [' '] dots ++ dottedTokens (segments.map String.toList)

def importTokens (dots : Nat) (segments : List String) (list : ImportList) : List Token :=
  moduleTokens dots segments ++ wordToken [' '] "import".toList :: list.tokens

section Text

theorem written_dotTokens (leading : List Char) {dots : Nat} (positive : 0 < dots) :
    written (dotTokens leading dots) = leading ++ List.replicate dots '.' := by
  fun_induction dotTokens leading dots with
  | case1 => cases positive
  | case2 => simp [written, markToken]
  | case3 => simp [written, markToken, List.replicate]
  | case4 leading count ih =>
    cases count with
    | zero => simp [written, markToken, dotTokens, List.replicate]
    | succ count =>
      have later := ih (by omega)
      simp only [written] at later
      simp [written, markToken, later, List.replicate_succ]

theorem written_dottedTokens (segments : List (List Char)) :
    written (dottedTokens segments) = List.intercalate ['.'] segments := by
  fun_induction dottedTokens segments with
  | case1 => rfl
  | case2 segment => simp [written, wordToken]
  | case3 segment next others ih =>
    rw [List.intercalate_cons_cons, ← ih]
    simp [written, wordToken, markToken]

theorem written_nameTokens (imported : ImportedName) :
    written (nameTokens imported) = ' ' :: imported.text.toList := by
  unfold nameTokens ImportedName.text
  cases imported.renamed <;> simp [written, wordToken]

theorem written_namesTokens {names : List ImportedName} (nonempty : names ≠ []) :
    written (namesTokens names) =
      ' ' :: List.intercalate [',', ' '] (names.map (fun name => name.text.toList)) := by
  fun_induction namesTokens names with
  | case1 => exact absurd rfl nonempty
  | case2 imported => simp [written_nameTokens]
  | case3 imported next others ih =>
    have here := written_nameTokens imported
    have later := ih (by simp)
    simp only [written] at here later
    simp [written, here, later, markToken, List.intercalate_cons_cons]

theorem written_tokens (list : ImportList) : written list.tokens = ' ' :: list.text.toList := by
  cases list with
  | all => rfl
  | names first others =>
    rw [ImportList.tokens, written_namesTokens (by simp), ImportList.text,
      String.toList_intercalate, List.map_map]
    rfl

theorem written_append (first second : List Token) :
    written (first ++ second) = written first ++ written second := by
  simp [written]

/-- The text of a relative import is that of its tokens. -/
theorem toList_relativeImport {dots : Nat} (positive : 0 < dots) (segments : List String)
    (list : ImportList) :
    (relativeImport dots segments list).toList =
      written (wordToken [] "from".toList :: importTokens dots segments list) := by
  have word : written [wordToken [' '] "import".toList] = " import".toList := rfl
  have start : written [wordToken [] "from".toList] = "from".toList := rfl
  rw [importTokens, moduleTokens, ← List.singleton_append (x := wordToken [] _),
    ← List.singleton_append (x := wordToken [' '] _)]
  simp only [written_append, word, start, written_dotTokens _ positive, written_dottedTokens,
    written_tokens]
  simp [relativeImport, relativeModule, String.toList_intercalate]

end Text

section Standing

theorem endsWord_cons {char : Char} (unnamed : isNameChar char = false)
    (unquoted : isQuote char = false) (rest : List Char) : EndsWord (char :: rest) := by
  intro other same
  cases same
  exact ⟨unnamed, unquoted⟩

theorem endsDots_of_isWordText {word : List Char} (named : isWordText word = true)
    (rest : List Char) : EndsDots (word ++ rest) := by
  cases word with
  | nil => cases named
  | cons first more =>
    intro char same
    cases same
    simp only [isWordText, List.head?_cons, Option.any_some, Bool.and_eq_true, isNameStart] at named
    exact ⟨by simpa using named.1.2, ne_of_isNameChar named.1.1 _ rfl⟩

theorem standBefore_dotTokens {leading rest : List Char} (blank : ∀ char ∈ leading, char = ' ')
    (ends : EndsDots rest) (dots : Nat) : StandBefore rest (dotTokens leading dots) := by
  fun_induction dotTokens leading dots with
  | case1 => trivial
  | case2 leading => exact ⟨standsBefore_lastDot blank ends, trivial⟩
  | case3 leading =>
    refine ⟨standsBefore_dot blank ?_ ?_, standsBefore_lastDot (by simp) ends, trivial⟩
    · rintro char ⟨⟩
      rfl
    · intro taken
      cases rest with
      | nil => cases taken
      | cons char more => exact (ends char rfl).2 (List.cons.inj (List.cons.inj taken).2).1
  | case4 leading count ih => exact ⟨standsBefore_ellipsis blank, ih (by simp)⟩

theorem endsDots_dottedTokens {segment : List Char} (named : isWordText segment = true)
    (others : List (List Char)) (rest : List Char) :
    EndsDots (written (dottedTokens (segment :: others)) ++ rest) := by
  rw [written_dottedTokens]
  cases others with
  | nil =>
    rw [List.intercalate_singleton]
    exact endsDots_of_isWordText named rest
  | cons next others =>
    rw [List.intercalate_cons_cons, List.append_assoc, List.append_assoc]
    exact endsDots_of_isWordText named _

theorem standBefore_dottedTokens {rest : List Char} (ends : EndsWord rest)
    {segments : List (List Char)} (named : ∀ segment ∈ segments, isWordText segment = true) :
    StandBefore rest (dottedTokens segments) := by
  fun_induction dottedTokens segments with
  | case1 => trivial
  | case2 segment => exact ⟨standsBefore_word (named segment (by simp)) (by simp) ends, trivial⟩
  | case3 segment next others ih =>
    have words : ∀ other ∈ next :: others, isWordText other = true :=
      fun other member => named other (by simp [member])
    exact ⟨standsBefore_word (named segment (by simp)) (by simp) (endsWord_cons rfl rfl _),
      standsBefore_lastDot (by simp) (endsDots_dottedTokens (words next (by simp)) others rest),
      ih words⟩

theorem isWordText_of_isIdentifier {name : String} (named : isIdentifier name = true) :
    isWordText name.toList = true :=
  (Bool.and_eq_true _ _ ▸ named : _ ∧ _).1

theorem standBefore_nameTokens {imported : ImportedName} (proper : imported.isProper = true)
    {rest : List Char} (ends : EndsWord rest) : StandBefore rest (nameTokens imported) := by
  obtain ⟨name, renamed⟩ := imported
  simp only [ImportedName.isProper, Bool.and_eq_true] at proper
  have named := isWordText_of_isIdentifier proper.1
  cases renamed with
  | none => exact ⟨standsBefore_word named (by simp) ends, trivial⟩
  | some renamed =>
    have other := isWordText_of_isIdentifier proper.2
    exact ⟨standsBefore_word named (by simp) (endsWord_cons rfl rfl _),
      standsBefore_word rfl (by simp) (endsWord_cons rfl rfl _),
      standsBefore_word other (by simp) ends, trivial⟩

theorem standBefore_namesTokens {names : List ImportedName}
    (proper : ∀ imported ∈ names, imported.isProper = true) :
    StandBefore [] (namesTokens names) := by
  fun_induction namesTokens names with
  | case1 => trivial
  | case2 imported =>
    exact standBefore_nameTokens (proper imported (by simp)) (by simp [EndsWord])
  | case3 imported next others ih =>
    rw [standBefore_append]
    refine ⟨standBefore_nameTokens (proper imported (by simp)) (endsWord_cons rfl rfl _),
      standsBefore_comma, ih (fun other member => proper other (by simp [member]))⟩

theorem standBefore_tokens {list : ImportList} (proper : list.isProper = true) :
    StandBefore [] list.tokens := by
  cases list with
  | all => exact ⟨standsBefore_star (by simp), trivial⟩
  | names first others => exact standBefore_namesTokens (List.all_eq_true.1 proper)

/-- The tokens of a relative import are scanned as themselves. -/
theorem standBefore_importTokens (dots : Nat) {segments : List String}
    (named : ∀ segment ∈ segments, isIdentifier segment = true) {list : ImportList}
    (proper : list.isProper = true) : StandBefore [] (importTokens dots segments list) := by
  have words : ∀ segment ∈ segments.map String.toList, isWordText segment = true := by
    intro segment member
    obtain ⟨name, listed, rfl⟩ := List.mem_map.1 member
    exact isWordText_of_isIdentifier (named name listed)
  have ending : EndsWord (written list.tokens ++ []) := by
    rw [written_tokens]
    exact endsWord_cons rfl rfl _
  have afterDots : EndsDots (written (dottedTokens (segments.map String.toList)) ++
      (written (wordToken [' '] "import".toList :: list.tokens) ++ [])) := by
    cases segments with
    | nil =>
      rintro char ⟨⟩
      exact ⟨rfl, by decide⟩
    | cons segment others =>
      exact endsDots_dottedTokens (isWordText_of_isIdentifier (named segment (by simp))) _ _
  rw [importTokens, moduleTokens, standBefore_append, standBefore_append]
  exact ⟨⟨standBefore_dotTokens (by simp) afterDots dots,
    standBefore_dottedTokens (endsWord_cons rfl rfl _) words⟩,
    standsBefore_word rfl (by simp) ending, standBefore_tokens proper⟩

end Standing

/-! ### Taking the tokens apart -/

section Reading

/-- Whether a token ends no statement and leaves the brackets and parameter lists around it as they
are. -/
def isFlat (token : Token) : Bool :=
  !token.opens && !token.closes && !token.isWord "lambda" && !token.isMark ";"

theorem splitMarksFrom_append {mark : String} {tokens : List Token}
    (flat : ∀ token ∈ tokens, isFlat token = true)
    (absent : ∀ token ∈ tokens, token.isMark mark = false) (part : List Token)
    (done : List (List Token)) (rest : List Token) :
    splitMarksFrom mark 0 0 part done (tokens ++ rest) =
      splitMarksFrom mark 0 0 (tokens.reverse ++ part) done rest := by
  induction tokens generalizing part with
  | nil => rfl
  | cons token others ih =>
    have level := flat token (by simp)
    simp only [isFlat, Bool.and_eq_true, Bool.not_eq_true'] at level
    obtain ⟨⟨⟨opens, closes⟩, lambda⟩, -⟩ := level
    rw [List.cons_append, splitMarksFrom]
    simp only [absent token (by simp), depthAfter, opens, closes, lambdasAfter, lambda,
      Bool.and_false, Bool.false_eq_true, if_false, Nat.zero_sub, ite_self]
    rw [ih (fun other member => flat other (by simp [member]))
      (fun other member => absent other (by simp [member]))]
    simp

/-- Tokens without the mark are one part. -/
theorem splitMarks_of_absent {mark : String} {tokens : List Token} (nonempty : tokens ≠ [])
    (flat : ∀ token ∈ tokens, isFlat token = true)
    (absent : ∀ token ∈ tokens, token.isMark mark = false) :
    splitMarks mark tokens = [tokens] := by
  have whole := splitMarksFrom_append flat absent [] [] []
  rw [List.append_nil, List.append_nil, splitMarksFrom, List.reverse_reverse] at whole
  simp [splitMarks, whole, nonempty]

theorem isWord_wordToken {text : List Char} {word : String} (apart : text ≠ word.toList)
    (leading : List Char) : (wordToken leading text).isWord word = false :=
  decide_eq_false apart

theorem isWord_wordToken_self (leading : List Char) (word : String) :
    (wordToken leading word.toList).isWord word = true :=
  decide_eq_true rfl

@[simp] theorem isMark_wordToken (leading text : List Char) (mark : String) :
    (wordToken leading text).isMark mark = false := rfl

@[simp] theorem isMark_markToken (leading text : List Char) (mark : String) :
    (markToken leading text).isMark mark = decide (text = mark.toList) := rfl

theorem isFlat_wordToken {text : List Char} (apart : text ≠ "lambda".toList) (leading : List Char) :
    isFlat (wordToken leading text) = true := by
  rw [isFlat, isWord_wordToken apart]
  rfl

/-- An identifier is no reserved word. -/
theorem toList_ne_of_isIdentifier {name : String} (named : isIdentifier name = true) (word : String)
    (reserved : reservedWords.contains word = true) : name.toList ≠ word.toList := by
  intro same
  rw [String.toList_inj] at same
  subst same
  simp only [isIdentifier, reserved, Bool.not_true, Bool.and_false, Bool.false_eq_true] at named

theorem isFlat_nameTokens {imported : ImportedName} (proper : imported.isProper = true) :
    ∀ token ∈ nameTokens imported, isFlat token = true ∧ token.isMark "," = false := by
  obtain ⟨name, renamed⟩ := imported
  simp only [ImportedName.isProper, Bool.and_eq_true] at proper
  have here := isFlat_wordToken (toList_ne_of_isIdentifier proper.1 "lambda" rfl) [' ']
  cases renamed with
  | none => simpa [nameTokens] using here
  | some renamed =>
    have other :=
      isFlat_wordToken (toList_ne_of_isIdentifier proper.2 "lambda" rfl) [' ']
    simpa [nameTokens] using ⟨here, rfl, other⟩

theorem splitMarksFrom_namesTokens {names : List ImportedName} (nonempty : names ≠ [])
    (proper : ∀ imported ∈ names, imported.isProper = true) (done : List (List Token)) :
    splitMarksFrom "," 0 0 [] done (namesTokens names) = done.reverse ++ names.map nameTokens := by
  fun_induction namesTokens names generalizing done with
  | case1 => exact absurd rfl nonempty
  | case2 imported =>
    have plain := isFlat_nameTokens (proper imported (by simp))
    have whole := splitMarksFrom_append (fun token member => (plain token member).1)
      (fun token member => (plain token member).2) [] done []
    rw [List.append_nil, List.append_nil, splitMarksFrom] at whole
    simp [whole]
  | case3 imported next others ih =>
    have plain := isFlat_nameTokens (proper imported (by simp))
    rw [splitMarksFrom_append (fun token member => (plain token member).1)
      (fun token member => (plain token member).2), splitMarksFrom]
    simp only [isMark_markToken]
    rw [if_pos (by decide), ih (by simp) (fun other member => proper other (by simp [member]))]
    simp

theorem spanText_nameTokens (imported : ImportedName) :
    spanText (nameTokens imported) = imported.text := by
  have whole : ' ' :: spanChars (nameTokens imported) = written (nameTokens imported) := rfl
  rw [written_nameTokens, List.cons.injEq] at whole
  rw [spanText, whole.2, String.ofList_toList]

theorem importNameOf_nameTokens {imported : ImportedName} (proper : imported.isProper = true) :
    importNameOf (nameTokens imported) = imported.node := by
  have spelled := spanText_nameTokens imported
  obtain ⟨name, renamed⟩ := imported
  simp only [ImportedName.isProper, Bool.and_eq_true] at proper
  have here := isWord_wordToken (toList_ne_of_isIdentifier proper.1 "as" rfl) [' ']
  have alone : spanText [wordToken [' '] name.toList] = name := by
    simp [spanText, spanChars, wordToken]
  cases renamed with
  | none => simp [importNameOf, nameTokens, here, alone, ImportedName.node]
  | some renamed =>
    have stop := isWord_wordToken_self [' '] "as"
    have taken : (nameTokens ⟨name, some renamed⟩).takeWhile (fun token => !token.isWord "as") =
        [wordToken [' '] name.toList] := by
      rw [nameTokens, List.takeWhile_cons_of_pos (by rw [here]; rfl),
        List.takeWhile_cons_of_neg (by rw [stop]; decide)]
    rw [importNameOf, taken, spelled, alone]
    rfl

/-- The names after `import` are read as they are written. -/
theorem importedOf_tokens {list : ImportList} (proper : list.isProper = true) :
    importedOf list.tokens = list.imported := by
  cases list with
  | all => rfl
  | names first others =>
    have begins : (namesTokens (first :: others)).head? =
        some (wordToken [' '] first.name.toList) := by
      cases others <;> rfl
    have parts : splitMarks "," (namesTokens (first :: others)) =
        (first :: others).map nameTokens := by
      rw [splitMarks, splitMarksFrom_namesTokens (by simp) (List.all_eq_true.1 proper)]
      simp [nameTokens]
    have read : ∀ imported ∈ first :: others, importNameOf (nameTokens imported) = imported.node :=
      fun imported member => importNameOf_nameTokens (List.all_eq_true.1 proper imported member)
    rw [ImportList.tokens, importedOf, begins]
    simp only [Option.any_some, isMark_wordToken, Bool.false_eq_true, if_false, parts,
      List.map_map, ImportList.imported]
    congr 1
    exact List.map_congr_left read

theorem isFlat_namesTokens {names : List ImportedName}
    (proper : ∀ imported ∈ names, imported.isProper = true) :
    ∀ token ∈ namesTokens names, isFlat token = true := by
  fun_induction namesTokens names with
  | case1 => simp
  | case2 imported =>
    exact fun token member => (isFlat_nameTokens (proper imported (by simp)) token member).1
  | case3 imported next others ih =>
    intro token member
    rcases List.mem_append.1 member with here | later
    · exact (isFlat_nameTokens (proper imported (by simp)) token here).1
    · rcases List.mem_cons.1 later with rfl | later
      · rfl
      · exact ih (fun other member => proper other (by simp [member])) token later

theorem isFlat_tokens {list : ImportList} (proper : list.isProper = true) :
    ∀ token ∈ list.tokens, isFlat token = true := by
  cases list with
  | all =>
    intro token member
    obtain rfl := List.mem_singleton.1 member
    rfl
  | names first others => exact isFlat_namesTokens (List.all_eq_true.1 proper)

theorem isFlat_dotTokens (leading : List Char) (dots : Nat) :
    ∀ token ∈ dotTokens leading dots, isFlat token = true ∧ token.isWord "import" = false := by
  have mark (before text : List Char) (flat : isFlat (markToken [] text) = true) :
      isFlat (markToken before text) = true ∧ (markToken before text).isWord "import" = false :=
    ⟨flat, rfl⟩
  fun_induction dotTokens leading dots with
  | case1 => simp
  | case2 leading => exact List.forall_mem_singleton.2 (mark leading ['.'] rfl)
  | case3 leading =>
    exact List.forall_mem_cons.2
      ⟨mark leading ['.'] rfl, List.forall_mem_singleton.2 (mark [] ['.'] rfl)⟩
  | case4 leading count ih =>
    exact List.forall_mem_cons.2 ⟨mark leading ['.', '.', '.'] rfl, ih⟩

theorem isFlat_dottedTokens {segments : List String}
    (named : ∀ segment ∈ segments, isIdentifier segment = true) :
    ∀ token ∈ dottedTokens (segments.map String.toList),
      isFlat token = true ∧ token.isWord "import" = false := by
  have word (segment : String) (identifier : isIdentifier segment = true) :
      isFlat (wordToken [] segment.toList) = true ∧
        (wordToken [] segment.toList).isWord "import" = false :=
    ⟨isFlat_wordToken (toList_ne_of_isIdentifier identifier "lambda" rfl) [],
      isWord_wordToken (toList_ne_of_isIdentifier identifier "import" rfl) []⟩
  match segments with
  | [] => simp [dottedTokens]
  | [segment] => exact List.forall_mem_singleton.2 (word segment (named segment (by simp)))
  | segment :: next :: others =>
    have later : ∀ other ∈ next :: others, isIdentifier other = true :=
      fun other member => named other (List.mem_cons_of_mem _ member)
    exact List.forall_mem_cons.2 ⟨word segment (named segment (by simp)),
      List.forall_mem_cons.2 ⟨⟨rfl, rfl⟩, isFlat_dottedTokens later⟩⟩

/-- The tokens of a module's text end neither a statement nor that text. -/
theorem isFlat_moduleTokens (dots : Nat) {segments : List String}
    (named : ∀ segment ∈ segments, isIdentifier segment = true) :
    ∀ token ∈ moduleTokens dots segments, isFlat token = true ∧ token.isWord "import" = false := by
  intro token member
  rcases List.mem_append.1 member with dot | dotted
  · exact isFlat_dotTokens _ _ token dot
  · exact isFlat_dottedTokens named token dotted

theorem dotTokens_eq_cons (leading : List Char) {dots : Nat} (positive : 0 < dots) :
    ∃ text rest, dotTokens leading dots = markToken leading text :: rest := by
  match dots with
  | 1 | 2 | _ + 3 => exact ⟨_, _, rfl⟩

/-- The text between `from` and `import`. -/
theorem spanText_moduleTokens {dots : Nat} (positive : 0 < dots) (segments : List String) :
    spanText (moduleTokens dots segments) = relativeModule dots segments := by
  obtain ⟨text, rest, begins⟩ := dotTokens_eq_cons [' '] positive
  have whole : ' ' :: spanChars (moduleTokens dots segments) =
      written (moduleTokens dots segments) := by
    rw [moduleTokens, begins]
    rfl
  rw [moduleTokens, written_append, written_dotTokens _ positive, written_dottedTokens,
    List.append_assoc, List.singleton_append, List.cons.injEq] at whole
  rw [spanText, moduleTokens, whole.2, relativeModule, ← String.toList_inj]
  simp [String.toList_intercalate]

theorem importFromOf_importTokens {dots : Nat} (positive : 0 < dots) {segments : List String}
    (named : ∀ segment ∈ segments, isIdentifier segment = true) {list : ImportList}
    (proper : list.isProper = true) :
    importFromOf (importTokens dots segments list) =
      .importFrom (.relative (relativeModule dots segments)) list.imported := by
  have inside : ∀ token ∈ moduleTokens dots segments, (!token.isWord "import") = true := by
    intro token member
    simp [(isFlat_moduleTokens dots named token member).2]
  have origin : (importTokens dots segments list).takeWhile (fun token => !token.isWord "import") =
      moduleTokens dots segments := by
    have stop := isWord_wordToken_self [' '] "import"
    rw [importTokens, List.takeWhile_append_of_pos inside,
      List.takeWhile_cons_of_neg (by rw [stop]; decide), List.append_nil]
  have after : (importTokens dots segments list).drop ((moduleTokens dots segments).length + 1) =
      list.tokens := by
    simp [importTokens, List.drop_append]
  obtain ⟨text, rest, begins⟩ := dotTokens_eq_cons [' '] positive
  have first : moduleTokens dots segments =
      markToken [' '] text :: (rest ++ dottedTokens (segments.map String.toList)) := by
    rw [moduleTokens, begins, List.cons_append]
  simp only [importFromOf, origin, after, importedOf_tokens proper]
  rw [← spanText_moduleTokens positive, first]
  rfl

/-- A line alone is a block of its own statements. -/
theorem readBlock_singleton {line : Line} (bare : isDecorator line = false) :
    (readBlock 0 false [] 0 [line]).1 = lineStatements line [] := by
  rw [readBlock]
  simp [bare, readBlock]

theorem lineStatements_fromTokens {dots : Nat} (positive : 0 < dots) {segments : List String}
    (named : ∀ segment ∈ segments, isIdentifier segment = true) {list : ImportList}
    (proper : list.isProper = true) (indent : Nat) :
    lineStatements ⟨indent, wordToken [] "from".toList :: importTokens dots segments list⟩ [] =
      [.importFrom (.relative (relativeModule dots segments)) list.imported] := by
  have flat : ∀ token ∈ wordToken [] "from".toList :: importTokens dots segments list,
      isFlat token = true := by
    rw [importTokens, List.forall_mem_cons, List.forall_mem_append, List.forall_mem_cons]
    exact ⟨rfl, fun token member => (isFlat_moduleTokens dots named token member).1, rfl,
      isFlat_tokens proper⟩
  have single : splitMarks ";" (wordToken [] "from".toList :: importTokens dots segments list) =
      [wordToken [] "from".toList :: importTokens dots segments list] := by
    apply splitMarks_of_absent (by simp) flat
    intro token member
    have level := flat token member
    simp only [isFlat, Bool.and_eq_true, Bool.not_eq_true'] at level
    exact level.2
  have read : simpleStatement (wordToken [] "from".toList :: importTokens dots segments list) =
      .importFrom (.relative (relativeModule dots segments)) list.imported :=
    importFromOf_importTokens positive named proper
  change simpleStatements _ = _
  rw [simpleStatements, single, List.map_singleton, read]

/-- The text of a relative import is read as that import alone. -/
theorem statements_relativeImport {dots : Nat} (positive : 0 < dots) {segments : List String}
    (named : ∀ segment ∈ segments, isIdentifier segment = true) {list : ImportList}
    (proper : list.isProper = true) :
    statements (relativeImport dots segments list).toList =
      [.importFrom (.relative (relativeModule dots segments)) list.imported] := by
  have start : EndsWord (written (importTokens dots segments list) ++ []) := by
    obtain ⟨text, rest, begins⟩ := dotTokens_eq_cons [' '] positive
    rw [importTokens, moduleTokens, begins]
    exact endsWord_cons rfl rfl _
  have stand : StandBefore [] (wordToken [] "from".toList :: importTokens dots segments list) :=
    ⟨standsBefore_word rfl (by simp) start, standBefore_importTokens dots named proper⟩
  rw [toList_relativeImport positive, statements, lines_written stand, readBlock_singleton rfl,
    lineStatements_fromTokens positive named proper]

end Reading

end RepoAtlas.Source
