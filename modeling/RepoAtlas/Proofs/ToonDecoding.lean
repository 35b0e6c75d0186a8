/-
Module: RepoAtlas.Proofs.ToonDecoding
Purpose: The notation loses nothing of what it prints.
  A value ends where it seems to: quoted ones at the first quotation mark that no backslash
  precedes, the others at the first comma or line break, since none of them contains any.  So rows,
  tables and whole documents are read back from left to right.
Main exports: readCell, Form, Printed, printed, decode, readCell_encodeChars, Form.read_table,
  decode_text, encode_determines_printed
-/
import RepoAtlas.Toon.Document
import RepoAtlas.Proofs.JsonNumbers
import Mathlib.Data.List.TakeWhile

namespace RepoAtlas.Toon

open Number Ranking

/-! ### Values -/

/-- The character that stands as a backslash and a letter. -/
def unescapeChar (letter : Char) : Char :=
  if letter = 'n' then '\n'
  else if letter = 'r' then '\r'
  else if letter = 't' then '\t'
  else letter

/-- Reads a quoted value after its opening mark, and gives what follows the closing one. -/
def readQuoted : List Char → Option (List Char × List Char)
  | [] => none
  | '"' :: rest => some ([], rest)
  | '\\' :: letter :: rest =>
    (readQuoted rest).map (fun (text, rest) => (unescapeChar letter :: text, rest))
  | char :: rest => (readQuoted rest).map (fun (text, rest) => (char :: text, rest))

/-- Whether a character ends a value without quotes. -/
def endsCell (char : Char) : Bool :=
  char = ',' || char = '\n'

/-- Reads a value and gives what follows it. -/
def readCell : List Char → Option (List Char × List Char)
  | '"' :: rest => readQuoted rest
  | chars => some (chars.takeWhile (!endsCell ·), chars.dropWhile (!endsCell ·))

/-- What may follow a value: nothing, or a character that ends it. -/
def EndsCell (rest : List Char) : Prop :=
  ∀ char ∈ rest.head?, endsCell char = true

theorem readQuoted_escapeChar (char : Char) (chars : List Char) :
    readQuoted (escapeChar char ++ chars) =
      (readQuoted chars).map (fun (text, rest) => (char :: text, rest)) := by
  unfold escapeChar
  split_ifs with backslash mark feed carriage tab
  · rw [backslash]; rfl
  · rw [mark]; rfl
  · rw [feed]; rfl
  · rw [carriage]; rfl
  · rw [tab]; rfl
  · simp [readQuoted, backslash]

theorem readQuoted_flatMap (chars rest : List Char) :
    readQuoted (chars.flatMap escapeChar ++ '"' :: rest) = some (chars, rest) := by
  induction chars with
  | nil => rfl
  | cons char chars ih =>
    rw [List.flatMap_cons, List.append_assoc, readQuoted_escapeChar, ih]
    rfl

theorem isDigit_of_plain {char : Char} (least : '1' ≤ char) (most : char ≤ '9') :
    isDigit char = true := by
  have low : 0x31 ≤ char.toNat := least
  have high : char.toNat ≤ 0x39 := most
  have found : (0x30 ≤ char.toNat && char.toNat ≤ 0x30 + 9) = true := by
    rw [Bool.and_eq_true, decide_eq_true_eq, decide_eq_true_eq]
    omega
  rw [isDigit, Text.digitValue?, Option.isSome_map, List.find?_isSome]
  exact ⟨0x30, by decide, found⟩

theorem isDigit_of_isFraction {chars : List Char} (fraction : isFraction chars = true)
    {char : Char} (member : char ∈ chars) : char = '.' ∨ isDigit char = true := by
  unfold isFraction at fraction
  split at fraction
  · cases member
  · next figures =>
    rw [Bool.and_eq_true, List.all_eq_true] at fraction
    exact (List.mem_cons.1 member).imp id (fraction.2 char)
  · cases fraction

theorem isDigit_of_isUnsignedNumber {chars : List Char} (number : isUnsignedNumber chars = true)
    {char : Char} (member : char ∈ chars) : char = '.' ∨ isDigit char = true := by
  unfold isUnsignedNumber at number
  split at number
  · cases member
  · next first rest =>
    split_ifs at number with zero positive
    · rcases List.mem_cons.1 member with rfl | later
      · exact .inr (zero ▸ by decide)
      · exact isDigit_of_isFraction number later
    · rcases List.mem_cons.1 member with rfl | later
      · exact .inr (isDigit_of_plain positive.1 positive.2)
      · rw [← List.takeWhile_append_dropWhile (p := isDigit) (l := rest), List.mem_append] at later
        rcases later with figure | later
        · exact .inr (List.mem_takeWhile_imp figure)
        · exact isDigit_of_isFraction number later

/-- The characters of a number: none of them ends a value or opens a quoted one. -/
theorem isDigit_of_isNumeric {chars : List Char} (number : isNumeric chars = true)
    {char : Char} (member : char ∈ chars) : char = '-' ∨ char = '.' ∨ isDigit char = true := by
  unfold isNumeric at number
  split at number
  · rcases List.mem_cons.1 member with sign | later
    · exact .inl sign
    · exact .inr (isDigit_of_isUnsignedNumber number later)
  · exact .inr (isDigit_of_isUnsignedNumber number member)

/-- A value that needs no quotes has no character that would end it or open a quoted value. -/
theorem plain_of_needsQuotes {chars : List Char} (plain : needsQuotes chars = false)
    {char : Char} (member : char ∈ chars) : endsCell char = false ∧ char ≠ '"' := by
  have apart : char ≠ ',' ∧ char ≠ '\n' ∧ char ≠ '"' := by
    unfold needsQuotes at plain
    split_ifs at plain with blank keyword number
    · rcases isDigit_of_isNumeric number member with rfl | rfl | digit
      · decide
      · decide
      · refine ⟨?_, ?_, ?_⟩ <;> rintro rfl <;> exact absurd digit (by decide)
    · rw [Bool.or_eq_false_iff, List.any_eq_false] at plain
      rw [Bool.or_eq_true, not_or, Bool.not_eq_true, Bool.not_eq_true, List.any_eq_false] at blank
      refine ⟨?_, ?_, ?_⟩ <;> rintro rfl
      · exact plain.1 _ member (by decide)
      · exact blank.2 _ member (by decide)
      · exact plain.1 _ member (by decide)
  exact ⟨by simp [endsCell, apart.1, apart.2.1], apart.2.2⟩

theorem readCell_of_plain (value : List Char) (nonempty : value ≠ [])
    (plain : ∀ char ∈ value, endsCell char = false ∧ char ≠ '"') {rest : List Char}
    (ends : EndsCell rest) : readCell (value ++ rest) = some (value, rest) := by
  have body : ∀ char ∈ value, (!endsCell char) = true := by
    intro char member
    rw [(plain char member).1, Bool.not_false]
  have unquoted : ∀ chars, value ++ rest ≠ '"' :: chars := by
    intro chars same
    cases value with
    | nil => exact nonempty rfl
    | cons first others => exact (plain first (by simp)).2 (List.cons.inj same).1
  rw [readCell, List.takeWhile_append_of_pos body, List.dropWhile_append_of_pos body]
  · cases rest with
    | nil => simp
    | cons first others => simp [ends first rfl]
  · exact unquoted

/-- A value is read back, whatever it contains and however it is written. -/
theorem readCell_encodeChars (value : List Char) {rest : List Char} (ends : EndsCell rest) :
    readCell (encodeChars value ++ rest) = some (value, rest) := by
  unfold encodeChars
  split_ifs with quoted
  · rw [quote, List.append_assoc, List.append_assoc]
    exact readQuoted_flatMap value rest
  · rw [Bool.or_eq_true, not_or, Bool.not_eq_true, Bool.not_eq_true] at quoted
    apply readCell_of_plain value (List.isEmpty_eq_false_iff.1 quoted.1) _ ends
    intro char member
    exact plain_of_needsQuotes quoted.2 member

/-! ### Rows and tables -/

/-- Reads items one after the other. -/
def readMany {α : Type} (read : List Char → Option (α × List Char)) :
    Nat → List Char → Option (List α × List Char)
  | 0, chars => some ([], chars)
  | count + 1, chars => do
    let (item, rest) ← read chars
    let (items, rest) ← readMany read count rest
    some (item :: items, rest)

/-- Reads a value that stands after a given text. -/
def readAfter (lead : List Char) (chars : List Char) : Option (String × List Char) := do
  let rest ← chars.dropPrefix? lead
  let (value, rest) ← readCell rest
  some (String.ofList value, rest)

/-- The number that a text of digits spells. -/
def countOfText (text : String) : Option Nat :=
  if text.toList.all isPlainDigit then some (digitsValue text.toList) else none

/-- A kind of table: how an entry is written in the cells of a row, and how it is read from them. -/
structure Form (α : Type) where
  name : String
  columns : List String
  cells : α → List String
  ofCells : List String → Option α
  columns_ne_nil : columns ≠ []
  length_cells : ∀ entry, (cells entry).length = columns.length
  ofCells_cells : ∀ entry, ofCells (cells entry) = some entry

namespace Form

variable {α : Type} (form : Form α)

/-- The table of some entries. -/
def table (entries : List α) : Table where
  name := form.name
  columns := form.columns
  rows := entries.map form.cells

/-- Reads the line of one entry.  A comma is put before the first cell, so that each has one. -/
def readRow (chars : List Char) : Option (α × List Char) := do
  let rest ← chars.dropPrefix? ['\n', ' ', ' ']
  let (cells, rest) ← readMany (readAfter [',']) form.columns.length (',' :: rest)
  let entry ← form.ofCells cells
  some (entry, rest)

/-- Reads a table after a line break. -/
def read (chars : List Char) : Option (List α × List Char) := do
  let rest ← chars.dropPrefix? ('\n' :: (form.name ++ "[").toList)
  let count := digitsValue (rest.takeWhile isPlainDigit)
  let rest ← (rest.dropWhile isPlainDigit).dropPrefix?
    ("]\x7b" ++ String.intercalate "," form.columns ++ "\x7d:").toList
  readMany form.readRow count rest

end Form

theorem dropPrefix?_append_self (lead rest : List Char) :
    (lead ++ rest).dropPrefix? lead = some rest :=
  List.dropPrefix?_append_of_beq rest (beq_self_eq_true lead)

/-- Items are read one after the other when each begins with a character that ends a value. -/
theorem readMany_flatMap {α : Type} (read : List Char → Option (α × List Char))
    (text : α → List Char) (items : List α)
    (reads : ∀ item ∈ items, ∀ rest, EndsCell rest → read (text item ++ rest) = some (item, rest))
    (begins : ∀ item ∈ items, ∀ rest, EndsCell (text item ++ rest))
    {rest : List Char} (ends : EndsCell rest) :
    readMany read items.length (items.flatMap text ++ rest) = some (items, rest) := by
  induction items with
  | nil => rfl
  | cons item items ih =>
    have later : EndsCell (items.flatMap text ++ rest) := by
      cases items with
      | nil => exact ends
      | cons next others =>
        rw [List.flatMap_cons, List.append_assoc]
        exact begins next (by simp) _
    have first := reads item (by simp) _ later
    have others := ih (fun other member => reads other (by simp [member]))
      (fun other member => begins other (by simp [member]))
    rw [List.length_cons, readMany, List.flatMap_cons, List.append_assoc, first]
    simp [others]

theorem readAfter_encodeValue (lead : List Char) (value : String) {rest : List Char}
    (ends : EndsCell rest) :
    readAfter lead (lead ++ ((encodeValue value).toList ++ rest)) = some (value, rest) := by
  rw [readAfter, dropPrefix?_append_self, encodeValue, String.toList_ofList]
  simp [readCell_encodeChars value.toList ends]

/-- A text before every part instead of between the parts. -/
theorem append_intercalate (separator : List Char) {parts : List (List Char)}
    (nonempty : parts ≠ []) :
    separator ++ List.intercalate separator parts = parts.flatMap (separator ++ ·) := by
  induction parts with
  | nil => exact absurd rfl nonempty
  | cons part parts ih =>
    cases parts with
    | nil => simp
    | cons next others =>
      rw [List.intercalate_cons_cons, List.flatMap_cons, ← ih (by simp)]
      simp

/-- The text of some lines after a line break. -/
theorem toList_lines {lines : List String} (nonempty : lines ≠ []) :
    '\n' :: (String.intercalate "\n" lines).toList =
      lines.flatMap (fun line => '\n' :: line.toList) := by
  have breaks := append_intercalate ['\n']
    (mt List.map_eq_nil_iff.1 nonempty : lines.map String.toList ≠ [])
  rw [List.flatMap_map] at breaks
  rw [String.toList_intercalate]
  exact breaks

theorem toList_toString (count : Nat) : (toString count).toList = digits count :=
  String.toList_ofList

theorem countOfText_toString (count : Nat) : countOfText (toString count) = some count := by
  rw [countOfText, toList_toString, digitsValue_digits, if_pos]
  rw [List.all_eq_true]
  intro char member
  exact isPlainDigit_of_mem_digits member

namespace Form

variable {α : Type} (form : Form α)

theorem readRow_rowLine (entry : α) {rest : List Char} (ends : EndsCell rest) :
    form.readRow ('\n' :: (rowLine (form.cells entry)).toList ++ rest) = some (entry, rest) := by
  have some_cell : (form.cells entry).map (fun cell => (encodeValue cell).toList) ≠ [] := by
    rw [Ne, List.map_eq_nil_iff, ← List.length_eq_zero_iff, form.length_cells,
      List.length_eq_zero_iff]
    exact form.columns_ne_nil
  have line : '\n' :: (rowLine (form.cells entry)).toList ++ rest =
      ['\n', ' ', ' '] ++
        (List.intercalate [','] ((form.cells entry).map (fun cell => (encodeValue cell).toList)) ++
          rest) := by
    simp [rowLine, String.toList_intercalate, Function.comp_def]
  have cells := readMany_flatMap (readAfter [','])
    (fun cell => [','] ++ (encodeValue cell).toList) (form.cells entry)
    (fun cell _ rest ends => by rw [List.append_assoc, readAfter_encodeValue [','] cell ends])
    (fun cell _ rest char member => by cases member; rfl) ends
  have commas := append_intercalate [','] some_cell
  rw [List.flatMap_map] at commas
  rw [← commas, form.length_cells, List.singleton_append, List.cons_append] at cells
  rw [readRow, line, dropPrefix?_append_self]
  simp [cells, form.ofCells_cells]

/-- A table is read back, with its number of rows. -/
theorem read_table (entries : List α) {rest : List Char} (ends : EndsCell rest) :
    form.read ('\n' :: (form.table entries).render.toList ++ rest) = some (entries, rest) := by
  let columns := ("]\x7b" ++ String.intercalate "," form.columns ++ "\x7d:").toList
  let rows := entries.flatMap (fun entry => '\n' :: (rowLine (form.cells entry)).toList)
  have text : '\n' :: (form.table entries).render.toList ++ rest =
      ('\n' :: (form.name ++ "[").toList) ++
        (digits entries.length ++ (columns ++ (rows ++ rest))) := by
    rw [Table.render, toList_lines (List.cons_ne_nil _ _), List.flatMap_cons, List.flatMap_map]
    simp only [Table.heading, table, String.toList_append, toList_toString, List.length_map,
      List.flatMap_map, List.cons_append, List.append_assoc, columns, rows]
  have digit : ∀ char ∈ digits entries.length, isPlainDigit char = true :=
    fun _ => isPlainDigit_of_mem_digits
  have stops : Json.EndsDigits (columns ++ (rows ++ rest)) := by
    intro char member
    obtain rfl : ']' = char := by simpa [columns] using member
    decide
  have entriesRead := readMany_flatMap form.readRow _ entries
    (fun entry _ rest ends => form.readRow_rowLine entry ends)
    (fun entry _ rest char member => by cases member; rfl) ends
  rw [read, text, dropPrefix?_append_self]
  simp only [Option.bind_eq_bind, Option.bind_some, Json.takeWhile_digits_append digit stops,
    Json.dropWhile_digits_append digit stops, digitsValue_digits]
  rw [dropPrefix?_append_self]
  exact entriesRead

end Form

/-! ### The document -/

/-- What is printed of a ranked file. -/
structure FileRow where
  path : String
  role : Role
  /-- The importance with three decimals. -/
  importance : String
  exportCount : Nat
  functionCount : Nat
deriving DecidableEq

/-- The role that a word stands for. -/
def roleOfWord (word : String) : Option Role :=
  [Role.entry, .config, .types, .test, .util, .doc, .core].find? (fun role => role.word = word)

theorem roleOfWord_word (role : Role) : roleOfWord role.word = some role := by
  cases role <;> decide

/-- The form of the table of ranked files. -/
def filesForm : Form FileRow where
  name := "files"
  columns := ["path", "role", "importance", "exports", "functions"]
  cells file := [file.path, file.role.word, file.importance, toString file.exportCount,
    toString file.functionCount]
  ofCells
    | [path, role, importance, exports, functions] => do
      let role ← roleOfWord role
      let exportCount ← countOfText exports
      let functionCount ← countOfText functions
      some ⟨path, role, importance, exportCount, functionCount⟩
    | _ => none
  columns_ne_nil := List.cons_ne_nil _ _
  length_cells _ := rfl
  ofCells_cells file := by
    simp only [roleOfWord_word, countOfText_toString, Option.bind_eq_bind, Option.bind_some]

/-- The form of the table of hubs. -/
def hubsForm : Form (String × Nat) where
  name := "hubs"
  columns := ["path", "importers"]
  cells hub := [hub.1, toString hub.2]
  ofCells
    | [path, importers] => (countOfText importers).map (path, ·)
    | _ => none
  columns_ne_nil := List.cons_ne_nil _ _
  length_cells _ := rfl
  ofCells_cells hub := by simp only [countOfText_toString, Option.map_some]

/-- The form of a table with two columns of texts. -/
def pairsForm (name first second : String) : Form (String × String) where
  name := name
  columns := [first, second]
  cells pair := [pair.1, pair.2]
  ofCells
    | [first, second] => some (first, second)
    | _ => none
  columns_ne_nil := List.cons_ne_nil _ _
  length_cells _ := rfl
  ofCells_cells _ := rfl

/-- The form of the table of entities, with the number of files of each. -/
def entitiesForm : Form (String × String × Nat) where
  name := "entities"
  columns := ["name", "path", "files"]
  cells entity := [entity.1, entity.2.1, toString entity.2.2]
  ofCells
    | [name, path, files] => (countOfText files).map (name, path, ·)
    | _ => none
  columns_ne_nil := List.cons_ne_nil _ _
  length_cells _ := rfl
  ofCells_cells entity := by simp only [countOfText_toString, Option.map_some]

/-- What is printed of a survey.  An empty framework is none, and a missing scope is empty. -/
structure Printed where
  name : String
  language : String
  framework : Option String
  hasTests : Bool
  hasDocs : Bool
  files : List FileRow
  /-- Path and number of importers. -/
  hubs : List (String × Nat)
  /-- Source and target. -/
  dependencies : List (String × String)
  /-- Path and reason. -/
  quickPaths : List (String × String)
  /-- Pattern and scope. -/
  searchPatterns : List (String × String)
  /-- Name, path and number of files. -/
  entities : List (String × String × Nat)
deriving DecidableEq

/-- What is printed of a survey without a limit. -/
def printed (survey : Survey) : Printed where
  name := survey.name
  language := survey.skeleton.detectedPatterns.language
  framework := survey.skeleton.detectedPatterns.framework.filter (· ≠ "")
  hasTests := survey.skeleton.detectedPatterns.hasTests
  hasDocs := survey.skeleton.detectedPatterns.hasDocs
  files := survey.ranked.map (fun file =>
    ⟨file.path, file.role, file.importance.fixedText, file.exportCount, file.functionCount⟩)
  hubs := survey.imports.hubs.map (fun hub => (hub.path, hub.inDegree))
  dependencies := survey.imports.edges.map (fun edge => (edge.source, edge.target))
  quickPaths := survey.skeleton.quickPaths.map (fun quick => (quick.path, quick.reason))
  searchPatterns := survey.skeleton.searchPatterns.map (fun search =>
    (search.pattern, search.scope.getD ""))
  entities := survey.skeleton.entities.map (fun entity =>
    (entity.name, entity.path, entity.files.length))

/-- The word for an optional value. -/
def optionalWord (value : Option String) : String :=
  (value.map encodeValue).getD "null"

/-- The document of what is printed. -/
def Printed.text (content : Printed) : String :=
  String.intercalate "\n"
    ["repo: " ++ encodeValue content.name,
      "language: " ++ encodeValue content.language,
      "framework: " ++ optionalWord content.framework,
      "has_tests: " ++ truthWord content.hasTests,
      "has_docs: " ++ truthWord content.hasDocs,
      (filesForm.table content.files).render,
      (hubsForm.table content.hubs).render,
      ((pairsForm "dependencies" "source" "target").table content.dependencies).render,
      ((pairsForm "quick_paths" "path" "reason").table content.quickPaths).render,
      ((pairsForm "search_patterns" "pattern" "scope").table content.searchPatterns).render,
      (entitiesForm.table content.entities).render]

theorem encode_eq_text (survey : Survey) : encode survey none = (printed survey).text := by
  simp only [encode, fieldLines, tables, filesTable, hubsTable, dependenciesTable, quickPathsTable,
    searchPatternsTable, entitiesTable, listedFiles, Printed.text, printed, Form.table, filesForm,
    hubsForm, pairsForm, entitiesForm, optionalWord, List.map_map, Function.comp_def,
    List.map_cons, List.map_nil, List.cons_append, List.nil_append]

/-- Reads an optional value after a given text.  The word for none is not quoted. -/
def readOptional (lead : List Char) (chars : List Char) :
    Option (Option String × List Char) := do
  let cell ← chars.dropPrefix? lead
  let (value, rest) ← readCell cell
  if cell.head? ≠ some '"' ∧ value = "null".toList then some (none, rest)
  else some (some (String.ofList value), rest)

/-- Reads a truth value after a given text. -/
def readTruth (lead : List Char) (chars : List Char) : Option (Bool × List Char) := do
  let (word, rest) ← readAfter lead chars
  if word = "true" then some (true, rest)
  else if word = "false" then some (false, rest)
  else none

/-- Reads a document. -/
def decode (text : String) : Option Printed := do
  let (name, rest) ← readAfter ('\n' :: "repo: ".toList) ('\n' :: text.toList)
  let (language, rest) ← readAfter ('\n' :: "language: ".toList) rest
  let (framework, rest) ← readOptional ('\n' :: "framework: ".toList) rest
  let (hasTests, rest) ← readTruth ('\n' :: "has_tests: ".toList) rest
  let (hasDocs, rest) ← readTruth ('\n' :: "has_docs: ".toList) rest
  let (files, rest) ← filesForm.read rest
  let (hubs, rest) ← hubsForm.read rest
  let (dependencies, rest) ← (pairsForm "dependencies" "source" "target").read rest
  let (quickPaths, rest) ← (pairsForm "quick_paths" "path" "reason").read rest
  let (searchPatterns, rest) ← (pairsForm "search_patterns" "pattern" "scope").read rest
  let (entities, rest) ← entitiesForm.read rest
  if rest.isEmpty then
    some ⟨name, language, framework, hasTests, hasDocs, files, hubs, dependencies, quickPaths,
      searchPatterns, entities⟩
  else none

theorem endsCell_break (chars rest : List Char) : EndsCell ('\n' :: chars ++ rest) := by
  intro char member
  cases member
  rfl

/-- The word for none is no encoding of a value: as a value it would be quoted. -/
theorem encodeChars_unquoted_ne {value : List Char} (plain : (encodeChars value).head? ≠ some '"') :
    value ≠ "null".toList := by
  rintro rfl
  exact plain (by decide)

theorem readOptional_optionalWord (lead : List Char) (value : Option String) {rest : List Char}
    (ends : EndsCell rest) :
    readOptional lead (lead ++ ((optionalWord value).toList ++ rest)) = some (value, rest) := by
  rw [readOptional, dropPrefix?_append_self]
  simp only [Option.bind_eq_bind, Option.bind_some]
  cases value with
  | none =>
    have word := readCell_of_plain "null".toList (by decide) (by simp [endsCell]) ends
    have letter : ("null".toList ++ rest).head? ≠ some '"' := by simp
    change (readCell ("null".toList ++ rest)).bind _ = _
    rw [word, Option.bind_some, if_pos ⟨letter, rfl⟩]
  | some value =>
    have cell : (optionalWord (some value)).toList = encodeChars value.toList :=
      String.toList_ofList
    rw [cell, readCell_encodeChars _ ends, Option.bind_some, if_neg, String.ofList_toList]
    rintro ⟨plain, word⟩
    refine encodeChars_unquoted_ne (fun quoted => plain ?_) word
    rw [List.head?_append, quoted]
    rfl

theorem readTruth_truthWord (lead : List Char) (value : Bool) {rest : List Char}
    (ends : EndsCell rest) :
    readTruth lead (lead ++ ((truthWord value).toList ++ rest)) = some (value, rest) := by
  have word : readCell ((truthWord value).toList ++ rest) = some ((truthWord value).toList, rest) :=
    readCell_of_plain _ (by cases value <;> decide)
      (by cases value <;> simp [truthWord, endsCell]) ends
  rw [readTruth, readAfter, dropPrefix?_append_self]
  simp only [Option.bind_eq_bind, Option.bind_some, word, String.ofList_toList]
  cases value <;> rfl

/-- A document is read back. -/
theorem decode_text (content : Printed) : decode content.text = some content := by
  have text : '\n' :: content.text.toList =
      ('\n' :: "repo: ".toList) ++ ((encodeValue content.name).toList ++
      (('\n' :: "language: ".toList) ++ ((encodeValue content.language).toList ++
      (('\n' :: "framework: ".toList) ++ ((optionalWord content.framework).toList ++
      (('\n' :: "has_tests: ".toList) ++ ((truthWord content.hasTests).toList ++
      (('\n' :: "has_docs: ".toList) ++ ((truthWord content.hasDocs).toList ++
      ('\n' :: (filesForm.table content.files).render.toList ++
      ('\n' :: (hubsForm.table content.hubs).render.toList ++
      ('\n' :: ((pairsForm "dependencies" "source" "target").table
        content.dependencies).render.toList ++
      ('\n' :: ((pairsForm "quick_paths" "path" "reason").table
        content.quickPaths).render.toList ++
      ('\n' :: ((pairsForm "search_patterns" "pattern" "scope").table
        content.searchPatterns).render.toList ++
      ('\n' :: (entitiesForm.table content.entities).render.toList ++ []))))))))))))))) := by
    rw [Printed.text, toList_lines (List.cons_ne_nil _ _)]
    simp only [List.flatMap_cons, List.flatMap_nil, String.toList_append, List.cons_append,
      List.append_assoc]
  have last : EndsCell [] := by simp [EndsCell]
  rw [decode, text]
  -- One step for each reader, in the order in which they stand.
  refine Option.bind_eq_some_iff.2 ⟨_, readAfter_encodeValue _ _ (endsCell_break _ _), ?_⟩
  refine Option.bind_eq_some_iff.2 ⟨_, readAfter_encodeValue _ _ (endsCell_break _ _), ?_⟩
  refine Option.bind_eq_some_iff.2 ⟨_, readOptional_optionalWord _ _ (endsCell_break _ _), ?_⟩
  refine Option.bind_eq_some_iff.2 ⟨_, readTruth_truthWord _ _ (endsCell_break _ _), ?_⟩
  refine Option.bind_eq_some_iff.2 ⟨_, readTruth_truthWord _ _ (endsCell_break _ _), ?_⟩
  refine Option.bind_eq_some_iff.2 ⟨_, Form.read_table _ _ (endsCell_break _ _), ?_⟩
  refine Option.bind_eq_some_iff.2 ⟨_, Form.read_table _ _ (endsCell_break _ _), ?_⟩
  refine Option.bind_eq_some_iff.2 ⟨_, Form.read_table _ _ (endsCell_break _ _), ?_⟩
  refine Option.bind_eq_some_iff.2 ⟨_, Form.read_table _ _ (endsCell_break _ _), ?_⟩
  refine Option.bind_eq_some_iff.2 ⟨_, Form.read_table _ _ (endsCell_break _ _), ?_⟩
  refine Option.bind_eq_some_iff.2 ⟨_, Form.read_table _ _ last, ?_⟩
  rfl

/-- A document determines everything that it prints, and is determined by it. -/
theorem encode_determines_printed :
    (∀ survey, decode (encode survey none) = some (printed survey)) ∧
      ∀ first second, encode first none = encode second none ↔ printed first = printed second := by
  have decoded : ∀ survey, decode (encode survey none) = some (printed survey) := by
    intro survey
    rw [encode_eq_text, decode_text]
  refine ⟨decoded, fun first second => ⟨fun same => ?_, fun same => ?_⟩⟩
  · have read := decoded first
    rw [same, decoded second] at read
    exact (Option.some.inj read).symm
  · rw [encode_eq_text, encode_eq_text, same]

end RepoAtlas.Toon
