/-
Module: RepoAtlas.CommandLine.Options
Purpose: The options of the command line.
  Options may stand anywhere before a double dash, short ones may be run together, and of a repeated
  option only the last value is looked at.
Main exports: OptionName, UsageError, UsageError.message, Words, splitWords, Format, Options,
  Options.ofWords, Options.parse
-/
import RepoAtlas.Number.Reading
import RepoAtlas.Repository.Discovery

namespace RepoAtlas.CommandLine

open Text

/-- The options. -/
inductive OptionName where
  | maxFiles
  | language
  | maxFileSize
  | stateDirectory
  | commit
  | format
  | verbose
  | help
deriving DecidableEq, Repr, Inhabited

namespace OptionName

/-- The long names of the options. -/
def longNames : List (String × OptionName) := [
  ("--max-files", .maxFiles), ("--language", .language), ("--max-file-size", .maxFileSize),
  ("--state-dir", .stateDirectory), ("--commit", .commit), ("--format", .format),
  ("--verbose", .verbose), ("--help", .help)]

/-- The letters of the options that have one. -/
def letters : List (Char × OptionName) := [
  ('n', .maxFiles), ('l', .language), ('f', .format), ('v', .verbose)]

/-- Whether an option has a value. -/
def takesValue : OptionName → Bool
  | .verbose => false
  | .help => false
  | _ => true

end OptionName

/-- Why a command line is refused. -/
inductive UsageError where
  | unknownOption (text : String)
  | missingValue (text : String)
  | unexpectedValue (text : String)
  | notInteger (text : String)
  | belowMinimum (value : Int)
  | unknownFormat (text : String)
  | extraArgument (text : String)
  | noSuchDirectory (path : String)
  | notDirectory (path : String)
deriving DecidableEq, Repr, Inhabited

/-- The sentence for a refused command line. -/
def UsageError.message : UsageError → String
  | .unknownOption text => "No such option: " ++ text
  | .missingValue text => "Option '" ++ text ++ "' requires an argument."
  | .unexpectedValue text => "Option '" ++ text ++ "' does not take a value."
  | .notInteger text => "'" ++ text ++ "' is not a valid integer."
  | .belowMinimum value => Json.integerText value ++ " is not in the range x>=1."
  | .unknownFormat text => "'" ++ text ++ "' is not one of 'toon', 'mermaid', 'markdown'."
  | .extraArgument text => "Got unexpected extra argument (" ++ text ++ ")"
  | .noSuchDirectory path => "Directory '" ++ path ++ "' does not exist."
  | .notDirectory path => "Directory '" ++ path ++ "' is a file."

/-- The words of a command line, told apart: options with their values, the latest first, and
arguments in order. -/
structure Words where
  given : List (OptionName × String) := []
  arguments : List String := []
deriving DecidableEq, Repr, Inhabited

namespace Words

/-- Notes an option. -/
def note (words : Words) (name : OptionName) (value : String) : Words :=
  { words with given := (name, value) :: words.given }

/-- Adds arguments. -/
def addArguments (words : Words) (more : List String) : Words :=
  { words with arguments := words.arguments ++ more }

/-- The last value of an option. -/
def value? (words : Words) (name : OptionName) : Option String :=
  words.given.lookup name

end Words

/-- An option word taken apart: the options it sets, and perhaps one whose value is the next word. -/
structure OptionWord where
  settled : List (OptionName × String) := []
  waiting : Option (OptionName × String) := none

/-- Takes letters apart that are run together.  The rest after a letter with a value is the value. -/
def readLetters (settled : List (OptionName × String)) : List Char → Except UsageError OptionWord
  | [] => .ok { settled := settled }
  | letter :: rest =>
    let text := String.ofList ['-', letter]
    match OptionName.letters.lookup letter with
    | none => .error (.unknownOption text)
    | some name =>
      if name.takesValue then
        if rest.isEmpty then .ok { settled := settled, waiting := some (name, text) }
        else .ok { settled := (name, String.ofList rest) :: settled }
      else readLetters ((name, "") :: settled) rest

/-- The value after the first equals sign of a word. -/
def explicitValue? (word : List Char) : Option String :=
  match word.dropWhile (· ≠ '=') with
  | [] => none
  | _ :: value => some (String.ofList value)

/-- Takes an option word apart. -/
def readOptionWord (word : String) : Except UsageError OptionWord :=
  let long := before '=' word
  match OptionName.longNames.lookup long with
  | some name =>
    match explicitValue? word.toList, name.takesValue with
    | some value, true => .ok { settled := [(name, value)] }
    | some _, false => .error (.unexpectedValue long)
    | none, true => .ok { waiting := some (name, long) }
    | none, false => .ok { settled := [(name, "")] }
  | none =>
    if startsWith word "--" then .error (.unknownOption long)
    else readLetters [] (word.toList.drop 1)

/-- Whether a word is an option: a dash with something after it. -/
def isOptionWord (word : String) : Bool :=
  startsWith word "-" && word ≠ "-"

/-- Tells the words of a command line apart. -/
def splitWords (words : Words) : List String → Except UsageError Words
  | [] => .ok words
  | word :: rest =>
    if word = "--" then .ok (words.addArguments rest)
    else if isOptionWord word then
      match readOptionWord word with
      | .error flaw => .error flaw
      | .ok option =>
        let words := { words with given := option.settled ++ words.given }
        match option.waiting, rest with
        | none, rest => splitWords words rest
        | some (_, text), [] => .error (.missingValue text)
        | some (name, _), value :: rest => splitWords (words.note name value) rest
    else splitWords (words.addArguments [word]) rest
termination_by rest => rest.length

/-- The formats of the output. -/
inductive Format where
  | toon
  | mermaid
  | markdown
deriving DecidableEq, Repr, Inhabited

/-- The names of the formats. -/
def formatNames : List (String × Format) := [
  ("toon", .toon), ("mermaid", .mermaid), ("markdown", .markdown)]

/-- A command line that has been understood. -/
structure Options where
  /-- The root of the repository, by default the working directory. -/
  root : String := "."
  maxFiles : Option Int := none
  language : Option String := none
  maxFileSize : Int := Repository.defaultSizeLimit
  stateDirectory : Option String := none
  commit : Option String := none
  format : Format := .toon
  verbose : Bool := false
  help : Bool := false
deriving DecidableEq, Repr, Inhabited

/-- Reads a positive number. -/
def readPositive (text : String) : Except UsageError Int :=
  match Number.readCount? text.toList with
  | none => .error (.notInteger text)
  | some value => if value < 1 then .error (.belowMinimum value) else .ok value

/-- Reads the name of a format. -/
def readFormat (text : String) : Except UsageError Format :=
  match formatNames.lookup text with
  | some format => .ok format
  | none => .error (.unknownFormat text)

/-- Reads the value of an option if it was given. -/
def readGiven {α : Type} (read : String → Except UsageError α) :
    Option String → Except UsageError (Option α)
  | none => .ok none
  | some text => (read text).map some

namespace Options

/-- The options that words stand for. -/
def ofWords (words : Words) : Except UsageError Options := do
  let root ←
    match words.arguments with
    | [] => pure "."
    | [root] => pure root
    | _ :: extra :: _ => throw (.extraArgument extra)
  let maxFiles ← readGiven readPositive (words.value? .maxFiles)
  let maxFileSize ← readGiven readPositive (words.value? .maxFileSize)
  let format ← readGiven readFormat (words.value? .format)
  return {
    root := root
    maxFiles := maxFiles
    language := words.value? .language
    maxFileSize := maxFileSize.getD Repository.defaultSizeLimit
    stateDirectory := words.value? .stateDirectory
    commit := words.value? .commit
    format := format.getD .toon
    verbose := (words.value? .verbose).isSome }

/-- The options that a command line stands for.  A call for help is heard even if the values of other
options are wrong. -/
def parse (arguments : List String) : Except UsageError Options := do
  let words ← splitWords {} arguments
  if (words.value? .help).isSome then return { help := true }
  ofWords words

end Options

end RepoAtlas.CommandLine
