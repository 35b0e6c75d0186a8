/-
Module: RepoAtlas.Analysis.Basic
Purpose: One run over the contents of a repository: outlines, survey, changes and new snapshot.
  Each file is given to the parser by itself.  A file whose text the parser cannot decode becomes a
  warning and counts as not parsed; any other failure of a parser ends the run.
Main exports: ParserFailure, Parser, standardParser, parseAll, AnalysisFailure, Analysis, analyze
-/
import RepoAtlas.Analysis.Survey
import RepoAtlas.Snapshot.Changes
import RepoAtlas.Source.Reader
import RepoAtlas.Source.Summary

namespace RepoAtlas

open Text.Utf8

/-- How a parser fails. -/
inductive ParserFailure where
  /-- The text of the file cannot be decoded. -/
  | undecodable (reason : String)
  /-- Something else is wrong. -/
  | fatal (reason : String)
deriving DecidableEq, Repr, Inhabited

/-- A parser of single files.  It gives no outline for a file it cannot handle. -/
abbrev Parser := String → Content → Except ParserFailure (Option Outline)

/-- The parser of sources in a grammar, which never fails. -/
def standardParser (grammar : Source.Grammar) : Parser :=
  fun path content => .ok (Source.parse grammar path content)

/-- Why a run gives no result. -/
inductive AnalysisFailure where
  | parser (reason : String)
  /-- A content cannot be fingerprinted. -/
  | content (flaw : Unencodable)
deriving DecidableEq, Repr, Inhabited

/-- The outline of a file, or the reason why its text cannot be decoded. -/
def parseFile (parser : Parser) (path : String) (content : Content) :
    Except AnalysisFailure (Except String (Option Outline)) :=
  match parser path content with
  | .ok outline => .ok (.ok outline)
  | .error (.undecodable reason) => .ok (.error reason)
  | .error (.fatal reason) => .error (.parser reason)

/-- The warning for a file whose text cannot be decoded. -/
def parseWarning (path reason : String) : String :=
  "failed to parse " ++ path ++ ": " ++ reason

/-- The warnings of the parsed files, in their order. -/
def parseWarnings (results : OrderedMap String (Except String (Option Outline))) : List String :=
  results.entries.filterMap (fun (path, result) =>
    match result with
    | .ok _ => none
    | .error reason => some (parseWarning path reason))

/-- The outlines of the parsed files. -/
def parsedOutlines (results : OrderedMap String (Except String (Option Outline))) : FileMap :=
  results.mapWithKey (fun _ result =>
    match result with
    | .ok outline => outline
    | .error _ => none)

/-- The result of a run. -/
structure Analysis extends Survey where
  changes : Changes
  snapshot : Snapshot
  warnings : List String
deriving Inhabited

/-- Whether some file was parsed. -/
def Analysis.hasParsed (analysis : Analysis) : Bool :=
  analysis.files.values.any Option.isSome

/-- What a run is told apart from the contents. -/
structure Request where
  name : String
  repositoryPath : String
  previous : Option Snapshot := none
  commit : String := ""
  stamp : Stamp := .real .zero
  parser : Parser := standardParser Source.statements

/-- Runs every stage over the contents. -/
def analyze (request : Request) (contents : OrderedMap String Content) :
    Except AnalysisFailure Analysis := do
  let results ← contents.traverse (parseFile request.parser)
  let files := parsedOutlines results
  let changes ← (Changes.detect (underPoints contents) request.previous).mapError .content
  let snapshot ← (Snapshot.take (underPoints files) (underPoints contents) request.commit
    request.stamp).mapError .content
  return { Survey.ofFiles request.name request.repositoryPath files with
    changes := changes
    snapshot := snapshot
    warnings := parseWarnings results }

end RepoAtlas
