/-
Module: RepoAtlas.Store.Key
Purpose: The file name under which the snapshot of a repository is kept.
  Each run of characters that a portable file name should not hold becomes two dashes, and dashes
  and dots at the ends are dropped, so the name is never hidden and never leaves its directory.
Main exports: isPortable, replaceRuns, keyStem, keyFileName
-/
import RepoAtlas.Text.Characters

namespace RepoAtlas.Store

open Text

/-- Whether a character may stand in a portable file name. -/
def isPortable (char : Char) : Bool :=
  char.isAlphanum || char == '.' || char == '_' || char == '-'

/-- Replaces each run of other characters by two dashes.  `inRun` says that the character before
was such a one. -/
def replaceRuns (inRun : Bool) : List Char → List Char
  | [] => []
  | char :: rest =>
    if isPortable char then char :: replaceRuns false rest
    else if inRun then replaceRuns true rest
    else '-' :: '-' :: replaceRuns true rest

/-- Whether a character is dropped at the ends of a name. -/
def isTrimmed (char : Char) : Bool :=
  char == '-' || char == '.'

/-- The stem when no character of a key is left. -/
def emptyStem : List Char := ['s', 't', 'a', 't', 'e']

/-- The file name of a key without its extension. -/
def keyStem (key : List Char) : List Char :=
  let trimmed := dropEndWhile isTrimmed ((replaceRuns false key).dropWhile isTrimmed)
  if trimmed.isEmpty then emptyStem else trimmed

/-- The file name of a key. -/
def keyFileName (key : String) : String :=
  String.ofList (keyStem key.toList ++ ".json".toList)

end RepoAtlas.Store
