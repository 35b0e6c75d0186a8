/-
Module: RepoAtlas.Overview.FindingTable
Purpose: Where to look for classes and functions of each layer, with examples.
  A row collects the files of one layer that define something of one kind.  Its location is the
  first directory among them, and its examples come from the first two names of each file.
Main exports: Finding, findingTable
-/
import RepoAtlas.Architecture.Layer
import RepoAtlas.Outline
import RepoAtlas.Path

namespace RepoAtlas.Overview

open Architecture

/-- A row of the table. -/
structure Finding where
  pattern : String
  location : String
  examples : List String
deriving DecidableEq, Repr, Inhabited

/-- What has been found under a key so far: a location and examples. -/
structure Found where
  location : String
  examples : List String
deriving DecidableEq, Repr, Inhabited

/-- The key of a kind of definition in a layer. -/
def findingKey (layer : Option Layer) (noun : String) : String :=
  match layer with
  | some layer => layer.word ++ " " ++ noun
  | none => noun

/-- Adds the definitions of one kind in one file. -/
def addFinding (found : OrderedMap String Found) (path noun : String) (symbols : List Symbol) :
    OrderedMap String Found :=
  if symbols.isEmpty then found
  else
    let directory := Path.directory path
    let names := (symbols.take 2).map Symbol.name
    found.alter (findingKey (Layer.ofPath path) noun) ⟨directory, []⟩ (fun entry =>
      ⟨if entry.location = "" then directory else entry.location, entry.examples ++ names⟩)

/-- Adds the classes and then the functions of a file. -/
def addFile (found : OrderedMap String Found) (path : String) (outline : Option Outline) :
    OrderedMap String Found :=
  match outline with
  | none => found
  | some outline =>
    addFinding (addFinding found path "classes" outline.classes) path "functions" outline.functions

/-- The table of the discovered files. -/
def findingTable (files : FileMap) : List Finding :=
  let found := files.entries.foldl (fun found (path, outline) => addFile found path outline)
    ({} : OrderedMap String Found)
  found.entries.map (fun (pattern, entry) =>
    ⟨pattern, if entry.location = "" then "." else entry.location,
      entry.examples.eraseDups.take 3⟩)

end RepoAtlas.Overview
