/-
Module: RepoAtlas.Overview.Markdown
Purpose: The overview of a repository as a markdown document.
Main exports: table, markdown
-/
import RepoAtlas.Overview.Basic

namespace RepoAtlas.Overview

open Diagram

/-- Cells between bars. -/
def tableRow (cells : List String) : String :=
  "| " ++ String.intercalate " | " cells ++ " |"

/-- A line of dashes under each heading, two longer than the heading. -/
def tableRule (headings : List String) : String :=
  let dashes (heading : String) : String := String.ofList (List.replicate (heading.length + 2) '-')
  "|" ++ String.intercalate "|" (headings.map dashes) ++ "|"

/-- The lines of a table. -/
def table (headings : List String) (rows : List (List String)) : List String :=
  tableRow headings :: tableRule headings :: rows.map tableRow

/-- A table, or a sentence in its place when it would have no rows. -/
def tableOr (headings : List String) (rows : List (List String)) (sentence : String) :
    List String :=
  if rows.isEmpty then [sentence] else table headings rows

/-- Text set as code. -/
def code (text : String) : String :=
  "`" ++ text ++ "`"

/-- Names separated by commas. -/
def names (items : List String) : String :=
  String.intercalate ", " items

/-- A text, or a dash for none. -/
def orDash (text : String) : String :=
  if text = "" then "-" else text

/-- The section of the entry points. -/
def entryPointLines (report : Report) : List String :=
  tableOr ["Path", "Type", "Exports"]
    (report.entryPoints.map (fun entry =>
      [code entry.path, entry.kind.word, orDash (names (entry.exports.take 3))]))
    "No entry points detected."

/-- The section of the first twenty core modules. -/
def coreModuleLines (report : Report) : List String :=
  tableOr ["Path", "Purpose", "Key Exports"]
    ((report.coreModules.take 20).map (fun module =>
      [code module.path, module.purpose, names (module.exports.take 3)]))
    "No core modules detected."

/-- The section of the first fifteen hubs. -/
def hubLines (report : Report) : List String :=
  tableOr ["Path", "Importers", "Exports"]
    ((report.hubs.take 15).map (fun hub =>
      [code hub.path, toString hub.importerCount ++ "←", orDash (names (hub.exports.take 3))]))
    "No dependency hubs detected."

/-- The section of the class diagram, absent without inheritance. -/
def inheritanceLines (report : Report) : List String :=
  if report.inheritance.isEmpty then []
  else
    ["", "## Inheritance", "", "```mermaid", renderInheritance report.inheritance, "```"]

/-- The section that says where to find things. -/
def findingLines (report : Report) : List String :=
  tableOr ["Pattern", "Location", "Examples"]
    (report.findingTable.map (fun finding =>
      [finding.pattern, code finding.location, orDash (names finding.examples)]))
    "No patterns detected."

/-- The document. -/
def markdown (report : Report) : String :=
  String.intercalate "\n"
    (["# Architecture", "", "## Entry Points", ""] ++ entryPointLines report ++
      ["", "## Core Modules", ""] ++ coreModuleLines report ++
      ["", "## Dependency Hubs", "",
        "Files imported by " ++ toString Imports.hubThreshold ++ "+ other files:", ""] ++
      hubLines report ++
      ["", "## Layer Diagram", "", "```mermaid", renderLayers report.layers, "```"] ++
      inheritanceLines report ++
      ["", "## Directory Structure", "", "```", draw report.directoryTree, "```"] ++
      ["", "## Finding Things", ""] ++ findingLines report)

end RepoAtlas.Overview
