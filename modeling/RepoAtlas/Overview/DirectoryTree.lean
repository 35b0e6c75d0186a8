/-
Module: RepoAtlas.Overview.DirectoryTree
Purpose: The discovered paths as a tree of directories, and its drawing.
  Children stand in order of first appearance.  A drawing puts directories before files and each in
  order of names, and marks the files that many others import.
Main exports: DirectoryNode, insertPath, treeOf, sorted, draw
-/
import RepoAtlas.Imports.Graph

namespace RepoAtlas.Overview

/-- A directory or file, with the number of its importers if one is recorded. -/
inductive DirectoryNode where
  | node (name path : String) (hubCount : Option Int) (children : List DirectoryNode)
deriving Inhabited

namespace DirectoryNode

/-- The last segment of the path. -/
def name : DirectoryNode → String
  | .node name _ _ _ => name

/-- The path from the root. -/
def path : DirectoryNode → String
  | .node _ path _ _ => path

/-- The recorded number of importers. -/
def hubCount : DirectoryNode → Option Int
  | .node _ _ hubCount _ => hubCount

/-- The entries of a directory. -/
def children : DirectoryNode → List DirectoryNode
  | .node _ _ _ children => children

/-- Whether enough files import this one. -/
def isHub (node : DirectoryNode) : Bool :=
  node.hubCount.any (fun count => (Imports.hubThreshold : Int) ≤ count)

/-- The same node with other children. -/
def withChildren : DirectoryNode → List DirectoryNode → DirectoryNode
  | .node name path hubCount _, children => .node name path hubCount children

end DirectoryNode

/-- The non-empty segments of a path. -/
def segments (path : String) : List String :=
  (Text.splitText '/' path).filter (· ≠ "")

/-- Adds a path to the children of a directory.  `above` holds the segments from the root to that
directory, and `degrees` the recorded numbers of importers. -/
def insertPath (degrees : String → Option Int) (above : List String) :
    (parts : List String) → List DirectoryNode → List DirectoryNode
  | [], children => children
  | part :: rest, children =>
    let here := above ++ [part]
    if children.any (fun child => child.name = part) then
      children.map (fun child =>
        if child.name = part then
          child.withChildren (insertPath degrees here rest child.children)
        else child)
    else
      let path := String.intercalate "/" here
      children ++ [.node part path (degrees path) (insertPath degrees here rest [])]

/-- The tree of the given paths. -/
def treeOf (paths : List String) (degrees : String → Option Int) : DirectoryNode :=
  .node "." "." none
    (paths.foldl (fun children path => insertPath degrees [] (segments path) children) [])

/-- Directories before files, then by name. -/
def drawnBefore (first second : DirectoryNode) : Bool :=
  if first.children.isEmpty = second.children.isEmpty then first.name ≤ second.name
  else second.children.isEmpty

mutual

/-- The tree with the children of every node in the order in which they are drawn. -/
def sorted : DirectoryNode → DirectoryNode
  | .node name path hubCount children =>
    .node name path hubCount ((sortedAll children).mergeSort drawnBefore)

/-- `sorted` on each of the nodes. -/
def sortedAll : List DirectoryNode → List DirectoryNode
  | [] => []
  | child :: rest => sorted child :: sortedAll rest

end

/-- The mark behind the name of a hub. -/
def hubMark (node : DirectoryNode) : String :=
  match node.hubCount with
  | some count => if node.isHub then " [HUB: " ++ toString count ++ "←]" else ""
  | none => ""

mutual

/-- The drawing of a node below `lead`, with its children in the order in which they stand.  A node
named `.` has no line of its own. -/
def drawNode (lead : String) (isLast : Bool) : DirectoryNode → String
  | .node name path hubCount children =>
    let own : DirectoryNode := .node name path hubCount []
    let line := lead ++ (if isLast then "└── " else "├── ") ++ name ++ hubMark own
    let inner := if name = "." then "" else lead ++ (if isLast then "    " else "│   ")
    let below := drawAll inner children
    String.intercalate "\n" (if name = "." then below else line :: below)

/-- The drawings of the children of a node. -/
def drawAll (lead : String) : List DirectoryNode → List String
  | [] => []
  | child :: rest => drawNode lead rest.isEmpty child :: drawAll lead rest

end

/-- The drawing of a tree. -/
def draw (tree : DirectoryNode) : String :=
  drawNode "" true (sorted tree)

end RepoAtlas.Overview
