/-
Module: RepoAtlas.Proofs.NodeIdentifiers
Purpose: Which files of a flowchart share a node.
  An identifier keeps the letters and digits of a path without their case, and one mark for each
  other character between them.  What it forgets is said here without writing it down: two paths have
  one identifier exactly when their cores look alike, character by character, where a path without
  any letter or digit looks like the word `node`.  Edges are drawn between different files all the
  same.
Main exports: LooksLike, IsCore, shownAs, SharesNode, exists_isCore, identifier_of_isCore,
  identifier_eq_iff, nodup_paths_significant, nodes_shared_by_looks
-/
import RepoAtlas.Proofs.ArchitectureGraph
import RepoAtlas.Proofs.FlowchartLines
import RepoAtlas.Proofs.TrimmedText

namespace RepoAtlas

namespace Diagram

open Architecture Text

/-! ### What an identifier keeps of a path -/

/-- Whether two characters look alike in an identifier: the same letter or digit whatever the case,
or neither of them a letter or a digit. -/
inductive LooksLike (first second : Char) : Prop
  | letters (plain : first.isAlphanum = true) (plain' : second.isAlphanum = true)
      (same : first.toLower = second.toLower)
  | marks (other : first.isAlphanum = false) (other' : second.isAlphanum = false)

/-- The core of a path stands between its first and its last letter or digit, both included. -/
structure IsCore (path core : List Char) : Prop where
  surrounded : ∃ lead trail, path = lead ++ core ++ trail ∧
    ∀ char ∈ lead ++ trail, char.isAlphanum = false
  begins : ∀ char ∈ core.head?, char.isAlphanum = true
  ends : ∀ char ∈ core.getLast?, char.isAlphanum = true

/-- What a core is shown as. -/
def shownAs (core : List Char) : List Char :=
  if core = [] then ['n', 'o', 'd', 'e'] else core

/-- Whether two paths have cores that are shown alike. -/
def SharesNode (first second : String) : Prop :=
  ∃ core core', IsCore first.toList core ∧ IsCore second.toList core' ∧
    List.Forall₂ LooksLike (shownAs core) (shownAs core')

/-- How one character is shown. -/
def shown (char : Char) : Char :=
  if char.isAlphanum then char.toLower else '_'

theorem toLower_ne_mark {char : Char} (plain : char.isAlphanum = true) : char.toLower ≠ '_' := by
  intro mark
  unfold Char.toLower at mark
  split at mark
  · next capital =>
    have value : char.val + 32 = 95 := congrArg Char.val mark
    have lower : 65 ≤ char.val := capital.1
    have upper : char.val ≤ 90 := capital.2
    grind
  · subst mark
    exact absurd plain (by decide)

theorem shown_eq_iff (first second : Char) :
    shown first = shown second ↔ LooksLike first second := by
  unfold shown
  constructor
  · intro same
    split at same
    · next plain =>
      split at same
      · next plain' => exact .letters plain plain' same
      · exact absurd same (toLower_ne_mark plain)
    · next other =>
      split at same
      · next plain' => exact absurd same.symm (toLower_ne_mark plain')
      · next other' => exact .marks (by simpa using other) (by simpa using other')
  · rintro (⟨plain, plain', same⟩ | ⟨other, other'⟩)
    · rw [if_pos plain, if_pos plain', same]
    · simp [other, other']

/-- Every path has a core. -/
theorem exists_isCore (path : List Char) : ∃ core, IsCore path core := by
  obtain ⟨⟨lead, trail, whole, cut⟩, begins, ends⟩ :=
    trimsTo_trim (fun char => !char.isAlphanum) path
  refine ⟨_, ⟨lead, trail, whole, ?_⟩, ?_, ?_⟩
  · intro char member
    simpa using cut char member
  · intro char first
    simpa using begins char first
  · intro char last
    simpa using ends char last

/-- An identifier writes down the core. -/
theorem identifier_of_isCore {path : String} {core : List Char} (isCore : IsCore path.toList core) :
    identifier path = String.ofList ((shownAs core).map shown) := by
  obtain ⟨⟨lead, trail, whole, outside⟩, begins, ends⟩ := isCore
  let mark (char : Char) : Char := if isIdentifierChar char then char else '_'
  have marked {char : Char} (other : char.isAlphanum = false) : (mark char == '_') = true := by
    simp [mark, isIdentifierChar, other]
  have kept {char : Char} (plain : char.isAlphanum = true) : (mark char == '_') = false := by
    simp only [mark, isIdentifierChar, plain, if_true, beq_eq_false_iff_ne]
    rintro rfl
    exact absurd plain (by decide)
  have trimmed : dropEndWhile (· == '_') ((path.toList.map mark).dropWhile (· == '_')) =
      core.map mark := by
    refine TrimsTo.trim_eq ⟨⟨lead.map mark, trail.map mark, ?_, ?_⟩, ?_, ?_⟩
    · rw [whole, List.map_append, List.map_append]
    · intro char member
      rw [← List.map_append] at member
      obtain ⟨original, listed, rfl⟩ := List.mem_map.1 member
      exact marked (outside original listed)
    · intro char first
      rw [List.head?_map] at first
      obtain ⟨original, here, rfl⟩ := Option.map_eq_some_iff.1 first
      exact kept (begins original here)
    · intro char last
      rw [List.getLast?_map] at last
      obtain ⟨original, here, rfl⟩ := Option.map_eq_some_iff.1 last
      exact kept (ends original here)
  have lowered (char : Char) : (mark char).toLower = shown char := by
    by_cases plain : char.isAlphanum = true
    · simp [shown, mark, isIdentifierChar, plain]
    · simp [shown, mark, isIdentifierChar, plain]
  unfold identifier
  simp only
  rw [trimmed]
  cases core with
  | nil => rfl
  | cons first rest =>
    simp only [List.map_cons, List.isEmpty_cons, Bool.false_eq_true, if_false, shownAs,
      reduceCtorEq, List.map_map, lowered, Function.comp_def]

/-- Two paths have one identifier exactly when their cores look alike. -/
theorem identifier_eq_iff (first second : String) :
    identifier first = identifier second ↔ SharesNode first second := by
  have alike (chars others : List Char) :
      chars.map shown = others.map shown ↔ List.Forall₂ LooksLike chars others := by
    rw [← List.forall₂_eq_eq_eq, List.forall₂_map_left_iff, List.forall₂_map_right_iff]
    simp only [shown_eq_iff]
  constructor
  · intro same
    obtain ⟨core, isCore⟩ := exists_isCore first.toList
    obtain ⟨core', isCore'⟩ := exists_isCore second.toList
    rw [identifier_of_isCore isCore, identifier_of_isCore isCore', String.ofList_inj] at same
    exact ⟨core, core', isCore, isCore', (alike _ _).1 same⟩
  · rintro ⟨core, core', isCore, isCore', looks⟩
    rw [identifier_of_isCore isCore, identifier_of_isCore isCore', (alike _ _).2 looks]

/-! ### Nodes of a flowchart -/

/-- No file is drawn twice. -/
theorem nodup_paths_significant (files : FileMap) (bound : Int) :
    ((significant bound (build files (Imports.build files)).nodes).map Node.path).Nodup := by
  have paths : ((build files (Imports.build files)).nodes.map Node.path).Nodup := by
    rw [paths_nodes_build]
    exact files.nodup
  refine paths.sublist (List.Sublist.map _ ?_)
  unfold significant takeBound
  split
  · exact (List.take_sublist _ _).trans List.filter_sublist
  · exact (List.take_sublist _ _).trans List.filter_sublist

/-- Every file is drawn at most once, and two drawn files share a node exactly when their paths are
shown alike.  A link leads from one file to another, and from one node to another unless the two
files share theirs. -/
theorem nodes_shared_by_looks (files : FileMap) (bound : Int) :
    let graph := build files (Imports.build files)
    ∃ chart, IsChart graph bound chart ∧
      (∀ grouped, render graph bound grouped = chart.text grouped) ∧
      (chart.drawn.map Node.path).Nodup ∧
      (∀ node ∈ chart.drawn, ∀ other ∈ chart.drawn,
        identifier node.path = identifier other.path ↔ SharesNode node.path other.path) ∧
      ∀ edge ∈ chart.links, edge.source ≠ edge.target ∧
        (¬ SharesNode edge.source edge.target →
          identifier edge.source ≠ identifier edge.target) := by
  intro graph
  have isChart := isChart_chartOf graph bound
  refine ⟨chartOf graph bound, isChart, render_eq_text graph bound,
    nodup_paths_significant files bound, ?_, ?_⟩
  · intro node _ other _
    exact identifier_eq_iff node.path other.path
  · intro edge listed
    refine ⟨((isChart.mem_links_iff edge).1 listed).1, ?_⟩
    exact mt (identifier_eq_iff edge.source edge.target).1

/-- A module of a package and a module beside the package, the one with a class from the other. -/
def mergedFiles : FileMap where
  entries := [
    ("pkg/a.py", some
      { language := "python", imports := ["../pkg_a"],
        classes := [{ name := "Reader", kind := .classType, line := 4, exported := true,
                      extends? := some "Base" }] }),
    ("pkg_a.py", some
      { language := "python",
        classes := [{ name := "Base", kind := .classType, line := 1, exported := true }] })]
  nodup := by decide

/-- Two different files are declared as one node, and the import of the one by the other is drawn as
a loop at it. -/
theorem different_files_merged :
    let graph := build mergedFiles (Imports.build mergedFiles)
    ∃ chart, IsChart graph defaultBound chart ∧
      (∀ grouped, render graph defaultBound grouped = chart.text grouped) ∧
      (∃ node ∈ chart.drawn, ∃ other ∈ chart.drawn,
        node.path ≠ other.path ∧ identifier node.path = identifier other.path) ∧
      (∃ edge ∈ chart.links, identifier edge.source = identifier edge.target ∧
        linkLine edge = "    pkg_a_py --> pkg_a_py") := by
  intro graph
  have isChart := isChart_chartOf graph defaultBound
  have named : ∀ node ∈ graph.nodes, node.symbols ≠ [] := by
    intro node member
    obtain ⟨entry, listed, rfl⟩ := List.mem_map.1 member
    exact (by decide : ∀ entry ∈ mergedFiles.entries,
      (entry.2.map Outline.exportedNames).getD [] ≠ []) entry listed
  have drawn : (chartOf graph defaultBound).drawn = graph.nodes := by
    have all : graph.nodes.filter (fun node => node.isHub || !node.symbols.isEmpty) =
        graph.nodes := by
      rw [List.filter_eq_self]
      intro node member
      simp [named node member]
    change significant defaultBound graph.nodes = graph.nodes
    rw [significant, all]
    rfl
  have paths : (chartOf graph defaultBound).drawn.map Node.path = ["pkg/a.py", "pkg_a.py"] := by
    rw [drawn, paths_nodes_build]
    rfl
  have first : "pkg/a.py" ∈ (chartOf graph defaultBound).drawn.map Node.path := by simp [paths]
  have second : "pkg_a.py" ∈ (chartOf graph defaultBound).drawn.map Node.path := by simp [paths]
  refine ⟨chartOf graph defaultBound, isChart, render_eq_text graph defaultBound, ?_, ?_⟩
  · obtain ⟨node, member, path⟩ := List.mem_map.1 first
    obtain ⟨other, member', path'⟩ := List.mem_map.1 second
    refine ⟨node, member, other, member', ?_⟩
    rw [path, path']
    decide
  · refine ⟨⟨"pkg/a.py", "pkg_a.py", .imports, none, none⟩, ?_, by decide, by decide⟩
    exact (isChart.mem_links_iff _).2 ⟨by decide, first, second, by decide +kernel⟩

end Diagram

end RepoAtlas
