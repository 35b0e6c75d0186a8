/-
Module: RepoAtlas.Proofs.StatementEdges
Purpose: The edges of an analysis, statement by statement.
  The graphs are built from outlines, and an outline keeps of a source no more than texts: the
  specifiers of its imports and the export statements of its wildcards.  Each edge is led back to the
  statement it comes from.  A wildcard leaves a text of either kind, and the two mean the same file
  unless white space stands in the name of the module.
Main exports: HasTree, get?_files_iff, mem_imports_iff, HasTightModules, IsWildcardTo,
  stripText_moduleSpecifier, reexportEdges_exports, wildcards_are_imports
-/
import RepoAtlas.Proofs.AnalysisOutcome
import RepoAtlas.Proofs.ArchitectureGraph
import RepoAtlas.Proofs.SourceOutline
import RepoAtlas.Proofs.TrimmedText

namespace RepoAtlas

open Source Text

/-! ### Analysed sources -/

/-- Whether a file has the given syntax tree: its path is one of source files, its content is text,
and the grammar reads the text as the tree. -/
def HasTree (grammar : Grammar) (contents : OrderedMap String Content) (file : String)
    (tree : List Statement) : Prop :=
  Path.extension file = ".py" ∧ ∃ content source, contents.get? file = some content ∧
    content.source? = some source ∧ syntaxTree grammar source = tree

theorem Source.languageOf_eq_some_iff (path language : String) :
    languageOf path = some language ↔ Path.extension path = ".py" ∧ language = "python" := by
  rw [languageOf, languages, List.find?_singleton]
  by_cases python : Path.extension path = ".py"
  · simp [python, eq_comm]
  · simp [python, Ne.symm python]

theorem Source.parse_eq_some_iff (grammar : Grammar) (path : String) (content : Content)
    (outline : Outline) :
    parse grammar path content = some outline ↔ Path.extension path = ".py" ∧ ∃ source,
      content.source? = some source ∧
        Source.outlineOf path "python" (syntaxTree grammar source) = outline := by
  rw [parse, Option.bind_eq_bind, Option.bind_eq_some_iff]
  simp only [languageOf_eq_some_iff, Option.bind_eq_bind, Option.bind_eq_some_iff, Option.some_inj]
  constructor
  · intro found
    obtain ⟨_, ⟨python, rfl⟩, read⟩ := found
    exact ⟨python, read⟩
  · intro found
    exact ⟨"python", ⟨found.1, rfl⟩, found.2⟩

section Analysed

variable {grammar : Grammar} {request : Request} {contents : OrderedMap String Content}
  {analysis : Analysis} (standard : request.parser = standardParser grammar)
  (analysed : analyze request contents = .ok analysis)

include analysed

theorem keys_files : analysis.files.keys = contents.keys := by
  obtain ⟨_, _, _, _, rfl⟩ := (analyze_eq_ok_iff request analysis).1 analysed
  exact contents.keys_mapWithKey _

theorem imports_eq_build : analysis.imports = Imports.build analysis.files := by
  obtain ⟨_, _, _, _, rfl⟩ := (analyze_eq_ok_iff request analysis).1 analysed
  rfl

theorem architecture_eq_build :
    analysis.architecture = Architecture.build analysis.files (Imports.build analysis.files) := by
  obtain ⟨_, _, _, _, rfl⟩ := (analyze_eq_ok_iff request analysis).1 analysed
  rfl

include standard

/-- The parsed files are those with a syntax tree, each with the outline of its tree. -/
theorem get?_files_iff (file : String) (outline : Outline) :
    analysis.files.get? file = some (some outline) ↔
      ∃ tree, HasTree grammar contents file tree ∧ Source.outlineOf file "python" tree = outline := by
  have found : analysis.files.get? file = (contents.get? file).map (parse grammar file) := by
    obtain ⟨_, _, _, _, rfl⟩ := (analyze_eq_ok_iff request analysis).1 analysed
    change (contents.mapWithKey (outlineOf request.parser)).get? file = _
    rw [standard, OrderedMap.get?_mapWithKey]
    rfl
  rw [found, Option.map_eq_some_iff]
  simp only [parse_eq_some_iff, HasTree]
  constructor
  · intro parsed
    obtain ⟨content, present, python, source, text, same⟩ := parsed
    exact ⟨_, ⟨python, content, source, present, text, rfl⟩, same⟩
  · intro parsed
    obtain ⟨_, ⟨python, content, source, present, text, rfl⟩, same⟩ := parsed
    exact ⟨content, present, python, source, text, same⟩

/-- An import edge is a statement with a specifier that means the other file. -/
theorem mem_imports_iff (source target : String) :
    ⟨source, target⟩ ∈ analysis.imports.edges ↔ source ≠ target ∧
      ∃ tree, HasTree grammar contents source tree ∧
        ∃ position, ∃ specifier ∈ specifiersAt tree position,
          Imports.resolve specifier source contents.keys = some target := by
  rw [imports_eq_build analysed, Imports.build, Imports.mem_edges_iff, Imports.IsImport,
    keys_files analysed]
  simp only [get?_files_iff standard analysed]
  constructor
  · intro imported
    obtain ⟨_, ⟨tree, has, rfl⟩, apart, specifier, listed, meant⟩ := imported
    obtain ⟨position, stated⟩ := (mem_importsOfAll_iff tree specifier).1 listed
    exact ⟨apart, tree, has, position, specifier, stated, meant⟩
  · intro imported
    obtain ⟨apart, tree, has, position, specifier, stated, meant⟩ := imported
    exact ⟨_, ⟨tree, has, rfl⟩, apart, specifier,
      (mem_importsOfAll_iff tree specifier).2 ⟨position, stated⟩, meant⟩

end Analysed

/-! ### Wildcards -/

/-- Whether a statement, if it is a relative import, has no white space in the name of its module.
A line continuation there is white space, since it has a line break. -/
def Source.Statement.isTight : Statement → Bool
  | .importFrom (.relative module) _ => module.toList.all (fun char => !isBlank char)
  | _ => true

/-- Whether no relative import of a tree has white space in the name of its module. -/
def HasTightModules (tree : List Statement) : Prop :=
  ∀ position statement, statementAt tree position = some statement → statement.isTight = true

theorem hasTightModules_iff (tree : List Statement) :
    HasTightModules tree ↔
      ∀ position ∈ positionsIn tree, (statementAt tree position).all Statement.isTight = true := by
  constructor
  · intro tight position listed
    obtain ⟨statement, stands⟩ := (mem_positionsIn_iff tree position).1 listed
    rw [stands]
    exact tight position statement stands
  · intro tight position statement stands
    have listed := (mem_positionsIn_iff tree position).2 ⟨statement, stands⟩
    have checked := tight position listed
    rw [stands] at checked
    exact checked

instance (tree : List Statement) : Decidable (HasTightModules tree) :=
  decidable_of_iff _ (hasTightModules_iff tree).symm

/-- Whether a relative wildcard import stands at a position of a file and means the given file. -/
def IsWildcardTo (known : List String) (file : String) (tree : List Statement)
    (position : List Nat) (target : String) : Prop :=
  (∃ module, statementAt tree position = some (.importFrom (.relative module) .wildcard)) ∧
    ∃ specifier ∈ specifiersAt tree position, Imports.resolve specifier file known = some target

/-! ### Specifiers without white space -/

theorem strip_of_tight {chars : List Char} (tight : ∀ char ∈ chars, isBlank char = false) :
    strip chars = chars := by
  apply TrimsTo.trim_eq
  apply trimsTo_self
  · intro char first
    exact tight char (List.mem_of_mem_head? first)
  · intro char last
    exact tight char (List.mem_of_mem_getLast? last)

/-- A specifier has no white space unless the module has. -/
theorem tight_closedSpecifier {module : List Char} (tight : ∀ char ∈ module, isBlank char = false) :
    ∀ char ∈ closedSpecifier (relativeSpecifier module), isBlank char = false := by
  have upward (dots : Nat) : ∀ char ∈ ascent dots, isBlank char = false := by
    intro char member
    have mark : char = '.' ∨ char = '/' := by
      unfold ascent at member
      split at member
      · simpa using member
      · obtain ⟨step, among, inside⟩ := List.mem_flatten.1 member
        obtain ⟨_, rfl⟩ := List.mem_replicate.1 among
        simpa using inside
    rcases mark with rfl | rfl <;> decide
  have followed : ∀ char ∈ relativeSpecifier module, isBlank char = false := by
    intro char member
    rcases List.mem_append.1 member with up | down
    · exact upward _ char up
    · obtain ⟨original, kept, rfl⟩ := List.mem_map.1 down
      split
      · decide
      · exact tight original ((List.dropWhile_sublist _).subset kept)
  intro char member
  unfold closedSpecifier at member
  simp only at member
  split at member
  · obtain rfl := List.mem_singleton.1 member
    decide
  · apply followed char
    rw [dropEndWhile, List.mem_reverse] at member
    exact List.mem_reverse.1 ((List.dropWhile_sublist _).subset member)

/-- The specifier of a relative module. -/
def moduleSpecifier (module : String) : String :=
  String.ofList (closedSpecifier (relativeSpecifier module.toList))

/-- Cutting white space off a specifier changes nothing. -/
theorem stripText_moduleSpecifier {module : String}
    (tight : ∀ char ∈ module.toList, isBlank char = false) :
    stripText (moduleSpecifier module) = moduleSpecifier module := by
  rw [stripText, moduleSpecifier, String.toList_ofList,
    strip_of_tight (tight_closedSpecifier tight)]

/-! ### One re-export for each wildcard -/

/-- The module of a statement that is a relative wildcard import. -/
def Source.Statement.wildcard? : Statement → Option String
  | .importFrom (.relative module) .wildcard => some module
  | _ => none

theorem Source.Statement.wildcard?_eq_some_iff (statement : Statement) (module : String) :
    statement.wildcard? = some module ↔
      statement = .importFrom (.relative module) .wildcard := by
  unfold Statement.wildcard?
  split
  · simp
  · next other =>
    constructor
    · intro same
      cases same
    · intro same
      exact absurd same (other module)

theorem gathers_exports :
    Gathers (fun _ statement =>
      (statement.wildcard?.map (fun module => reexportLead ++ moduleSpecifier module)).toList)
      (fun _ => exportsOfAll) where
  nil := by simp [exportsOfAll]
  cons place statement rest := by
    cases statement with
    | importFrom origin imported =>
      cases origin <;> cases imported <;>
        simp [exportsOfAll, exportsOf, reexports, Statement.wildcard?, Statement.children,
          moduleSpecifier]
    | _ => simp [exportsOfAll, exportsOf, Statement.wildcard?, Statement.children]

/-- The re-export edge of the statement at a position. -/
def wildcardEdge? (known : List String) (file : String) (tree : List Statement)
    (position : List Nat) : Option Architecture.Edge := do
  let statement ← statementAt tree position
  let module ← statement.wildcard?
  let target ← Imports.resolve (moduleSpecifier module) file known
  some ⟨file, target, .reexports, none, none⟩

theorem specifiersAt_wildcard {tree : List Statement} {position : List Nat} {module : String}
    (stands : statementAt tree position = some (.importFrom (.relative module) .wildcard)) :
    specifiersAt tree position = [moduleSpecifier module] := by
  rw [specifiersAt, stands]
  rfl

theorem wildcardEdge?_eq_some_iff (known : List String) (file : String) (tree : List Statement)
    (position : List Nat) (edge : Architecture.Edge) :
    wildcardEdge? known file tree position = some edge ↔
      ∃ target, IsWildcardTo known file tree position target ∧
        ⟨file, target, .reexports, none, none⟩ = edge := by
  simp only [wildcardEdge?, Option.bind_eq_bind, Option.bind_eq_some_iff, Option.some_inj,
    Statement.wildcard?_eq_some_iff]
  constructor
  · intro found
    obtain ⟨_, stands, module, rfl, target, meant, same⟩ := found
    refine ⟨target, ⟨⟨module, stands⟩, moduleSpecifier module, ?_, meant⟩, same⟩
    rw [specifiersAt_wildcard stands]
    exact List.mem_singleton_self _
  · intro found
    obtain ⟨target, ⟨⟨module, stands⟩, specifier, stated, meant⟩, same⟩ := found
    rw [specifiersAt_wildcard stands] at stated
    obtain rfl := List.mem_singleton.1 stated
    exact ⟨_, stands, module, rfl, target, meant, same⟩

/-- Without white space in modules, the export statements of a tree mean what its wildcards mean. -/
theorem reexportEdges_exports {tree : List Statement} (tight : HasTightModules tree)
    (known : List String) (file : String) :
    Architecture.reexportEdges known file (exportsOfAll tree) =
      (positionsIn tree).filterMap (wildcardEdge? known file tree) := by
  rw [gathers_exports.all_eq_filterMap .module tree, Architecture.reexportEdges,
    List.filterMap_filterMap, List.filterMap_filterMap]
  apply List.filterMap_congr
  intro position _
  rw [wildcardEdge?]
  cases stands : statementAt tree position with
  | none => rfl
  | some statement =>
    cases wildcard : statement.wildcard? with
    | none => simp [wildcard]
    | some module =>
      obtain rfl := (statement.wildcard?_eq_some_iff module).1 wildcard
      have plain : ∀ char ∈ module.toList, isBlank char = false := by
        simpa [Statement.isTight] using tight position _ stands
      have specifier : Architecture.reexportSpecifier? (reexportLead ++ moduleSpecifier module) =
          some (moduleSpecifier module) :=
        (Architecture.reexportSpecifier?_eq_some_iff _ _).2
          ⟨moduleSpecifier module, rfl, stripText_moduleSpecifier plain⟩
      simp only [Option.bind_some, wildcard, Option.map_some, specifier, Option.bind_eq_bind]
      cases Imports.resolve (moduleSpecifier module) file known <;> rfl

theorem forall₂_filterMap {α β : Type} (give : α → Option β) (items : List α) :
    List.Forall₂ (fun item given => give item = some given)
      (items.filter (fun item => (give item).isSome)) (items.filterMap give) := by
  induction items with
  | nil => exact .nil
  | cons item rest ih =>
    cases given : give item with
    | none => simpa [given] using ih
    | some result => simpa [given] using ih

section Analysed

variable {grammar : Grammar} {request : Request} {contents : OrderedMap String Content}
  {analysis : Analysis} (standard : request.parser = standardParser grammar)
  (analysed : analyze request contents = .ok analysis)

include standard analysed

theorem exists_hasTree_of_reexport {edge : Architecture.Edge}
    (listed : edge ∈ analysis.architecture.edges) (reexported : edge.relation = .reexports) :
    ∃ tree, HasTree grammar contents edge.source tree := by
  rw [architecture_eq_build analysed] at listed
  cases (Architecture.mem_edges_build_iff _ edge).1 listed with
  | imports listed => cases reexported
  | inherits parsed defined named last =>
    cases reexported
    cases named
  | reexports parsed stated resolved =>
    obtain ⟨tree, has, _⟩ := (get?_files_iff standard analysed _ _).1 parsed
    exact ⟨tree, has⟩

omit standard in
theorem mem_architecture_of_import {edge : Imports.Edge} (listed : edge ∈ analysis.imports.edges) :
    ⟨edge.source, edge.target, .imports, none, none⟩ ∈ analysis.architecture.edges := by
  rw [architecture_eq_build analysed, Architecture.mem_edges_build_iff]
  rw [imports_eq_build analysed] at listed
  exact .imports listed

/-- The re-export edges of a file are those of its wildcards. -/
theorem filter_reexports_of_hasTree {file : String} {tree : List Statement}
    (has : HasTree grammar contents file tree) (tight : HasTightModules tree) :
    analysis.architecture.edges.filter
        (fun edge => edge.relation = .reexports ∧ edge.source = file) =
      (positionsIn tree).filterMap (wildcardEdge? contents.keys file tree) := by
  have parsed := (get?_files_iff standard analysed file _).2 ⟨tree, has, rfl⟩
  rw [architecture_eq_build analysed, Architecture.filter_reexports_build parsed,
    keys_files analysed]
  exact reexportEdges_exports tight contents.keys file

end Analysed

/-- Provided that no relative import has white space in the name of its module, a re-export edge
between two files is accompanied by an import edge between them, and the re-export edges from a file
correspond in order to its relative wildcard imports that mean a discovered file. -/
theorem wildcards_are_imports {grammar : Grammar} {request : Request}
    (standard : request.parser = standardParser grammar)
    {contents : OrderedMap String Content} {analysis : Analysis}
    (analysed : analyze request contents = .ok analysis)
    (tight : ∀ file tree, HasTree grammar contents file tree → HasTightModules tree) :
    (∀ edge ∈ analysis.architecture.edges, edge.relation = .reexports →
      edge.source ≠ edge.target →
        ⟨edge.source, edge.target, .imports, none, none⟩ ∈ analysis.architecture.edges) ∧
    ∀ file tree, HasTree grammar contents file tree →
      ∃ order : List (List Nat), order.Pairwise (· < ·) ∧
        (∀ position, position ∈ order ↔
          ∃ target, IsWildcardTo contents.keys file tree position target) ∧
        List.Forall₂
          (fun position edge => IsWildcardTo contents.keys file tree position edge.target) order
          (analysis.architecture.edges.filter
            (fun edge => edge.relation = .reexports ∧ edge.source = file)) := by
  constructor
  · intro edge listed reexported apart
    obtain ⟨tree, has⟩ := exists_hasTree_of_reexport standard analysed listed reexported
    have among : edge ∈ analysis.architecture.edges.filter
        (fun other => other.relation = .reexports ∧ other.source = edge.source) :=
      List.mem_filter.2 ⟨listed, by simp [reexported]⟩
    rw [filter_reexports_of_hasTree standard analysed has (tight _ tree has),
      List.mem_filterMap] at among
    obtain ⟨position, _, given⟩ := among
    obtain ⟨target, wildcard, same⟩ := (wildcardEdge?_eq_some_iff _ _ _ _ _).1 given
    rw [← same] at wildcard apart ⊢
    exact mem_architecture_of_import analysed
      ((mem_imports_iff standard analysed _ _).2 ⟨apart, tree, has, position, wildcard.2⟩)
  · intro file tree has
    rw [filter_reexports_of_hasTree standard analysed has (tight file tree has)]
    refine ⟨_, (pairwise_positionsIn tree).filter _, ?_,
      (forall₂_filterMap (wildcardEdge? contents.keys file tree) (positionsIn tree)).imp ?_⟩
    · intro position
      rw [List.mem_filter, mem_positionsIn_iff, Option.isSome_iff_exists]
      simp only [wildcardEdge?_eq_some_iff]
      constructor
      · intro found
        obtain ⟨_, _, target, wildcard, _⟩ := found
        exact ⟨target, wildcard⟩
      · intro found
        obtain ⟨target, wildcard⟩ := found
        obtain ⟨module, stands⟩ := wildcard.1
        exact ⟨⟨_, stands⟩, _, target, wildcard, rfl⟩
    · intro position edge given
      obtain ⟨target, wildcard, rfl⟩ := (wildcardEdge?_eq_some_iff _ _ _ _ _).1 given
      exact wildcard

/-- A package that exports one of its modules twice, and itself. -/
def facadeSource : String :=
  "from .a import *\nfrom ..p.a import *\nfrom . import *"

def facadeContents : OrderedMap String Content where
  entries := [("p/__init__.py", .ofText facadeSource), ("p/a.py", .ofText "")]
  nodup := by decide

def facadeRequest : Request where
  name := "facade"
  repositoryPath := "/facade"

theorem hasTightModules_facade {file : String} {tree : List Statement}
    (has : HasTree statements facadeContents file tree) : HasTightModules tree := by
  obtain ⟨_, content, source, present, text, rfl⟩ := has
  have listed := (facadeContents.get?_eq_some_iff file content).1 present
  simp only [facadeContents, List.mem_cons, Prod.mk.injEq, List.not_mem_nil, or_false] at listed
  rcases listed with ⟨_, rfl⟩ | ⟨_, rfl⟩
  · rw [source?_ofText] at text
    cases text
    decide +kernel
  · rw [source?_ofText] at text
    cases text
    decide +kernel

theorem wildcards_are_imports_facade :
    ∃ analysis tree order, analyze facadeRequest facadeContents = .ok analysis ∧
      (∀ file tree, HasTree statements facadeContents file tree → HasTightModules tree) ∧
      HasTree statements facadeContents "p/__init__.py" tree ∧
      List.Forall₂
        (fun position edge =>
          IsWildcardTo facadeContents.keys "p/__init__.py" tree position edge.target) order
        [⟨"p/__init__.py", "p/a.py", .reexports, none, none⟩,
          ⟨"p/__init__.py", "p/a.py", .reexports, none, none⟩,
          (⟨"p/__init__.py", "p/__init__.py", .reexports, none, none⟩ : Architecture.Edge)] ∧
      ⟨"p/__init__.py", "p/a.py", .imports, none, none⟩ ∈ analysis.architecture.edges := by
  have hashable : AreHashable facadeContents := by
    intro entry member
    simp only [facadeContents, List.mem_cons, List.not_mem_nil, or_false] at member
    rcases member with rfl | rfl <;> exact ⟨_, rfl⟩
  obtain ⟨analysis, analysed, _⟩ := analyze_of_hashable facadeRequest hashable
    (fun entry _ => handles_standardParser statements entry.1 entry.2)
  have has : HasTree statements facadeContents "p/__init__.py" 
      (syntaxTree statements facadeSource.toList) :=
    ⟨by decide, _, _, rfl, source?_ofText facadeSource, rfl⟩
  have tight := fun file tree => @hasTightModules_facade file tree
  obtain ⟨accompanied, corresponding⟩ := wildcards_are_imports rfl analysed tight
  obtain ⟨order, _, _, paired⟩ := corresponding _ _ has
  have reexported := filter_reexports_of_hasTree rfl analysed has (tight _ _ has)
  have evaluated : (positionsIn (syntaxTree statements facadeSource.toList)).filterMap
      (wildcardEdge? facadeContents.keys "p/__init__.py"
        (syntaxTree statements facadeSource.toList)) =
        [⟨"p/__init__.py", "p/a.py", .reexports, none, none⟩,
          ⟨"p/__init__.py", "p/a.py", .reexports, none, none⟩,
          ⟨"p/__init__.py", "p/__init__.py", .reexports, none, none⟩] := by decide +kernel
  rw [evaluated] at reexported
  have listed : ⟨"p/__init__.py", "p/a.py", .reexports, none, none⟩ ∈
      analysis.architecture.edges := by
    apply List.mem_of_mem_filter
    rw [reexported]
    exact List.mem_cons_self
  rw [reexported] at paired
  exact ⟨analysis, _, order, analysed, tight, has, paired, accompanied _ listed rfl (by decide)⟩

end RepoAtlas
