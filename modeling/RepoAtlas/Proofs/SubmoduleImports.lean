/-
Module: RepoAtlas.Proofs.SubmoduleImports
Purpose: Names that are imported from a package.
  A relative import of names from a package records the package and none of the names, be they modules
  of the package or not.  The import graph looks the package up as a file and as a directory with an
  index, so it joins the importing file to a module of the package only if that module is the index,
  or another statement records it.
Main exports: submodulePath, specifiersAt_package, targetPath_ne_root, find?_candidates_submodule,
  submodule_edge_iff
-/
import RepoAtlas.Proofs.DirectoryRoutes
import RepoAtlas.Proofs.RelativeImports
import RepoAtlas.Proofs.StatementEdges

namespace RepoAtlas

open Source Imports RepoAtlas.Path Text

/-- The file of a module in a directory. -/
def submodulePath (directory name : String) : String :=
  directory ++ "/" ++ name ++ ".py"

/-! ### What is recorded -/

/-- An import of names from a package records the package alone. -/
theorem specifiersAt_package {dots : Nat} (relative : 0 < dots) {segments : List String}
    (package : segments ≠ []) (named : ∀ segment ∈ segments, isIdentifier segment = true)
    {tree : List Statement} {position : List Nat} {names : List ImportName}
    (stands : statementAt tree position =
      some (.importFrom (.relative (relativeModule dots segments)) (.names names))) :
    specifiersAt tree position = [specifierOf dots segments] := by
  have unclosed : (relativeSpecifier (relativeModule dots segments).toList).getLast? ≠ some '/' := by
    intro ends
    exact package ((getLast?_relativeSpecifier relative named).1 ends)
  have alone : importedSpecifiers (.relative (relativeModule dots segments)) (.names names) =
      [String.ofList
        (closedSpecifier (relativeSpecifier (relativeModule dots segments).toList))] := by
    cases names with
    | nil => rfl
    | cons name others => exact if_neg unclosed
  rw [closedSpecifier_relativeModule relative named, String.ofList_toList] at alone
  rw [specifiersAt, stands]
  exact alone

/-! ### Where a package is -/

theorem split_concat {separator : Char} (front : List Char) {name : List Char}
    (absent : separator ∉ name) :
    split separator (front ++ separator :: name) = split separator front ++ [name] := by
  rw [split_append_separator, split_of_not_mem absent]

/-- A path that ends in a proper name still does when it is in normal form. -/
theorem normalizeChars_concat (front : List Char) {name : List Char} (proper : IsProperName name) :
    ∃ kept, normalizeChars (front ++ '/' :: name) = kept ++ name := by
  rw [normalizeChars, split_concat front proper.noSlash]
  simp only [List.foldl_append, List.foldl_cons, List.foldl_nil, normalStep_name proper,
    List.reverse_cons]
  rw [intercalate_append _ _ (by simp), List.intercalate_singleton, ← List.append_assoc, if_neg]
  · exact ⟨_, rfl⟩
  · simp [proper.nonempty]

theorem joinChars_concat (directory front name : List Char) :
    ∃ before, joinChars directory (front ++ '/' :: name) = before ++ '/' :: name := by
  unfold joinChars
  split
  · exact ⟨front, rfl⟩
  · exact ⟨directory ++ front, by rw [List.append_assoc]⟩
  · exact ⟨directory ++ '/' :: front, by rw [List.append_assoc, List.cons_append]⟩

/-- A package is never the root of the repository. -/
theorem targetPath_ne_root {dots : Nat} (relative : 0 < dots) {segments : List String}
    (package : segments ≠ []) (named : ∀ segment ∈ segments, isIdentifier segment = true)
    (importer : String) : targetPath (specifierOf dots segments) importer ≠ "." := by
  obtain ⟨outer, last, rfl⟩ := (List.eq_nil_or_concat' segments).resolve_left package
  have proper := isProperName_of_isIdentifier (named last (by simp))
  -- The last segment of the package is the last one of the path, whatever stands before it.
  have spelled : (specifierOf dots (outer ++ [last])).toList =
      List.intercalate ['/'] (ascents dots ++ outer.map String.toList) ++ '/' :: last.toList := by
    rw [specifierOf, String.toList_ofList, List.map_append, List.map_singleton, ← List.append_assoc,
      intercalate_append_of_ne_nil _ (by simp [ascents_ne_nil relative]) (by simp),
      List.intercalate_singleton, List.append_assoc, List.singleton_append]
  obtain ⟨before, joined⟩ := joinChars_concat (Path.directory importer).toList
    (List.intercalate ['/'] (ascents dots ++ outer.map String.toList)) last.toList
  obtain ⟨kept, normal⟩ := normalizeChars_concat before proper
  have path : (targetPath (specifierOf dots (outer ++ [last])) importer).toList =
      kept ++ last.toList := by
    rw [targetPath, Path.normalize, Path.join, String.toList_ofList, String.toList_ofList, spelled,
      joined, normal]
  intro root
  rw [root] at path
  rcases List.append_eq_singleton_iff.1 path.symm with ⟨_, here⟩ | ⟨_, empty⟩
  · exact proper.notHere here
  · exact proper.nonempty empty

/-! ### What a package means -/

/-- With what endings a directory is tried before its index. -/
def earlierEndings : List String :=
  "" :: extensions ++ indexFiles.dropLast.map ("/" ++ ·)

/-- The index of a directory is the last thing that is tried for it. -/
theorem candidates_eq_concat {directory : String} (inside : directory ≠ ".") :
    candidates directory =
      earlierEndings.map (directory ++ ·) ++ [submodulePath directory "__init__"] := by
  rw [candidates, if_neg inside]
  simp [extensions, indexFiles, earlierEndings, submodulePath, String.append_assoc]

/-- No module of a directory is tried for it earlier. -/
theorem submodulePath_not_mem (directory name : String) :
    submodulePath directory name ∉ earlierEndings.map (directory ++ ·) := by
  intro listed
  obtain ⟨ending, among, same⟩ := List.mem_map.1 listed
  have apart : ∀ ending ∈ earlierEndings,
      ¬ (ending.toList.head? = some '/' ∧ ending.toList.getLast? = some 'y') := by decide
  have spelled : ending.toList = '/' :: (name.toList ++ ['.', 'p', 'y']) := by
    have chars := congrArg String.toList same
    simpa [submodulePath] using chars
  apply apart ending among
  rw [spelled]
  simp [List.getLast?_cons, List.getLast?_append]

theorem submodulePath_inj {directory first second : String}
    (same : submodulePath directory first = submodulePath directory second) : first = second := by
  have chars := congrArg String.toList same
  apply String.toList_injective
  simpa [submodulePath] using chars

/-- A directory means one of its modules only if that is its index, and nothing is found before. -/
theorem find?_candidates_submodule {directory : String} (inside : directory ≠ ".") {name : String}
    {known : List String} (present : submodulePath directory name ∈ known) :
    (candidates directory).find? known.contains = some (submodulePath directory name) ↔
      name = "__init__" ∧ ∀ ending ∈ earlierEndings, directory ++ ending ∉ known := by
  rw [candidates_eq_concat inside, List.find?_append]
  constructor
  · intro found
    rcases Option.or_eq_some_iff.1 found with early | ⟨nothing, last⟩
    · exact absurd (List.mem_of_find?_eq_some early) (submodulePath_not_mem directory name)
    · have index := List.mem_singleton.1 (List.mem_of_find?_eq_some last)
      refine ⟨submodulePath_inj index, ?_⟩
      intro ending among
      simpa using List.find?_eq_none.1 nothing _ (List.mem_map_of_mem among)
  · intro condition
    obtain ⟨rfl, nothing⟩ := condition
    have early : (earlierEndings.map (directory ++ ·)).find? known.contains = none := by
      apply List.find?_eq_none.2
      intro path listed
      obtain ⟨ending, among, rfl⟩ := List.mem_map.1 listed
      simpa using nothing ending among
    rw [early, Option.none_or]
    simpa using present

/-- A package means one of its modules only if it stays in the repository and the module is its
index, with nothing found before. -/
theorem resolve_package_iff {dots : Nat} (relative : 0 < dots) {segments : List String}
    (package : segments ≠ []) (named : ∀ segment ∈ segments, isIdentifier segment = true)
    (importer : String) {name : String} {known : List String}
    (present : submodulePath (targetPath (specifierOf dots segments) importer) name ∈ known) :
    resolve (specifierOf dots segments) importer known =
        some (submodulePath (targetPath (specifierOf dots segments) importer) name) ↔
      name = "__init__" ∧
        leavesRepository (targetPath (specifierOf dots segments) importer) = false ∧
        ∀ ending ∈ earlierEndings,
          targetPath (specifierOf dots segments) importer ++ ending ∉ known := by
  have inside := targetPath_ne_root relative package named importer
  rw [← and_left_comm, ← find?_candidates_submodule inside present, resolve,
    if_pos (isRelative_specifierOf relative segments)]
  simp only
  cases leavesRepository (targetPath (specifierOf dots segments) importer) <;> simp

/-! ### Edges to the modules of a package -/

theorem HasTree.unique {grammar : Grammar} {contents : OrderedMap String Content} {file : String}
    {first second : List Statement} (one : HasTree grammar contents file first)
    (other : HasTree grammar contents file second) : first = second := by
  obtain ⟨_, _, _, present, text, read⟩ := one
  obtain ⟨_, _, _, present', text', read'⟩ := other
  rw [present] at present'
  cases present'
  rw [text] at text'
  cases text'
  exact read.symm.trans read'

/-- An import of names from a package records the package alone.  So there is an edge to a module of
the package exactly in two cases: the module is the index of the package, and no file that is tried
for the package before has been discovered; or another statement has a specifier that means it. -/
theorem submodule_edge_iff {grammar : Grammar} {request : Request}
    (standard : request.parser = standardParser grammar)
    {contents : OrderedMap String Content} {analysis : Analysis}
    (analysed : analyze request contents = .ok analysis) {source : String} {tree : List Statement}
    (has : HasTree grammar contents source tree) {dots : Nat} (relative : 0 < dots)
    {segments : List String} (package : segments ≠ [])
    (named : ∀ segment ∈ segments, isIdentifier segment = true)
    {position : List Nat} {names : List ImportName}
    (stands : statementAt tree position =
      some (.importFrom (.relative (relativeModule dots segments)) (.names names))) :
    let directory := targetPath (specifierOf dots segments) source
    specifiersAt tree position = [specifierOf dots segments] ∧
    ∀ name ∈ names.map ImportName.unaliased, submodulePath directory name ∈ contents.keys →
      submodulePath directory name ≠ source →
      (⟨source, submodulePath directory name⟩ ∈ analysis.imports.edges ↔
        (name = "__init__" ∧ leavesRepository directory = false ∧
          ∀ ending ∈ earlierEndings, directory ++ ending ∉ contents.keys) ∨
        ∃ other, other ≠ position ∧ ∃ specifier ∈ specifiersAt tree other,
          resolve specifier source contents.keys = some (submodulePath directory name)) := by
  intro directory
  have recorded := specifiersAt_package relative package named stands
  refine ⟨recorded, ?_⟩
  intro name _ present apart
  have meant := resolve_package_iff relative package named source present
  rw [mem_imports_iff standard analysed]
  constructor
  · intro imported
    obtain ⟨_, other, hasOther, place, specifier, stated, resolved⟩ := imported
    obtain rfl := has.unique hasOther
    by_cases here : place = position
    · subst here
      rw [recorded] at stated
      obtain rfl := List.mem_singleton.1 stated
      exact .inl (meant.1 resolved)
    · exact .inr ⟨place, here, specifier, stated, resolved⟩
  · intro condition
    refine ⟨apart.symm, tree, has, ?_⟩
    rcases condition with index | ⟨place, _, specifier, stated, resolved⟩
    · exact ⟨position, _, by rw [recorded]; exact List.mem_singleton_self _, meant.2 index⟩
    · exact ⟨place, specifier, stated, resolved⟩

/-- A file that imports a module of a package by name. -/
def packageContents : OrderedMap String Content where
  entries := [("app/main.py", .ofText "from ..pkg import mod"), ("pkg/__init__.py", .ofText ""),
    ("pkg/mod.py", .ofText "")]
  nodup := by decide

def packageRequest : Request where
  name := "package"
  repositoryPath := "/package"

/-- The package is imported and its module is not. -/
theorem submodule_edge_missing :
    ∃ analysis tree, analyze packageRequest packageContents = .ok analysis ∧
      HasTree statements packageContents "app/main.py" tree ∧
      statementAt tree [0] = some (.importFrom (.relative "..pkg") (.names [.plain "mod"])) ∧
      submodulePath (targetPath "../pkg" "app/main.py") "mod" = "pkg/mod.py" ∧
      "pkg/mod.py" ∈ packageContents.keys ∧
      ⟨"app/main.py", "pkg/mod.py"⟩ ∉ analysis.imports.edges := by
  have hashable : AreHashable packageContents := by
    intro entry member
    simp only [packageContents, List.mem_cons, List.not_mem_nil, or_false] at member
    rcases member with rfl | rfl | rfl <;> exact ⟨_, rfl⟩
  obtain ⟨analysis, analysed, _⟩ := analyze_of_hashable packageRequest hashable
    (fun entry _ => handles_standardParser statements entry.1 entry.2)
  have named : ∀ segment ∈ ["pkg"], isIdentifier segment = true := by decide
  have module : relativeModule 2 ["pkg"] = "..pkg" := by decide
  have specifier : specifierOf 2 ["pkg"] = "../pkg" := by decide
  have directory : targetPath "../pkg" "app/main.py" = "pkg" := by decide
  have read : syntaxTree statements "from ..pkg import mod".toList =
      [.importFrom (.relative "..pkg") (.names [.plain "mod"])] := by
    have proper : (ImportList.names ⟨"mod", none⟩ []).isProper = true := by decide
    have text : relativeImport 2 ["pkg"] (.names ⟨"mod", none⟩ []) = "from ..pkg import mod" := by
      decide
    rw [syntaxTree, if_neg (by decide), ← text, statements_relativeImport (by decide) named proper,
      module]
    rfl
  have has : HasTree statements packageContents "app/main.py"
      [.importFrom (.relative "..pkg") (.names [.plain "mod"])] :=
    ⟨by decide, _, _, rfl, source?_ofText _, read⟩
  have stands : statementAt [.importFrom (.relative "..pkg") (.names [.plain "mod"])] [0] =
      some (.importFrom (.relative (relativeModule 2 ["pkg"])) (.names [.plain "mod"])) := by
    rw [module]
    rfl
  obtain ⟨_, condition⟩ := submodule_edge_iff rfl analysed has (by decide) (by decide) named stands
  rw [specifier, directory] at condition
  refine ⟨analysis, _, analysed, has, rfl, by rw [directory]; rfl, by decide, ?_⟩
  intro listed
  rcases (condition "mod" (by decide) (by decide) (by decide)).1 listed with
    ⟨index, _⟩ | ⟨other, elsewhere, _, stated, _⟩
  · exact absurd index (by decide)
  · have only : positionsIn [.importFrom (.relative "..pkg") (.names [.plain "mod"])] = [[0]] := by
      simp [positionsIn, positionsFrom, positionsOf]
    have among := mem_positionsIn_of_mem_specifiersAt stated
    rw [only] at among
    exact elsewhere (List.mem_singleton.1 among)

end RepoAtlas
