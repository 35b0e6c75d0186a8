/-
Module: RepoAtlas.Proofs.RelativeImports
Purpose: Relative imports follow the package rule.
  A source records a relative import as a path of ascents and segments, and the import graph follows
  that path from the importing file.  Together they mean: the first dot stands for the directory of
  the importing file, each further dot takes one directory back, and the segments lead down again.
  An import with more dots than that leaves the repository and means no file.
Main exports: namedModules, modulePaths, importedSpecifiers_relative, targetPath_specifierOf,
  relative_imports_follow_packages
-/
import RepoAtlas.Imports.Resolve
import RepoAtlas.Proofs.ImportStatements
import RepoAtlas.Proofs.SourceOutline

namespace RepoAtlas.Imports

open Source RepoAtlas.Path Text

/-! ### What the package rule says -/

/-- The modules that a relative import names, as segments below the directory it starts from.  After
dots alone each imported name is a module. -/
def namedModules (segments : List String) : ImportList → List (List String)
  | .all => [segments]
  | .names first others =>
    if segments.isEmpty then (first :: others).map (fun imported => [imported.name])
    else [segments]

/-- The files that can be the module at the given segments below the root, most specific first. -/
def modulePaths (base : List String) : List String :=
  let path := String.intercalate "/" base
  if base.isEmpty then indexFiles
  else path :: extensions.map (path ++ ·) ++ indexFiles.map (path ++ "/" ++ ·)

/-! ### The recorded specifiers -/

/-- The segments that leading dots are recorded as. -/
def ascents (dots : Nat) : List (List Char) :=
  if dots = 1 then [['.']] else List.replicate (dots - 1) ['.', '.']

/-- The specifier that a module is recorded as. -/
def specifierOf (dots : Nat) (module : List String) : String :=
  String.ofList (List.intercalate ['/'] (ascents dots ++ module.map String.toList))

theorem ascents_ne_nil {dots : Nat} (positive : 0 < dots) : ascents dots ≠ [] := by
  unfold ascents
  split
  · simp
  · simp only [ne_eq, List.replicate_eq_nil_iff]
    omega

theorem isSegment_ascents {dots : Nat} : ∀ segment ∈ ascents dots, IsSegment segment := by
  intro segment member
  unfold ascents at member
  split at member
  · obtain rfl := List.mem_singleton.1 member
    exact ⟨by simp, by decide⟩
  · obtain ⟨-, rfl⟩ := List.mem_replicate.1 member
    exact ⟨by simp, by decide⟩

theorem ascent_eq (dots : Nat) : ascent dots = ((ascents dots).map (· ++ ['/'])).flatten := by
  unfold ascent ascents
  split <;> simp

theorem not_mem_of_isIdentifier {name : String} (named : isIdentifier name = true) (char : Char)
    (unnamed : isNameChar char = false) : char ∉ name.toList := by
  have word := isWordText_of_isIdentifier named
  simp only [isWordText, Bool.and_eq_true, List.all_eq_true] at word
  intro member
  exact ne_of_isNameChar (word.2 char member) char unnamed rfl

theorem isProperName_of_isIdentifier {name : String} (named : isIdentifier name = true) :
    IsProperName name.toList := by
  have dotless := not_mem_of_isIdentifier named '.' rfl
  refine ⟨⟨?_, not_mem_of_isIdentifier named _ rfl⟩, ?_, ?_⟩
  · intro empty
    have word := isWordText_of_isIdentifier named
    simp [isWordText, empty] at word
  · intro same
    exact dotless (by simp [same])
  · intro same
    exact dotless (by simp [same])

theorem dotsToSlashes_of_not_mem {chars : List Char} (absent : '.' ∉ chars) :
    dotsToSlashes chars = chars := by
  have kept : ∀ char ∈ chars, (if char = '.' then '/' else char) = char := by
    intro char member
    rw [if_neg]
    rintro rfl
    exact absent member
  rw [dotsToSlashes, List.map_congr_left kept, List.map_id']

theorem dotsToSlashes_intercalate {segments : List (List Char)}
    (absent : ∀ segment ∈ segments, '.' ∉ segment) :
    dotsToSlashes (List.intercalate ['.'] segments) = List.intercalate ['/'] segments := by
  induction segments with
  | nil => rfl
  | cons segment others ih =>
    have here := dotsToSlashes_of_not_mem (absent segment (by simp))
    have later := ih (fun other member => absent other (by simp [member]))
    cases others with
    | nil => simpa using here
    | cons next others =>
      rw [List.intercalate_cons_cons, List.intercalate_cons_cons, ← later]
      simp only [dotsToSlashes] at here ⊢
      simp [here]

/-- A relative module is recorded as its ascents and segments, with a slash after each ascent. -/
theorem relativeSpecifier_relativeModule (dots : Nat) {segments : List String}
    (named : ∀ segment ∈ segments, isIdentifier segment = true) :
    relativeSpecifier (relativeModule dots segments).toList =
      ascent dots ++ List.intercalate ['/'] (segments.map String.toList) := by
  have text : (relativeModule dots segments).toList =
      List.replicate dots '.' ++ List.intercalate ['.'] (segments.map String.toList) := by
    simp [relativeModule, String.toList_intercalate]
  have absent : ∀ segment ∈ segments.map String.toList, '.' ∉ segment := by
    intro segment member
    obtain ⟨name, listed, rfl⟩ := List.mem_map.1 member
    exact not_mem_of_isIdentifier (named name listed) _ rfl
  have stop : (List.intercalate ['.'] (segments.map String.toList)).dropWhile (· == '.') =
      List.intercalate ['.'] (segments.map String.toList) := by
    cases segments with
    | nil => rfl
    | cons segment others =>
      have word := isWordText_of_isIdentifier (named segment (by simp))
      have ends := endsDots_dottedTokens word (others.map String.toList) []
      rw [List.append_nil, written_dottedTokens] at ends
      rw [List.map_cons]
      cases whole : List.intercalate ['.'] (segment.toList :: others.map String.toList) with
      | nil => rfl
      | cons char rest =>
        rw [whole] at ends
        simp [(ends char rfl).2]
  have rest : (relativeModule dots segments).toList.dropWhile (· == '.') =
      List.intercalate ['.'] (segments.map String.toList) := by
    rw [text, List.dropWhile_append_of_pos (by simp), stop]
  rw [relativeSpecifier, rest, dotsToSlashes_intercalate absent, text]
  simp

theorem closedSpecifier_intercalate {parts : List (List Char)} (nonempty : parts ≠ [])
    (proper : ∀ part ∈ parts, IsSegment part) :
    closedSpecifier (List.intercalate ['/'] parts) = List.intercalate ['/'] parts := by
  obtain ⟨last, ends, apart⟩ := getLast?_intercalate nonempty proper
  have filled : List.intercalate ['/'] parts ≠ [] := by
    intro empty
    simp [empty] at ends
  have kept : dropEndWhile (· == '/') (List.intercalate ['/'] parts) =
      List.intercalate ['/'] parts :=
    dropEndWhile_of_getLast? ends (by simpa using apart)
  simp [closedSpecifier, kept, filled]

theorem closedSpecifier_append_slash (chars : List Char) :
    closedSpecifier (chars ++ ['/']) = closedSpecifier chars := by
  rw [closedSpecifier, dropEndWhile_append_singleton (by rfl), closedSpecifier]

section Recording

variable {dots : Nat} {segments : List String}

theorem isSegment_ascents_append (named : ∀ segment ∈ segments, isIdentifier segment = true) :
    ∀ part ∈ ascents dots ++ segments.map String.toList, IsSegment part := by
  intro part member
  rcases List.mem_append.1 member with up | down
  · exact isSegment_ascents part up
  · obtain ⟨name, listed, rfl⟩ := List.mem_map.1 down
    exact (isProperName_of_isIdentifier (named name listed)).toIsSegment

/-- A module that is recorded as a directory has no trailing slash. -/
theorem closedSpecifier_relativeModule (positive : 0 < dots)
    (named : ∀ segment ∈ segments, isIdentifier segment = true) :
    closedSpecifier (relativeSpecifier (relativeModule dots segments).toList) =
      (specifierOf dots segments).toList := by
  have up := ascents_ne_nil positive
  rw [specifierOf, String.toList_ofList, relativeSpecifier_relativeModule dots named, ascent_eq]
  cases segments with
  | nil =>
    rw [flatten_map_append _ up, List.map_nil, List.intercalate_nil, List.append_nil,
      List.append_nil, closedSpecifier_append_slash,
      closedSpecifier_intercalate up isSegment_ascents]
  | cons segment others =>
    rw [← intercalate_append _ _ (by simp),
      closedSpecifier_intercalate (by simp) (isSegment_ascents_append named)]

/-- Only a module of dots alone is recorded with a slash at its end. -/
theorem getLast?_relativeSpecifier (positive : 0 < dots)
    (named : ∀ segment ∈ segments, isIdentifier segment = true) :
    (relativeSpecifier (relativeModule dots segments).toList).getLast? = some '/' ↔
      segments = [] := by
  have up := ascents_ne_nil positive
  rw [relativeSpecifier_relativeModule dots named, ascent_eq]
  cases segments with
  | nil => simp [flatten_map_append _ up]
  | cons segment others =>
    obtain ⟨last, ends, apart⟩ := getLast?_intercalate (by simp) (isSegment_ascents_append named)
    rw [← intercalate_append _ _ (by simp), ends]
    simpa using apart

theorem specifierOf_sibling {name : String} (named : isIdentifier name = true) :
    String.ofList (relativeSpecifier (relativeModule dots []).toList ++
      dotsToSlashes name.toList) = specifierOf dots [name] := by
  rw [relativeSpecifier_relativeModule dots (by simp), ascent_eq,
    dotsToSlashes_of_not_mem (not_mem_of_isIdentifier named _ rfl), specifierOf,
    intercalate_append _ _ (by simp)]
  simp

/-- What a relative import records: one specifier for each module it names. -/
theorem importedSpecifiers_relative (positive : 0 < dots)
    (named : ∀ segment ∈ segments, isIdentifier segment = true) {list : ImportList}
    (proper : list.isProper = true) :
    importedSpecifiers (.relative (relativeModule dots segments)) list.imported =
      (namedModules segments list).map (specifierOf dots) := by
  have closed := closedSpecifier_relativeModule positive named
  cases list with
  | all => simp [ImportList.imported, importedSpecifiers, closed, namedModules]
  | names first others =>
    simp only [ImportList.imported, importedSpecifiers, List.map_cons,
      getLast?_relativeSpecifier positive named]
    by_cases bare : segments = []
    · subst bare
      have siblings : ∀ imported ∈ first :: others,
          String.ofList (relativeSpecifier (relativeModule dots []).toList ++
            dotsToSlashes imported.name.toList) = specifierOf dots [imported.name] := by
        intro imported member
        have each := List.all_eq_true.1 proper imported member
        simp only [ImportedName.isProper, Bool.and_eq_true] at each
        exact specifierOf_sibling each.1
      simpa [namedModules, ImportedName.unaliased_node] using siblings
    · simp [bare, closed, namedModules]

theorem ascents_eq_cons (positive : 0 < dots) :
    ∃ up others, ascents dots = up :: others ∧ (up = ['.'] ∨ up = ['.', '.']) := by
  unfold ascents
  split
  · exact ⟨['.'], [], rfl, .inl rfl⟩
  · obtain ⟨count, counted⟩ : ∃ count, dots - 1 = count + 1 := ⟨dots - 2, by omega⟩
    exact ⟨['.', '.'], List.replicate count ['.', '.'], by rw [counted]; rfl, .inr rfl⟩

theorem isRelative_specifierOf (positive : 0 < dots) (module : List String) :
    isRelative (specifierOf dots module) = true := by
  obtain ⟨up, others, begins, upward⟩ := ascents_eq_cons positive
  rw [specifierOf, begins, List.cons_append]
  cases others ++ module.map String.toList with
  | nil => rcases upward with rfl | rfl <;> rfl
  | cons next rest =>
    rw [List.intercalate_cons_cons]
    rcases upward with rfl | rfl <;> simp [isRelative, startsWith]

end Recording

/-! ### Following a specifier -/

/-- Where the ascents of leading dots lead from a directory: back to a directory above it, or out of
the repository. -/
def directoryAbove (dots : Nat) (directories : List (List Char)) : List (List Char) :=
  if dots - 1 ≤ directories.length then directories.take (directories.length - (dots - 1))
  else List.replicate (dots - 1 - directories.length) ['.', '.']

/-- From a directory, one ascent after the other is taken. -/
theorem foldl_normalStep_directoryAbove {directories : List (List Char)}
    (normal : ∀ name ∈ directories, IsProperName name) {dots : Nat} :
    (directories ++ ascents dots).foldl (normalStep false) [] =
      (directoryAbove dots directories).reverse := by
  have backwards : ∀ name ∈ directories.reverse, IsProperName name :=
    fun name member => normal name (List.mem_reverse.1 member)
  have steps : (ascents dots).foldl (normalStep false) directories.reverse =
      (List.replicate (dots - 1) ['.', '.']).foldl (normalStep false) directories.reverse := by
    unfold ascents
    split
    · next one =>
      subst one
      rfl
    · rfl
  rw [List.foldl_append, foldl_normalStep_names normal, List.append_nil, steps, directoryAbove]
  split
  · next within =>
    rw [foldl_normalStep_ascents backwards (by simpa using within), List.drop_reverse]
  · next beyond =>
    have more : directories.reverse.length < dots - 1 := by
      rw [List.length_reverse]
      omega
    rw [foldl_normalStep_beyond backwards more, List.length_reverse, List.reverse_replicate]

section Following

variable {directories : List String} {file : String}

/-- The path a specifier points at, seen from a file. -/
theorem targetPath_specifierOf (normal : ∀ name ∈ directories, IsProperName name.toList)
    (plain : '/' ∉ file.toList) {dots : Nat} (positive : 0 < dots) {module : List String}
    (named : ∀ segment ∈ module, isIdentifier segment = true) :
    targetPath (specifierOf dots module) (String.intercalate "/" (directories ++ [file])) =
      let kept := List.intercalate ['/']
        (directoryAbove dots (directories.map String.toList) ++ module.map String.toList)
      String.ofList (if kept.isEmpty then ['.'] else kept) := by
  have names : ∀ name ∈ directories.map String.toList, IsProperName name := by
    intro name member
    obtain ⟨directory, listed, rfl⟩ := List.mem_map.1 member
    exact normal directory listed
  have segments : ∀ name ∈ module.map String.toList, IsProperName name := by
    intro name member
    obtain ⟨segment, listed, rfl⟩ := List.mem_map.1 member
    exact isProperName_of_isIdentifier (named segment listed)
  have upward := ascents_ne_nil positive
  have parts : ∀ part ∈ directories.map String.toList ++
      (ascents dots ++ module.map String.toList), IsSegment part := by
    intro part member
    rcases List.mem_append.1 member with above | below
    · exact (names part above).toIsSegment
    · exact isSegment_ascents_append named part below
  have folder : Path.directory (String.intercalate "/" (directories ++ [file])) =
      String.ofList (List.intercalate ['/'] (directories.map String.toList)) := by
    rw [Path.directory, String.toList_intercalate, List.map_append]
    congr 1
    exact directoryChars_intercalate (fun name member => (names name member).toIsSegment) plain
  rw [targetPath, folder, specifierOf, Path.join, Path.normalize]
  simp only [String.toList_ofList]
  rw [joinChars_intercalate (fun name member => (names name member).toIsSegment) (by simp [upward]),
    normalizeChars_intercalate (by simp [upward]) parts, ← List.append_assoc, List.foldl_append,
    foldl_normalStep_directoryAbove names, foldl_normalStep_names segments]
  simp

/-- A path of proper names is none of the root, the directory above and the paths out of it. -/
theorem leavesRepository_of_isProperName {base : List String} (nonempty : base ≠ [])
    (proper : ∀ name ∈ base, IsProperName name.toList) :
    String.intercalate "/" base ≠ "." ∧ leavesRepository (String.intercalate "/" base) = false := by
  have chars : (String.intercalate "/" base).toList =
      List.intercalate ['/'] (base.map String.toList) := String.toList_intercalate
  -- A part that is a dot or an ascent would be one of the names.
  have parts : ∀ part ∈ split '/' (String.intercalate "/" base).toList, IsProperName part := by
    intro part member
    rw [chars, split_intercalate (by simpa using nonempty)] at member
    · obtain ⟨name, listed, rfl⟩ := List.mem_map.1 member
      exact proper name listed
    · intro other among
      obtain ⟨name, listed, rfl⟩ := List.mem_map.1 among
      exact (proper name listed).noSlash
  refine ⟨?_, ?_⟩
  · intro here
    rw [here] at parts
    exact (parts ['.'] (by decide)).notHere rfl
  · rw [leavesRepository, Bool.or_eq_false_iff, decide_eq_false_iff_not]
    refine ⟨?_, ?_⟩
    · intro above
      rw [above] at parts
      exact (parts ['.', '.'] (by decide)).notAbove rfl
    · rw [Bool.eq_false_iff]
      intro begins
      obtain ⟨rest, whole⟩ := List.isPrefixOf_iff_prefix.1 begins
      rw [← whole] at parts
      exact (parts ['.', '.'] (by simp [split])).notAbove rfl

/-- A path of proper names stays in the repository and is looked up as a module. -/
theorem candidates_of_isProperName {base : List String}
    (proper : ∀ name ∈ base, IsProperName name.toList) :
    let kept := List.intercalate ['/'] (base.map String.toList)
    let path := String.ofList (if kept.isEmpty then ['.'] else kept)
    leavesRepository path = false ∧ candidates path = modulePaths base := by
  by_cases root : base = []
  · subst root
    exact ⟨rfl, rfl⟩
  · have filled : List.intercalate ['/'] (base.map String.toList) ≠ [] := by
      rw [ne_eq, intercalate_eq_nil_iff]
      · simpa using root
      · intro part member
        obtain ⟨name, listed, rfl⟩ := List.mem_map.1 member
        exact (proper name listed).nonempty
    have path : String.ofList (List.intercalate ['/'] (base.map String.toList)) =
        String.intercalate "/" base := by
      rw [← String.toList_inj, String.toList_ofList, String.toList_intercalate]
      rfl
    obtain ⟨notHere, stays⟩ := leavesRepository_of_isProperName root proper
    simp [filled, path, stays, candidates, notHere, modulePaths, root]

theorem leavesRepository_of_ascents {count : Nat} (positive : 0 < count)
    (names : List (List Char)) :
    let kept := List.intercalate ['/'] (List.replicate count ['.', '.'] ++ names)
    leavesRepository (String.ofList (if kept.isEmpty then ['.'] else kept)) = true := by
  obtain ⟨fewer, rfl⟩ : ∃ fewer, count = fewer + 1 := ⟨count - 1, by omega⟩
  rw [List.replicate_succ, List.cons_append]
  cases List.replicate fewer ['.', '.'] ++ names with
  | nil => rfl
  | cons next others =>
    rw [List.intercalate_cons_cons]
    simp [leavesRepository, startsWith]

/-- A relative import with too many dots means no file. -/
theorem resolve_specifierOf_beyond (normal : ∀ name ∈ directories, IsProperName name.toList)
    (plain : '/' ∉ file.toList) {dots : Nat} (positive : 0 < dots) {module : List String}
    (named : ∀ segment ∈ module, isIdentifier segment = true)
    (beyond : directories.length < dots - 1) (known : List String) :
    resolve (specifierOf dots module) (String.intercalate "/" (directories ++ [file])) known =
      none := by
  have above : directoryAbove dots (directories.map String.toList) =
      List.replicate (dots - 1 - directories.length) ['.', '.'] := by
    rw [directoryAbove, List.length_map, if_neg (by omega)]
  have leaves := leavesRepository_of_ascents (Nat.sub_pos_of_lt beyond) (module.map String.toList)
  rw [resolve, targetPath_specifierOf normal plain positive named, above]
  simp only [leaves, if_true, ite_self]

/-- A relative import within the repository means the first known file of its module. -/
theorem resolve_specifierOf_within (normal : ∀ name ∈ directories, IsProperName name.toList)
    (plain : '/' ∉ file.toList) {dots : Nat} (positive : 0 < dots) {module : List String}
    (named : ∀ segment ∈ module, isIdentifier segment = true)
    (within : dots - 1 ≤ directories.length) (known : List String) :
    resolve (specifierOf dots module) (String.intercalate "/" (directories ++ [file])) known =
      (modulePaths (directories.take (directories.length - (dots - 1)) ++ module)).find?
        known.contains := by
  have base : directoryAbove dots (directories.map String.toList) ++ module.map String.toList =
      (directories.take (directories.length - (dots - 1)) ++ module).map String.toList := by
    rw [directoryAbove, List.length_map, if_pos within, List.map_append, List.map_take]
  have proper : ∀ name ∈ directories.take (directories.length - (dots - 1)) ++ module,
      IsProperName name.toList := by
    intro name member
    rcases List.mem_append.1 member with above | below
    · exact normal name (List.mem_of_mem_take above)
    · exact isProperName_of_isIdentifier (named name below)
  obtain ⟨stays, looked⟩ := candidates_of_isProperName proper
  rw [resolve, targetPath_specifierOf normal plain positive named, base]
  simp only [isRelative_specifierOf positive, if_true, stays, looked, Bool.false_eq_true, if_false]

end Following

theorem isIdentifier_of_mem_namedModules {segments : List String}
    (named : ∀ segment ∈ segments, isIdentifier segment = true) {list : ImportList}
    (proper : list.isProper = true) :
    ∀ module ∈ namedModules segments list, ∀ segment ∈ module, isIdentifier segment = true := by
  intro module member
  cases list with
  | all =>
    obtain rfl := List.mem_singleton.1 member
    exact named
  | names first others =>
    rw [namedModules] at member
    split at member
    · obtain ⟨imported, listed, rfl⟩ := List.mem_map.1 member
      have each := List.all_eq_true.1 proper imported listed
      simp only [ImportedName.isProper, Bool.and_eq_true] at each
      exact List.forall_mem_singleton.2 each.1
    · obtain rfl := List.mem_singleton.1 member
      exact named

/-- A relative import means what the package rule says, wherever it stands in the syntax tree of a
source.  It records one relative specifier for each module it names.  With more dots than the
importing file has directories above it, and one, none of them means a file; otherwise each means the
first known file of its module, seen from the directory that the dots lead back to. -/
theorem relative_imports_follow_packages (grammar : Grammar) {source : List Char}
    {position : List Nat} {directories : List String}
    (normal : ∀ name ∈ directories, IsProperName name.toList) {file : String}
    (plain : '/' ∉ file.toList) {dots : Nat} (positive : 1 ≤ dots) {segments : List String}
    (named : ∀ segment ∈ segments, isIdentifier segment = true) {list : ImportList}
    (proper : list.isProper = true)
    (stands : statementAt (syntaxTree grammar source) position =
      some (.importFrom (.relative (relativeModule dots segments)) list.imported))
    (known : List String) :
    let importer := String.intercalate "/" (directories ++ [file])
    let recorded := specifiersAt (syntaxTree grammar source) position
    recorded.length = (namedModules segments list).length ∧
    (∀ specifier ∈ recorded, isRelative specifier = true) ∧
    (directories.length < dots - 1 →
      ∀ specifier ∈ recorded, resolve specifier importer known = none) ∧
    (dots - 1 ≤ directories.length →
      recorded.map (resolve · importer known) =
        (namedModules segments list).map (fun module =>
          (modulePaths (directories.take (directories.length - (dots - 1)) ++ module)).find?
            known.contains)) := by
  have modules := isIdentifier_of_mem_namedModules named proper
  intro importer recorded
  have records : recorded = (namedModules segments list).map (specifierOf dots) := by
    rw [← importedSpecifiers_relative positive named proper]
    simp only [recorded, specifiersAt, stands]
    rfl
  rw [records]
  refine ⟨List.length_map _, ?_, ?_, ?_⟩
  · intro specifier member
    obtain ⟨module, -, rfl⟩ := List.mem_map.1 member
    exact isRelative_specifierOf positive module
  · intro beyond specifier member
    obtain ⟨module, listed, rfl⟩ := List.mem_map.1 member
    exact resolve_specifierOf_beyond normal plain positive (modules module listed) beyond known
  · intro within
    rw [List.map_map]
    apply List.map_congr_left
    intro module listed
    exact resolve_specifierOf_within normal plain positive (modules module listed) within known

/-- Two names imported from the directory above, one of them renamed: a file and a package. -/
theorem relative_imports_follow_packages_siblings :
    let tree := syntaxTree statements "from .. import helpers, util as u".toList
    (∀ name ∈ ["pkg", "sub"], IsProperName name.toList) ∧ '/' ∉ "mod.py".toList ∧
      (ImportList.names ⟨"helpers", none⟩ [⟨"util", some "u"⟩]).isProper = true ∧
      statementAt tree [0] = some (.importFrom (.relative "..")
        (.names [.plain "helpers", .aliased "util as u" (some "util")])) ∧
      (specifiersAt tree [0]).map
          (resolve · "pkg/sub/mod.py" ["pkg/helpers.py", "pkg/util/__init__.py"]) =
        [some "pkg/helpers.py", some "pkg/util/__init__.py"] := by
  have normal : ∀ name ∈ ["pkg", "sub"], IsProperName name.toList :=
    List.forall_mem_cons.2 ⟨⟨⟨by decide, by decide⟩, by decide, by decide⟩,
      List.forall_mem_singleton.2 ⟨⟨by decide, by decide⟩, by decide, by decide⟩⟩
  have plain : '/' ∉ "mod.py".toList := by decide
  have proper : (ImportList.names ⟨"helpers", none⟩ [⟨"util", some "u"⟩]).isProper = true := by
    decide
  have named : ∀ segment ∈ ([] : List String), isIdentifier segment = true := by simp
  have text : relativeImport 2 [] (.names ⟨"helpers", none⟩ [⟨"util", some "u"⟩]) =
      "from .. import helpers, util as u" := by decide
  have stands : statementAt (syntaxTree statements "from .. import helpers, util as u".toList) [0] =
      some (.importFrom (.relative (relativeModule 2 []))
        (ImportList.names ⟨"helpers", none⟩ [⟨"util", some "u"⟩]).imported) := by
    have read := statements_relativeImport (show 0 < 2 by decide) named proper
    rw [text] at read
    rw [syntaxTree, if_neg (by decide), read]
    rfl
  have found := (relative_imports_follow_packages statements normal plain (show 1 ≤ 2 by decide)
    named proper stands ["pkg/helpers.py", "pkg/util/__init__.py"]).2.2.2 (by decide)
  have importer : String.intercalate "/" (["pkg", "sub"] ++ ["mod.py"]) = "pkg/sub/mod.py" := by
    decide
  have module : relativeModule 2 [] = ".." := by decide
  rw [importer] at found
  rw [module] at stands
  refine ⟨normal, plain, proper, stands, found.trans ?_⟩
  decide

end RepoAtlas.Imports
