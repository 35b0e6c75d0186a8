/-
Module: RepoAtlas.Proofs.DirectoryWalk
Purpose: A relative import is followed by walking through directories.
  Resolving takes the directory of the importing file, puts the specifier behind it and normalises the
  whole as one text.  That text may hold empty segments, dots and ascents anywhere.  Its normal form is
  where a walk from the root arrives that takes one segment after the other; a path that begins with
  an ascent is the normal form of a walk that left the repository, wherever it went afterwards.
Main exports: walkStep, walk, folders, Follows, Follows.pass, Follows.ascend, Follows.enter,
  Follows.step, Follows.run, Follows.lookup, targetPath_eq, resolve_eq_walk
-/
import RepoAtlas.Proofs.DirectoryRoutes
import RepoAtlas.Proofs.RelativeImports
import Mathlib.Data.List.Induction

namespace RepoAtlas

/-! ### Segments of paths that are put together -/

namespace Text

/-- The parts that are not empty. -/
def filledParts (separator : Char) (chars : List Char) : List (List Char) :=
  (split separator chars).filter (· ≠ [])

theorem filledParts_append_separator (separator : Char) (front rest : List Char) :
    filledParts separator (front ++ separator :: rest) =
      filledParts separator front ++ filledParts separator rest := by
  rw [filledParts, split_append_separator, List.filter_append]
  rfl

/-- Separators at the end enclose nothing. -/
theorem filledParts_dropEndWhile (separator : Char) (chars : List Char) :
    filledParts separator (dropEndWhile (· == separator) chars) = filledParts separator chars := by
  induction chars using List.reverseRecOn with
  | nil => rfl
  | append_singleton front last ih =>
    by_cases same : last = separator
    · subst same
      rw [dropEndWhile_append_singleton (by simp), ih, filledParts_append_separator]
      simp [filledParts, split]
    · rw [dropEndWhile_of_getLast? List.getLast?_concat (by simpa using same)]

end Text

namespace Path

open Text

/-- A path is what stands up to its last slash, and a name without slash. -/
theorem directoryPart_append_fileNameChars (path : List Char) :
    directoryPart path ++ fileNameChars path = path := by
  rw [directoryPart, fileNameChars, ← List.reverse_append, List.takeWhile_append_dropWhile,
    List.reverse_reverse]

theorem slash_not_mem_fileNameChars (path : List Char) : '/' ∉ fileNameChars path := by
  intro member
  simpa using List.mem_takeWhile_imp (List.mem_reverse.1 member)

theorem directoryPart_cases (path : List Char) :
    directoryPart path = [] ∨ ∃ front, directoryPart path = front ++ ['/'] := by
  cases whole : path.reverse.dropWhile (· ≠ '/') with
  | nil => exact .inl (by rw [directoryPart, whole]; rfl)
  | cons char rest =>
    have stopped := List.head?_dropWhile_not (· ≠ '/') path.reverse
    rw [whole] at stopped
    have slash : char = '/' := by simpa using stopped
    exact .inr ⟨rest.reverse, by rw [directoryPart, whole, slash, List.reverse_cons]⟩

theorem directoryChars_prefix (path : List Char) : directoryChars path <+: path := by
  have part : directoryPart path <+: path := ⟨_, directoryPart_append_fileNameChars path⟩
  rw [directoryChars]
  split
  · exact part
  · refine List.IsPrefix.trans ?_ part
    rw [dropEndWhile, ← List.reverse_suffix, List.reverse_reverse]
    exact List.dropWhile_suffix _

/-- The segments of a directory are those of the path before its last slash. -/
theorem filledParts_directoryChars (path : List Char) :
    filledParts '/' (directoryChars path) = (split '/' path).dropLast.filter (· ≠ []) := by
  have parts : filledParts '/' (directoryChars path) = filledParts '/' (directoryPart path) := by
    rw [directoryChars]
    split
    · rfl
    · exact filledParts_dropEndWhile '/' _
  have named := slash_not_mem_fileNameChars path
  have whole := directoryPart_append_fileNameChars path
  rw [parts]
  rcases directoryPart_cases path with none | ⟨front, some⟩
  · rw [none, List.nil_append] at whole
    rw [none, ← whole, split_of_not_mem named]
    rfl
  · rw [some, List.append_assoc, List.singleton_append] at whole
    rw [some, filledParts_append_separator, ← whole, split_append_separator, split_of_not_mem named,
      List.dropLast_concat]
    simp [filledParts, split]

theorem filledParts_joinChars (directory relative : List Char) :
    filledParts '/' (joinChars directory relative) =
      filledParts '/' directory ++ filledParts '/' relative := by
  unfold joinChars
  split
  · next none =>
    rw [List.getLast?_eq_none_iff.1 none]
    rfl
  · next slash =>
    obtain ⟨front, rfl⟩ := List.getLast?_eq_some_iff.1 slash
    rw [List.append_assoc, List.singleton_append, filledParts_append_separator,
      filledParts_append_separator]
    simp [filledParts, split]
  · exact filledParts_append_separator '/' directory relative

/-- Normalising passes over empty segments. -/
theorem foldl_normalStep_filter (segments done : List (List Char)) (rooted : Bool) :
    (segments.filter (· ≠ [])).foldl (normalStep rooted) done =
      segments.foldl (normalStep rooted) done := by
  induction segments generalizing done with
  | nil => rfl
  | cons segment rest ih =>
    by_cases empty : segment = []
    · subst empty
      have passed : normalStep rooted done [] = done := by simp [normalStep]
      rw [List.foldl_cons, passed, ← ih]
      rfl
    · rw [List.filter_cons_of_pos (by simpa using empty), List.foldl_cons, List.foldl_cons, ih]

end Path

namespace Imports

open RepoAtlas.Path Text

/-! ### The walk -/

/-- Takes one segment of a walk.  `stack` holds the names of the directories that were entered, the
latest first.  An ascent leaves the latest one, and there is none to leave at the root. -/
def walkStep (stack : List String) (segment : String) : Option (List String) :=
  if segment = "" ∨ segment = "." then some stack
  else if segment = ".." then
    match stack with
    | [] => none
    | _ :: kept => some kept
  else some (segment :: stack)

/-- Where a walk from the root arrives, as names from the root down; nothing if it ever leaves the
repository. -/
def walk (segments : List String) : Option (List String) :=
  (segments.foldlM walkStep []).map List.reverse

/-- The segments before the last slash of a path. -/
def folders (path : String) : List String :=
  (splitText '/' path).dropLast

/-- How the segments kept in normalising follow a walk.  Inside the repository they are the names of
the directories entered; after it was left, an ascent stands at the bottom and stays there. -/
inductive Follows : Option (List String) → List (List Char) → Prop
  | inside {stack : List String} (proper : ∀ name ∈ stack, IsProperName name.toList) :
    Follows (some stack) (stack.map String.toList)
  | outside (above : List (List Char)) : Follows none (above ++ [['.', '.']])

section Steps

variable {walked : Option (List String)} {done : List (List Char)}

/-- Neither an empty segment nor a dot leads anywhere. -/
theorem Follows.pass (follows : Follows walked done) {segment : String}
    (passed : segment = "" ∨ segment = ".") :
    Follows (walked.bind (walkStep · segment)) (normalStep false done segment.toList) := by
  have stays : normalStep false done segment.toList = done := by
    rcases passed with rfl | rfl <;> simp [normalStep]
  have still : walked.bind (walkStep · segment) = walked := by
    cases walked <;> simp [walkStep, passed]
  rwa [stays, still]

/-- An ascent leaves the latest directory.  At the root it leaves the repository, and is kept. -/
theorem Follows.ascend (follows : Follows walked done) :
    Follows (walked.bind (walkStep · "..")) (normalStep false done "..".toList) := by
  cases follows with
  | inside proper =>
    rename_i stack
    cases stack with
    | nil => exact .outside []
    | cons name kept =>
      have taken : normalStep false ((name :: kept).map String.toList) "..".toList =
          kept.map String.toList := by
        simp [normalStep, (proper name (by simp)).notAbove]
      rw [taken]
      exact .inside (fun other member => proper other (by simp [member]))
  | outside above =>
    cases above with
    | nil => exact .outside [['.', '.']]
    | cons last others =>
      by_cases stuck : last = ['.', '.']
      · subst stuck
        exact .outside (['.', '.'] :: ['.', '.'] :: others)
      · have taken : normalStep false (last :: others ++ [['.', '.']]) "..".toList =
            others ++ [['.', '.']] := by
          simp [normalStep, stuck]
        rw [taken]
        exact .outside others

/-- A name is entered. -/
theorem Follows.enter (follows : Follows walked done) {name : String}
    (proper : IsProperName name.toList) :
    Follows (walked.bind (walkStep · name)) (normalStep false done name.toList) := by
  rw [normalStep_name proper]
  cases follows with
  | inside proper' =>
    rename_i stack
    have entered : walkStep stack name = some (name :: stack) := by
      unfold walkStep
      rw [if_neg, if_neg]
      · rintro rfl
        exact proper.notAbove rfl
      · rintro (rfl | rfl)
        · exact proper.nonempty rfl
        · exact proper.notHere rfl
    rw [Option.bind_some, entered]
    exact .inside (List.forall_mem_cons.2 ⟨proper, proper'⟩)
  | outside above => exact .outside (name.toList :: above)

theorem Follows.step (follows : Follows walked done) {segment : String}
    (plain : '/' ∉ segment.toList) :
    Follows (walked.bind (walkStep · segment)) (normalStep false done segment.toList) := by
  by_cases passed : segment = "" ∨ segment = "."
  · exact follows.pass passed
  · by_cases ascent : segment = ".."
    · subst ascent
      exact follows.ascend
    · apply follows.enter
      refine ⟨⟨?_, plain⟩, ?_, ?_⟩
      · exact fun empty => passed (.inl (String.toList_inj.1 empty))
      · exact fun here => passed (.inr (String.toList_inj.1 here))
      · exact fun above => ascent (String.toList_inj.1 above)

/-- Normalising follows a walk to its end. -/
theorem Follows.run {segments : List String} (plain : ∀ segment ∈ segments, '/' ∉ segment.toList)
    (follows : Follows walked done) :
    Follows (walked.bind (segments.foldlM walkStep ·))
      ((segments.map String.toList).foldl (normalStep false) done) := by
  induction segments generalizing walked done with
  | nil =>
    have ended : walked.bind (List.foldlM walkStep · []) = walked := by cases walked <;> rfl
    rwa [ended]
  | cons segment rest ih =>
    have next := ih (fun other member => plain other (by simp [member]))
      (follows.step (plain segment (by simp)))
    rwa [Option.bind_assoc] at next

/-- What is looked up at the end: the files of the place where the walk arrived, or none. -/
theorem Follows.lookup (follows : Follows walked done) (known : List String) :
    let kept := List.intercalate ['/'] done.reverse
    let path := String.ofList (if kept.isEmpty then ['.'] else kept)
    (if leavesRepository path then none else (candidates path).find? known.contains) =
      (walked.map List.reverse).bind (fun names => (modulePaths names).find? known.contains) := by
  cases follows with
  | inside proper =>
    rename_i stack
    have backwards : ∀ name ∈ stack.reverse, IsProperName name.toList :=
      fun name member => proper name (List.mem_reverse.1 member)
    obtain ⟨stays, looked⟩ := candidates_of_isProperName backwards
    rw [List.map_reverse] at stays looked
    simp only [stays, looked, Bool.false_eq_true, if_false, Option.map_some, Option.bind_some]
  | outside above =>
    have leaves := leavesRepository_of_ascents (show 0 < 1 by decide) above.reverse
    rw [List.replicate_one, List.singleton_append] at leaves
    rw [List.reverse_append, List.reverse_singleton, List.singleton_append]
    simp only [leaves, if_true, Option.map_none, Option.bind_none]

end Steps

/-! ### The path that a specifier points at -/

theorem head?_of_isRelative {specifier : String} (relative : isRelative specifier = true) :
    specifier.toList.head? = some '.' := by
  simp only [isRelative, Bool.or_eq_true, decide_eq_true_eq, startsWith,
    List.isPrefixOf_iff_prefix] at relative
  rcases relative with ((rfl | rfl) | ⟨rest, whole⟩) | ⟨rest, whole⟩
  · rfl
  · rfl
  · rw [← whole]
    rfl
  · rw [← whole]
    rfl

section Following

variable {specifier importer : String}

theorem leadingSlashes_joinChars (inside : startsWith importer "/" = false)
    (relative : isRelative specifier = true) :
    leadingSlashes (joinChars (directoryChars importer.toList) specifier.toList) = 0 := by
  have dotted := head?_of_isRelative relative
  have begins : (joinChars (directoryChars importer.toList) specifier.toList).head? ≠ some '/' := by
    obtain ⟨rest, whole⟩ := directoryChars_prefix importer.toList
    cases folder : directoryChars importer.toList with
    | nil =>
      change specifier.toList.head? ≠ some '/'
      rw [dotted]
      decide
    | cons char others =>
      rw [folder] at whole
      have apart : char ≠ '/' := by
        rintro rfl
        rw [Bool.eq_false_iff, ne_eq, startsWith, List.isPrefixOf_iff_prefix, ← whole] at inside
        exact inside ⟨others ++ rest, rfl⟩
      unfold joinChars
      split <;> simp_all
  cases path : joinChars (directoryChars importer.toList) specifier.toList with
  | nil => rfl
  | cons char others =>
    rw [path, List.head?_cons, ne_eq, Option.some_inj] at begins
    simp [leadingSlashes, begins]

/-- The path that a specifier points at is what is kept of the segments of the importing file's
directory and its own. -/
theorem targetPath_eq (inside : startsWith importer "/" = false)
    (relative : isRelative specifier = true) :
    targetPath specifier importer =
      let segments := folders importer ++ splitText '/' specifier
      let kept := List.intercalate ['/']
        ((segments.map String.toList).foldl (normalStep false) []).reverse
      String.ofList (if kept.isEmpty then ['.'] else kept) := by
  have apart : (folders importer ++ splitText '/' specifier).map String.toList =
      (split '/' importer.toList).dropLast ++ split '/' specifier.toList := by
    simp [folders, splitText, ← List.map_dropLast, Function.comp_def]
  have steps : (split '/' (joinChars (directoryChars importer.toList) specifier.toList)).foldl
      (normalStep false) [] =
        ((folders importer ++ splitText '/' specifier).map String.toList).foldl
          (normalStep false) [] := by
    have filled := filledParts_joinChars (directoryChars importer.toList) specifier.toList
    rw [filledParts_directoryChars, filledParts, filledParts, ← List.filter_append] at filled
    rw [apart, ← foldl_normalStep_filter, filled, foldl_normalStep_filter]
  rw [targetPath, Path.normalize, Path.join, Path.directory, String.toList_ofList,
    String.toList_ofList, normalizeChars_of_relative (leadingSlashes_joinChars inside relative),
    steps]

theorem plain_of_mem_segments {segment : String}
    (member : segment ∈ folders importer ++ splitText '/' specifier) :
    '/' ∉ segment.toList := by
  have parts {path : String} (listed : segment ∈ splitText '/' path) : '/' ∉ segment.toList := by
    obtain ⟨part, among, rfl⟩ := List.mem_map.1 listed
    rw [String.toList_ofList]
    exact not_mem_of_mem_split among
  rcases List.mem_append.1 member with before | within
  · exact parts ((List.dropLast_sublist _).subset before)
  · exact parts within

end Following

/-- Resolving is walking.  For an importing file whose path does not begin with a slash, a relative
specifier means the first known file of the place where the walk over the file's directory and the
specifier arrives, and nothing if the walk ever leaves the repository, even if it comes back.  Every
other specifier means nothing. -/
theorem resolve_eq_walk {importer : String} (inside : startsWith importer "/" = false)
    (specifier : String) (known : List String) :
    resolve specifier importer known =
      if isRelative specifier then
        (walk (folders importer ++ splitText '/' specifier)).bind
          (fun names => (modulePaths names).find? known.contains)
      else none := by
  by_cases relative : isRelative specifier = true
  · have plain : ∀ segment ∈ folders importer ++ splitText '/' specifier,
        '/' ∉ segment.toList := fun _ => plain_of_mem_segments
    have start : Follows (some []) [] := .inside (by simp)
    have follows := start.run plain
    rw [resolve, if_pos relative, if_pos relative, targetPath_eq inside relative]
    exact follows.lookup known
  · rw [resolve, if_neg relative, if_neg relative]

/-- A walk with doubled slashes, dots and a name that begins with two dots ends at a package; one that
leaves the repository and comes back means nothing, although the file it would come to is known. -/
theorem resolve_eq_walk_there_and_back :
    startsWith "src//app/./main.py" "/" = false ∧
      resolve "../..//..lib/./core/" "src//app/./main.py" ["src/app/x.py", "..lib/core/__init__.py"] =
        some "..lib/core/__init__.py" ∧
      resolve "../../../src/app/x" "src//app/./main.py" ["src/app/x.py", "..lib/core/__init__.py"] =
        none := by
  have inside : startsWith "src//app/./main.py" "/" = false := by decide
  refine ⟨inside, ?_, ?_⟩
  · rw [resolve_eq_walk inside]
    decide
  · rw [resolve_eq_walk inside]
    decide

end Imports

end RepoAtlas
