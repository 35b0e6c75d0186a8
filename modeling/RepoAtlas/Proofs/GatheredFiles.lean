/-
Module: RepoAtlas.Proofs.GatheredFiles
Purpose: The files that discovery finds are the ones that are read.
  Discovery walks down from the root of a repository, while reading follows the whole path of a file
  from the root of the disk.  Both come to the same file, because nothing on the way down is a link,
  and the text of a path gives back the names that it was made of.
Main exports: walk_append_of_directory, walk_down, locate_append, fileName_relativeText,
  segmentsFrom_relativeText, IsReadable, readFileAs_of_isReadable, gather_of_discover,
  get?_readFiles, mem_of_mem_readFiles
-/
import RepoAtlas.Proofs.DiscoveredFiles
import RepoAtlas.Repository.Update

namespace RepoAtlas

namespace Disk

/-! ### Paths that go on from a directory -/

/-- Following a path to a directory and going on is following the longer path, with as many links
left as the first part did not use. -/
theorem walk_append_of_directory {face : List String → Option Entry} {fuel : Nat}
    {here segments between : List String} {children : List (String × Entry)}
    (leads : walk face fuel here segments = .ok between)
    (directory : face between = some (.directory children)) (more : List String) :
    ∃ left, walk face fuel here (segments ++ more) = walk face left between more := by
  fun_induction walk face fuel here segments with
  | case1 fuel here =>
    cases leads
    exact ⟨fuel, rfl⟩
  | case2 fuel here rest outer found ih =>
    rw [List.cons_append, walk_ascent found]
    exact ih leads
  | case3 => cases leads
  | case4 fuel here segment rest outer found named short absent last =>
    cases leads
    cases absent.symm.trans directory
  | case5 => cases leads
  | case6 => cases leads
  | case7 here segment rest outer found named short target link fuel ih =>
    rw [List.cons_append, walk_link found named short link, ← List.append_assoc]
    exact ih leads
  | case8 fuel here segment rest outer found named short entry solid there ih =>
    rw [List.cons_append, walk_into found named short there solid]
    exact ih leads
  | case9 => cases leads

/-- Names that lead down to a file, none of them too long, are followed without a turn. -/
theorem walk_down {root base : Entry} {fuel : Nat} {here route : List String} {bytes : List UInt8}
    (stands : entryAt root here = some base) (below : entryAt base route = some (.file bytes))
    (named : ∀ segment ∈ route, segment ≠ ".." ∧ segment.utf8ByteSize ≤ nameLimit) :
    walk (faceAt root) fuel here route = .ok (here ++ route) := by
  induction route generalizing here base with
  | nil => rw [walk_nil, List.append_nil]
  | cons segment rest ih =>
    obtain ⟨⟨notAbove, short⟩, named⟩ := List.forall_mem_cons.1 named
    obtain ⟨children, rfl⟩ := exists_eq_directory (List.cons_ne_nil segment rest) below
    obtain ⟨child, found, further⟩ := Option.bind_eq_some_iff.1 below
    have there : entryAt root (here ++ [segment]) = some child := by
      rw [entryAt_concat_of_directory stands, found]
    have face : faceAt root (here ++ [segment]) = some child.face := by rw [faceAt, there]; rfl
    have solid : ∀ target, child.face ≠ .link target := by
      intro target same
      cases child with
      | link target => cases rest <;> cases further
      | file bytes => cases same
      | directory children => cases same
    rw [walk_into (faceAt_of_directory stands) notAbove (Nat.not_lt.2 short) face solid,
      ih there further named, List.append_assoc, List.singleton_append]

/-- A file below a directory is found under the path of the directory and the names on the way. -/
theorem locate_append {disk : Disk} {path real route : List String}
    {children : List (String × Entry)} {bytes : List UInt8}
    (located : disk.locate path = .ok ⟨real, .directory children⟩)
    (below : entryAt (.directory children) route = some (.file bytes))
    (named : ∀ segment ∈ route, segment ≠ ".." ∧ segment.utf8ByteSize ≤ nameLimit)
    (short : (pathText (path ++ route)).utf8ByteSize ≤ pathLimit) :
    disk.locate (path ++ route) = .ok ⟨real ++ route, .file bytes⟩ := by
  obtain ⟨_, leads, stands⟩ := (place_eq_ok_iff _ _ _ _).1 ((locate_eq_ok_iff _ _ _ _).1 located)
  obtain ⟨left, onward⟩ := walk_append_of_directory leads (faceAt_of_directory stands) route
  rw [locate_eq_ok_iff, place_eq_ok_iff]
  refine ⟨short, onward.trans (walk_down stands below named), ?_⟩
  rw [entryAt_append, stands]
  exact below

/-- The names on the way to an entry of a tree are segments. -/
theorem isSegment_of_entryAt {entry found : Entry} {route : List String} (tree : entry.IsTree)
    (below : entryAt entry route = some found) :
    ∀ segment ∈ route, Path.IsSegment segment.toList := by
  induction route generalizing entry with
  | nil => exact List.forall_mem_nil _
  | cons segment rest ih =>
    obtain ⟨children, rfl⟩ := exists_eq_directory (List.cons_ne_nil segment rest) below
    obtain ⟨child, named, further⟩ := Option.bind_eq_some_iff.1 below
    cases tree with
    | directory distinct segments trees =>
      have here := (childNamed_eq_some_iff distinct segment child).1 named
      exact List.forall_mem_cons.2 ⟨segments _ here, ih (trees _ here) further⟩

end Disk

namespace Repository

open Disk

/-! ### Texts of paths -/

section Texts

variable {route : List String}

theorem toList_relativeText (route : List String) :
    (relativeText route).toList = List.intercalate ['/'] (route.map String.toList) :=
  String.toList_intercalate ..

/-- The name of a file can be read off its path. -/
theorem fileName_relativeText (directories : List String) {name : String}
    (proper : Path.IsSegment name.toList) :
    Path.fileName (relativeText (directories ++ [name])) = name := by
  rw [Path.fileName, toList_relativeText, List.map_append, List.map_singleton,
    Path.fileNameChars_intercalate _ proper.noSlash, String.ofList_toList]

/-- A path is split into the names that it was made of, if none of them is a dot. -/
theorem pathSegments_relativeText (nonempty : route ≠ [])
    (proper : ∀ segment ∈ route, Path.IsSegment segment.toList) (shown : "." ∉ route) :
    pathSegments (relativeText route) = route := by
  have parts : Text.split '/' (relativeText route).toList = route.map String.toList := by
    rw [toList_relativeText]
    apply Text.split_intercalate (by simpa using nonempty)
    exact List.forall_mem_map.2 (fun segment member => (proper segment member).noSlash)
  have names : Text.splitText '/' (relativeText route) = route := by
    simp [Text.splitText, parts, Function.comp_def]
  rw [pathSegments, names, List.filter_eq_self]
  intro segment member
  have filled : segment ≠ "" := by
    rintro rfl
    exact (proper _ member).nonempty rfl
  have undotted : segment ≠ "." := fun same => shown (same ▸ member)
  simp [filled, undotted]

/-- As seen from a directory, a path of names goes on from there. -/
theorem segmentsFrom_relativeText (directory : List String) (nonempty : route ≠ [])
    (proper : ∀ segment ∈ route, Path.IsSegment segment.toList) (shown : "." ∉ route) :
    segmentsFrom directory (relativeText route) = directory ++ route ∧
      textFrom directory (relativeText route) = pathText (directory ++ route) := by
  obtain ⟨first, rest, begins, apart⟩ := Path.head?_intercalate
    (by simpa using nonempty) (List.forall_mem_map.2 proper)
  rw [← toList_relativeText] at begins
  have relative : Text.startsWith (relativeText route) "/" = false := by
    simp [Text.startsWith, begins, List.isPrefixOf, apart.symm]
  have slashes : Path.leadingSlashes (relativeText route).toList = 0 := by
    simp [Path.leadingSlashes, begins, apart]
  have segments : segmentsFrom directory (relativeText route) = directory ++ route := by
    rw [segmentsFrom, relative, if_neg Bool.false_ne_true,
      pathSegments_relativeText nonempty proper shown]
  refine ⟨segments, ?_⟩
  rw [textFrom, segments, slashes]
  rfl

end Texts

/-! ### Reading what is discovered -/

/-- Whether nothing keeps the file at a path below the root of a repository from being read: it is
not denied, and neither the path nor a name on it is too long. -/
structure IsReadable (site : Site) (route : List String) : Prop where
  allowed : pathText (site.root ++ route) ∉ site.disk.denied
  named : ∀ segment ∈ route, segment.utf8ByteSize ≤ nameLimit
  short : (pathText (site.root ++ route)).utf8ByteSize ≤ pathLimit

variable {site : Site} {route : List String} {bytes : List UInt8}

/-- What has something below it is the directory at the root of the repository. -/
theorem locate_root_of_entryAt (nonempty : route ≠ [])
    (present : entryAt (.directory (topEntries site)) route = some (.file bytes)) :
    ∃ real, site.disk.locate site.root = .ok ⟨real, .directory (topEntries site)⟩ := by
  have filled : topEntries site ≠ [] := by
    intro empty
    rw [empty] at present
    cases route with
    | nil => exact nonempty rfl
    | cons segment rest => cases present
  unfold topEntries at filled ⊢
  split
  · next real children located => exact ⟨real, located⟩
  · simp at filled

/-- A file that is discovered is read, unless something keeps it from being read. -/
theorem readFileAs_of_isReadable (tree : (Entry.directory (topEntries site)).IsTree)
    (nonempty : route ≠ [])
    (present : entryAt (.directory (topEntries site)) route = some (.file bytes))
    (shown : ∀ segment ∈ route, isHidden segment = false) (readable : IsReadable site route) :
    site.disk.readFileAs (textFrom site.root (relativeText route))
      (segmentsFrom site.root (relativeText route)) = .ok bytes := by
  have undotted : "." ∉ route := fun dot => nomatch shown "." dot
  have proper := isSegment_of_entryAt tree present
  obtain ⟨segments, text⟩ := segmentsFrom_relativeText site.root nonempty proper undotted
  obtain ⟨real, located⟩ := locate_root_of_entryAt nonempty present
  have named : ∀ segment ∈ route, segment ≠ ".." ∧ segment.utf8ByteSize ≤ nameLimit := by
    intro segment member
    refine ⟨?_, readable.named segment member⟩
    rintro rfl
    exact nomatch shown ".." member
  rw [segments, text, readFileAs, if_neg (by simpa using readable.allowed),
    locate_append located present named readable.short]

section Gathering

variable {options : RunOptions} {paths : List String} {path : String}

theorem gather_of_discover
    (discovered :
      discoverFiles site { language := options.language, sizeLimit := options.sizeLimit } =
        .ok paths) : gather site options = .ok (readFiles site paths) := by
  rw [gather, discovered]
  rfl

/-- The files that are read have the bytes of each one that can be read. -/
theorem get?_readFiles (listed : path ∈ paths)
    (read : site.disk.readFileAs (textFrom site.root path) (segmentsFrom site.root path) =
      .ok bytes) : (readFiles site paths).1.get? path = some bytes := by
  apply OrderedMap.get?_ofList
  · simp only [List.mem_filterMap, List.mem_map]
    refine ⟨_, ⟨path, listed, rfl⟩, ?_⟩
    simp [read, Except.toOption]
  · intro pair member same
    simp only [List.mem_filterMap, List.mem_map] at member
    obtain ⟨_, ⟨other, _, rfl⟩, attempted⟩ := member
    obtain ⟨given, obtained, rfl⟩ := Option.map_eq_some_iff.1 attempted
    cases same
    rw [read] at obtained
    exact (Option.some.inj obtained).symm

/-- No file is read but those asked for. -/
theorem mem_of_mem_readFiles (present : path ∈ (readFiles site paths).1.keys) : path ∈ paths := by
  simp only [readFiles, OrderedMap.mem_keys_ofList_iff, List.mem_map, List.mem_filterMap] at present
  obtain ⟨_, ⟨_, ⟨other, listed, rfl⟩, attempted⟩, rfl⟩ := present
  obtain ⟨given, -, rfl⟩ := Option.map_eq_some_iff.1 attempted
  exact listed

end Gathering

end Repository

end RepoAtlas
