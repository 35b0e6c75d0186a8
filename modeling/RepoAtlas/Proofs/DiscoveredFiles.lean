/-
Module: RepoAtlas.Proofs.DiscoveredFiles
Purpose: Which files of a directory tree are discovered, and in which order.
  A walk comes by a file exactly when the directories above it are entered and its name is not
  hidden, and it comes by each file once.  What is ignored is told by arbitrary predicates.
Main exports: Entry.IsTree, Reaches, mem_walk_iff, reaches_concat_iff, nodup_walk, IsDiscovered,
  mem_discover_iff, pairwise_discover, discover_is_exact
-/
import RepoAtlas.Proofs.DirectoryRoutes
import RepoAtlas.Proofs.DiskEdits
import RepoAtlas.Proofs.OrderedMapLaws
import RepoAtlas.Repository.Discovery

namespace RepoAtlas

/-! ### Directory trees -/

namespace Disk

/-- Whether the names in every directory are distinct segments of paths. -/
inductive Entry.IsTree : Entry → Prop where
  | file {bytes : List UInt8} : IsTree (.file bytes)
  | link {target : List String} : IsTree (.link target)
  | directory {children : List (String × Entry)} (distinct : (children.map Prod.fst).Nodup)
      (named : ∀ child ∈ children, Path.IsSegment child.1.toList)
      (below : ∀ child ∈ children, IsTree child.2) : IsTree (.directory children)

theorem childNamed_eq_lookupEntry (name : String) (children : List (String × Entry)) :
    childNamed name children = OrderedMap.lookupEntry name children := by
  induction children with
  | nil => rfl
  | cons child rest ih => rw [childNamed, OrderedMap.lookupEntry, ih]

theorem childNamed_eq_some_iff {children : List (String × Entry)}
    (distinct : (children.map Prod.fst).Nodup) (name : String) (entry : Entry) :
    childNamed name children = some entry ↔ (name, entry) ∈ children := by
  rw [childNamed_eq_lookupEntry, OrderedMap.lookupEntry_eq_some_iff distinct]

/-- Only a directory has something below it. -/
theorem exists_eq_directory {entry found : Entry} {route : List String} (further : route ≠ [])
    (below : entryAt entry route = some found) : ∃ children, entry = .directory children := by
  cases route with
  | nil => exact absurd rfl further
  | cons name rest =>
    cases entry with
    | directory children => exact ⟨children, rfl⟩
    | file bytes => cases below
    | link target => cases below

end Disk

namespace Repository

open Disk Ignore

/-! ### What a walk comes by -/

/-- The way from the children of a directory to a file: through directories that are entered, to a
name that is not hidden.  No link is on it. -/
inductive Reaches : List (String × Entry) → List String → List UInt8 → Prop where
  | file {children : List (String × Entry)} {name : String} {bytes : List UInt8}
      (here : (name, .file bytes) ∈ children) (shown : isHidden name = false) :
    Reaches children [name] bytes
  | inside {children inner : List (String × Entry)} {name : String} {route : List String}
      {bytes : List UInt8} (here : (name, .directory inner) ∈ children)
      (entered : isEntered name = true) (reached : Reaches inner route bytes) :
    Reaches children (name :: route) bytes

namespace Reaches

variable {children others : List (String × Entry)} {route : List String} {bytes : List UInt8}

theorem mono (reached : Reaches children route bytes) (more : children ⊆ others) :
    Reaches others route bytes := by
  cases reached with
  | file here shown => exact .file (more here) shown
  | inside here entered reached => exact .inside (more here) entered reached

theorem ne_nil (reached : Reaches children route bytes) : route ≠ [] := by
  cases reached with
  | file here shown => exact List.cons_ne_nil _ _
  | inside here entered reached => exact List.cons_ne_nil _ _

theorem cons_iff {name : String} : Reaches children (name :: route) bytes ↔
    route = [] ∧ (name, .file bytes) ∈ children ∧ isHidden name = false ∨
      ∃ inner, (name, .directory inner) ∈ children ∧ isEntered name = true ∧
        Reaches inner route bytes := by
  constructor
  · intro reached
    cases reached with
    | file here shown => exact .inl ⟨rfl, here, shown⟩
    | inside here entered reached => exact .inr ⟨_, here, entered, reached⟩
  · rintro (⟨rfl, here, shown⟩ | ⟨inner, here, entered, reached⟩)
    · exact .file here shown
    · exact .inside here entered reached

/-- The way begins with one of the children. -/
theorem exists_head (reached : Reaches children route bytes) :
    ∃ name rest, route = name :: rest ∧ name ∈ children.map Prod.fst := by
  cases reached with
  | file here shown => exact ⟨_, [], rfl, List.mem_map_of_mem here⟩
  | inside here entered reached => exact ⟨_, _, rfl, List.mem_map_of_mem here⟩

theorem isSegment (reached : Reaches children route bytes)
    (tree : (Entry.directory children).IsTree) :
    ∀ segment ∈ route, Path.IsSegment segment.toList := by
  induction reached with
  | file here shown =>
    cases tree with
    | directory distinct named below => simpa using named _ here
  | inside here entered reached ih =>
    cases tree with
    | directory distinct named below =>
      exact List.forall_mem_cons.2 ⟨named _ here, ih (below _ here)⟩

end Reaches

section Walk

theorem walk_eq_flatMap (above : List String) (children : List (String × Entry)) :
    walk above children = children.flatMap (fun child => walkEntry above child.1 child.2) := by
  induction children with
  | nil => rw [walk, List.flatMap_nil]
  | cons child rest ih => rw [walk, List.flatMap_cons, ih]

mutual

theorem reaches_of_mem_walkEntry : ∀ (entry : Entry) {above : List String} {name : String}
    {found : Found}, found ∈ walkEntry above name entry →
      ∃ route bytes, found = ⟨above ++ route, bytes.length⟩ ∧ Reaches [(name, entry)] route bytes
  | .file bytes, above, name, found, met => by
    rw [walkEntry] at met
    split at met
    · cases met
    · next shown =>
      rw [List.mem_singleton] at met
      exact ⟨[name], bytes, met, .file (List.mem_singleton.2 rfl) (by simpa using shown)⟩
  | .link target, above, name, found, met => by
    rw [walkEntry] at met
    cases met
  | .directory children, above, name, found, met => by
    rw [walkEntry] at met
    split at met
    · next entered =>
      obtain ⟨route, bytes, rfl, reached⟩ := reaches_of_mem_walk children met
      refine ⟨name :: route, bytes, by simp, ?_⟩
      exact .inside (List.mem_singleton.2 rfl) entered reached
    · cases met

theorem reaches_of_mem_walk : ∀ (children : List (String × Entry)) {above : List String}
    {found : Found}, found ∈ walk above children →
      ∃ route bytes, found = ⟨above ++ route, bytes.length⟩ ∧ Reaches children route bytes
  | [], above, found, met => by
    rw [walk] at met
    cases met
  | (name, entry) :: rest, above, found, met => by
    rw [walk, List.mem_append] at met
    rcases met with first | later
    · obtain ⟨route, bytes, same, reached⟩ := reaches_of_mem_walkEntry entry first
      exact ⟨route, bytes, same, reached.mono (by simp)⟩
    · obtain ⟨route, bytes, same, reached⟩ := reaches_of_mem_walk rest later
      exact ⟨route, bytes, same, reached.mono (List.subset_cons_self _ _)⟩

end

theorem mem_walk_of_reaches {children : List (String × Entry)} {route : List String}
    {bytes : List UInt8} (reached : Reaches children route bytes) (above : List String) :
    ⟨above ++ route, bytes.length⟩ ∈ walk above children := by
  induction reached generalizing above with
  | file here shown =>
    rw [walk_eq_flatMap]
    refine List.mem_flatMap.2 ⟨_, here, ?_⟩
    simp [walkEntry, shown]
  | @inside children inner name route bytes here entered reached ih =>
    rw [walk_eq_flatMap]
    refine List.mem_flatMap.2 ⟨_, here, ?_⟩
    rw [walkEntry, if_pos entered, List.append_cons above name route]
    exact ih (above ++ [name])

/-- A walk comes by the files to which a way leads, and by nothing else. -/
theorem mem_walk_iff (above : List String) (children : List (String × Entry)) (found : Found) :
    found ∈ walk above children ↔
      ∃ route bytes, found = ⟨above ++ route, bytes.length⟩ ∧ Reaches children route bytes := by
  constructor
  · exact reaches_of_mem_walk children
  · rintro ⟨route, bytes, rfl, reached⟩
    exact mem_walk_of_reaches reached above

/-- In a tree the way to a file is what stands at its path, if the directories on it are entered and
the last name is not hidden. -/
theorem reaches_concat_iff {children : List (String × Entry)}
    (tree : (Entry.directory children).IsTree) (directories : List String) (name : String)
    (bytes : List UInt8) :
    Reaches children (directories ++ [name]) bytes ↔
      entryAt (.directory children) (directories ++ [name]) = some (.file bytes) ∧
        (∀ directory ∈ directories, isEntered directory = true) ∧ isHidden name = false := by
  induction directories generalizing children with
  | nil =>
    cases tree with
    | directory distinct named below =>
      have named : entryAt (.directory children) [name] = childNamed name children :=
        Option.bind_fun_some _
      rw [List.nil_append, Reaches.cons_iff, named, childNamed_eq_some_iff distinct]
      constructor
      · rintro (⟨_, here, shown⟩ | ⟨inner, _, _, reached⟩)
        · exact ⟨here, by simp, shown⟩
        · exact absurd rfl reached.ne_nil
      · rintro ⟨here, _, shown⟩
        exact .inl ⟨rfl, here, shown⟩
  | cons directory rest ih =>
    cases tree with
    | directory distinct named below =>
      rw [List.cons_append, Reaches.cons_iff, List.forall_mem_cons, entryAt,
        Option.bind_eq_some_iff]
      constructor
      · rintro (⟨empty, _⟩ | ⟨inner, here, entered, reached⟩)
        · cases List.append_ne_nil_of_right_ne_nil rest (List.cons_ne_nil name []) empty
        · obtain ⟨found, above, shown⟩ := (ih (below _ here)).1 reached
          have named := (childNamed_eq_some_iff distinct _ _).2 here
          exact ⟨⟨_, named, found⟩, ⟨entered, above⟩, shown⟩
      · rintro ⟨⟨entry, named, found⟩, ⟨entered, above⟩, shown⟩
        have here := (childNamed_eq_some_iff distinct _ _).1 named
        obtain ⟨inner, rfl⟩ := exists_eq_directory (by simp) found
        exact .inr ⟨inner, here, entered, (ih (below _ here)).2 ⟨found, above, shown⟩⟩

/-- Files below different children have different paths, so a walk comes by no file twice if it
comes by none twice below any child. -/
theorem nodup_walk_of_nodup_walkEntry {children : List (String × Entry)}
    (distinct : (children.map Prod.fst).Nodup)
    (once : ∀ child ∈ children, ∀ above name,
      ((walkEntry above name child.2).map Found.path).Nodup) (above : List String) :
    ((walk above children).map Found.path).Nodup := by
  induction children with
  | nil => simp [walk]
  | cons child rest ih =>
    obtain ⟨name, entry⟩ := child
    obtain ⟨fresh, distinct⟩ := List.nodup_cons.1 distinct
    obtain ⟨first, later⟩ := List.forall_mem_cons.1 once
    rw [walk, List.map_append, List.nodup_append]
    refine ⟨first above name, ih distinct later, ?_⟩
    -- Both paths go on from `above` with the name of a child, and `name` is not one of the others.
    intro path member path' member' same
    obtain ⟨found, met, rfl⟩ := List.mem_map.1 member
    obtain ⟨found', met', rfl⟩ := List.mem_map.1 member'
    obtain ⟨route, bytes, rfl, reached⟩ := reaches_of_mem_walkEntry entry met
    obtain ⟨route', bytes', rfl, reached'⟩ := reaches_of_mem_walk rest met'
    obtain ⟨head, _, rfl, listed⟩ := reached.exists_head
    obtain ⟨head', _, rfl, listed'⟩ := reached'.exists_head
    obtain ⟨rfl, _⟩ := List.cons_eq_cons.1 (List.append_cancel_left same)
    rw [List.map_singleton, List.mem_singleton] at listed
    exact fresh (listed ▸ listed')

theorem nodup_walkEntry {entry : Entry} (tree : entry.IsTree) (above : List String)
    (name : String) : ((walkEntry above name entry).map Found.path).Nodup := by
  induction tree generalizing above name with
  | file =>
    rw [walkEntry]
    split <;> simp
  | link => simp [walkEntry]
  | directory distinct named below ih =>
    rw [walkEntry]
    split
    · exact nodup_walk_of_nodup_walkEntry distinct ih _
    · simp

/-- A walk comes by no file twice. -/
theorem nodup_walk {children : List (String × Entry)} (tree : (Entry.directory children).IsTree)
    (above : List String) : ((walk above children).map Found.path).Nodup := by
  cases tree with
  | directory distinct named below =>
    apply nodup_walk_of_nodup_walkEntry distinct
    intro child member
    exact nodup_walkEntry (below child member)

/-- The way to a file can be read off the text of its path, so a walk comes by no text twice. -/
theorem nodup_texts_walk {children : List (String × Entry)}
    (tree : (Entry.directory children).IsTree) :
    ((walk [] children).map (fun found => relativeText found.path)).Nodup := by
  have texts : (walk [] children).map (fun found => relativeText found.path) =
      ((walk [] children).map Found.path).map relativeText := by
    rw [List.map_map]
    rfl
  have proper : ∀ path ∈ (walk [] children).map Found.path,
      path ≠ [] ∧ ∀ segment ∈ path, Path.IsSegment segment.toList := by
    intro path member
    obtain ⟨found, met, rfl⟩ := List.mem_map.1 member
    obtain ⟨route, bytes, rfl, reached⟩ := (mem_walk_iff [] children found).1 met
    exact ⟨reached.ne_nil, reached.isSegment tree⟩
  rw [texts]
  apply List.Nodup.map_on _ (nodup_walk tree [])
  intro first listed second listed' same
  obtain ⟨nonempty, segments⟩ := proper first listed
  obtain ⟨nonempty', segments'⟩ := proper second listed'
  exact Overview.pathOf_injOn nonempty nonempty' segments segments' same

end Walk

/-! ### The files that are selected -/

/-- The entries of the root of a repository. -/
def topEntries (site : Site) : List (String × Entry) :=
  match site.disk.locate site.root with
  | .ok ⟨_, .directory children⟩ => children
  | _ => []

theorem allFiles_eq_walk (site : Site) : allFiles site = walk [] (topEntries site) := by
  rw [allFiles, topEntries]
  rcases site.disk.locate site.root with flaw | ⟨path, entry⟩
  · simp only [walk]
  · cases entry with
    | directory children => rfl
    | file bytes => simp only [walk]
    | link target => simp only [walk]

theorem discoverFiles_of_listingOf {site : Site} {filter : Filter} {listing : Listing}
    {excluded : String → Bool} (listed : listingOf site = .ok listing)
    (excludes : excludedBy site filter = .ok excluded) :
    discoverFiles site filter = .ok (discover site listing excluded filter) := by
  rw [discoverFiles, listed, excludes]
  rfl

theorem pairwise_discover {site : Site} (tree : (Entry.directory (topEntries site)).IsTree)
    (listing : Listing) (excluded : String → Bool) (filter : Filter) :
    (discover site listing excluded filter).Pairwise (· < ·) := by
  have once : (((allFiles site).filter (isWanted site listing excluded filter)).map
      (fun found => relativeText found.path)).Nodup := by
    rw [allFiles_eq_walk]
    exact (nodup_texts_walk tree).sublist (List.filter_sublist.map _)
  have sorted := OrderedMap.pairwise_lt_mergeSort id (by rwa [List.map_id])
  rwa [List.map_id] at sorted

theorem isEntered_iff (name : String) :
    isEntered name = true ↔ name ∉ skippedDirectories ∧ isHidden name = false := by
  simp [isEntered]

theorem isOfInterest_iff (language : Option String) (path : String) :
    isOfInterest language path = true ↔
      isManifest path = true ∨ ∃ found, Source.languageOf path = some found ∧
        ∀ asked, language = some asked → asked = "" ∨ asked = found := by
  rw [isOfInterest, Bool.or_eq_true]
  cases Source.languageOf path with
  | none => simp
  | some found =>
    cases language with
    | none => simp
    | some asked =>
      by_cases empty : asked = ""
      · simp [empty]
      · simp [empty]

theorem fits_iff (limit : Option Int) (size : Nat) :
    fits limit size = true ↔ ∀ cap, limit = some cap → (size : Int) ≤ cap := by
  cases limit <;> simp [fits]

theorem admits_iff (listing : Listing) (path : String) :
    listing.admits path = true ↔
      (∀ paths, listing = .tracked paths → path ∈ paths) ∧
        ∀ ignored, listing = .ignoring ignored → ignored path = false := by
  cases listing <;> simp [Listing.admits]

/-- Whether the file with the given bytes, under a name in a directory of a repository, is to be
discovered. -/
structure IsDiscovered (site : Site) (listing : Listing) (excluded : String → Bool)
    (filter : Filter) (directories : List String) (name : String) (bytes : List UInt8) :
    Prop where
  /-- A regular file stands there, and no link is on the way to it. -/
  present : entryAt (.directory (topEntries site)) (directories ++ [name]) = some (.file bytes)
  entered : ∀ directory ∈ directories,
    directory ∉ skippedDirectories ∧ isHidden directory = false
  shown : isHidden name = false
  listed : ∀ paths, listing = .tracked paths → relativeText (directories ++ [name]) ∈ paths
  notIgnored : ∀ ignored, listing = .ignoring ignored →
    ignored (relativeText (directories ++ [name])) = false
  notExcluded : excluded (relativeText (directories ++ [name])) = false
  /-- A file that cannot be measured counts as empty. -/
  small : ∀ cap, filter.sizeLimit = some cap →
    (measuredSize site ⟨directories ++ [name], bytes.length⟩ : Int) ≤ cap
  /-- A filter that is empty asks for nothing. -/
  wanted : isManifest (relativeText (directories ++ [name])) = true ∨
    ∃ language, Source.languageOf (relativeText (directories ++ [name])) = some language ∧
      ∀ asked, filter.language = some asked → asked = "" ∨ asked = language

section Selection

variable {site : Site} {listing : Listing} {excluded : String → Bool} {filter : Filter}

theorem isWanted_iff (found : Found) :
    isWanted site listing excluded filter found = true ↔
      ((∀ paths, listing = .tracked paths → relativeText found.path ∈ paths) ∧
        ∀ ignored, listing = .ignoring ignored → ignored (relativeText found.path) = false) ∧
      excluded (relativeText found.path) = false ∧
      (isManifest (relativeText found.path) = true ∨
        ∃ language, Source.languageOf (relativeText found.path) = some language ∧
          ∀ asked, filter.language = some asked → asked = "" ∨ asked = language) ∧
      ∀ cap, filter.sizeLimit = some cap → (measuredSize site found : Int) ≤ cap := by
  simp only [isWanted, Bool.and_eq_true, Bool.not_eq_true', admits_iff, isOfInterest_iff, fits_iff,
    and_assoc]

theorem mem_discover_iff (tree : (Entry.directory (topEntries site)).IsTree) (path : String) :
    path ∈ discover site listing excluded filter ↔
      ∃ directories name bytes, path = relativeText (directories ++ [name]) ∧
        IsDiscovered site listing excluded filter directories name bytes := by
  rw [discover, List.mem_mergeSort, List.mem_map]
  simp only [List.mem_filter, isWanted_iff, allFiles_eq_walk, mem_walk_iff, List.nil_append]
  constructor
  · rintro ⟨_, ⟨⟨route, bytes, rfl, reached⟩, owned, notExcluded, wanted, small⟩, rfl⟩
    obtain ⟨directories, name, rfl⟩ :=
      (List.eq_nil_or_concat' route).resolve_left reached.ne_nil
    obtain ⟨present, entered, shown⟩ := (reaches_concat_iff tree _ _ _).1 reached
    refine ⟨directories, name, bytes, rfl, ?_⟩
    exact {
      present
      entered := fun directory above => (isEntered_iff directory).1 (entered directory above)
      shown
      listed := owned.1
      notIgnored := owned.2
      notExcluded
      small
      wanted }
  · rintro ⟨directories, name, bytes, rfl, file⟩
    have entered : ∀ directory ∈ directories, isEntered directory = true :=
      fun directory above => (isEntered_iff directory).2 (file.entered directory above)
    have reached := (reaches_concat_iff tree _ _ _).2 ⟨file.present, entered, file.shown⟩
    exact ⟨_, ⟨⟨_, bytes, rfl, reached⟩, ⟨file.listed, file.notIgnored⟩, file.notExcluded,
      file.wanted, file.small⟩, rfl⟩

variable {directories : List String} {name : String} {bytes : List UInt8}

/-- Another language does not matter to a manifest. -/
theorem IsDiscovered.withLanguage
    (file : IsDiscovered site listing excluded filter directories name bytes)
    (manifest : isManifest (relativeText (directories ++ [name])) = true)
    (language : Option String) :
    IsDiscovered site listing excluded { filter with language } directories name bytes :=
  { file with wanted := .inl manifest }

/-- A higher limit, or none, keeps a file. -/
theorem IsDiscovered.withSizeLimit
    (file : IsDiscovered site listing excluded filter directories name bytes)
    {sizeLimit : Option Int}
    (higher : ∀ cap, sizeLimit = some cap → ∃ lower, filter.sizeLimit = some lower ∧ lower ≤ cap) :
    IsDiscovered site listing excluded { filter with sizeLimit } directories name bytes := by
  refine { file with small := ?_ }
  intro cap given
  obtain ⟨lower, limited, le⟩ := higher cap given
  exact (file.small lower limited).trans le

theorem mem_discover_withLanguage (tree : (Entry.directory (topEntries site)).IsTree)
    {path : String} (manifest : isManifest path = true) (language : Option String)
    (found : path ∈ discover site listing excluded filter) :
    path ∈ discover site listing excluded { filter with language } := by
  rw [mem_discover_iff tree] at found ⊢
  obtain ⟨directories, name, bytes, rfl, file⟩ := found
  exact ⟨directories, name, bytes, rfl, file.withLanguage manifest language⟩

end Selection

/-- Discovery is exact.  For every tree of files, directories and links, every list of tracked files
or, without one, every predicate of what is ignored, and every predicate of what is excluded besides,
the discovered paths increase strictly in code-point order and are those of the files that are to be
discovered.  So the language matters to no manifest, and a higher limit drops no path.  A run
discovers the files for the list that version control gives or else for what the ignore file
ignores. -/
theorem discover_is_exact (site : Site) (listing : Listing) (excluded : String → Bool)
    (filter : Filter) (tree : (Entry.directory (topEntries site)).IsTree) :
    (discover site listing excluded filter).Pairwise (· < ·) ∧
    (∀ path, path ∈ discover site listing excluded filter ↔
      ∃ directories name bytes, path = relativeText (directories ++ [name]) ∧
        IsDiscovered site listing excluded filter directories name bytes) ∧
    (∀ language (path : String), isManifest path = true →
      (path ∈ discover site listing excluded { filter with language } ↔
        path ∈ discover site listing excluded filter)) ∧
    (∀ sizeLimit,
      (∀ cap, sizeLimit = some cap → ∃ lower, filter.sizeLimit = some lower ∧ lower ≤ cap) →
        discover site listing excluded filter ⊆
          discover site listing excluded { filter with sizeLimit }) ∧
    (excludedBy site filter = .ok excluded →
      (∀ paths, site.trackedFiles? = some paths →
        discoverFiles site filter = .ok (discover site (.tracked paths) excluded filter)) ∧
      ∀ ignored, site.trackedFiles? = none → ignoredBy site = .ok ignored →
        discoverFiles site filter = .ok (discover site (.ignoring ignored) excluded filter)) := by
  refine ⟨pairwise_discover tree _ _ _, mem_discover_iff tree, ?_, ?_, ?_⟩
  · intro language path manifest
    constructor
    · exact mem_discover_withLanguage tree manifest filter.language
    · exact mem_discover_withLanguage tree manifest language
  · intro sizeLimit higher path found
    rw [mem_discover_iff tree] at found ⊢
    obtain ⟨directories, name, bytes, rfl, file⟩ := found
    exact ⟨directories, name, bytes, rfl, file.withSizeLimit higher⟩
  · intro excludes
    constructor
    · intro paths versioned
      have listed : listingOf site = .ok (.tracked paths) := by rw [listingOf, versioned]
      exact discoverFiles_of_listingOf listed excludes
    · intro ignored unversioned ignores
      have listed : listingOf site = .ok (.ignoring ignored) := by
        rw [listingOf, unversioned, ignores]
        rfl
      exact discoverFiles_of_listingOf listed excludes

/-- A tree in which a directory has the name of a file up to its extension, with a link, a hidden
file and a directory that is never entered. -/
def mixedTree : List (String × Entry) := [
  ("a", .directory [("b.py", .file [0x0A])]), ("a.py", .file []), ("setup.cfg", .file [0x0A]),
  (".c.py", .file []), ("d.py", .link ["r", "a.py"]), ("venv", .directory [("e.py", .file [])])]

/-- A repository with that tree, without version control and ignore file. -/
def mixedSite : Site where
  disk := { root := .directory [("r", .directory mixedTree)] }
  root := ["r"]

theorem topEntries_mixedSite : topEntries mixedSite = mixedTree := by
  simp +decide [topEntries, locate, place, placeFrom, childNamed, mixedSite]

theorem isTree_mixedTree : (Entry.directory mixedTree).IsTree := by
  have flat {name : String} {bytes : List UInt8} (named : Path.IsSegment name.toList) :
      (Entry.directory [(name, .file bytes)]).IsTree := by
    refine .directory (List.nodup_singleton name) ?_ ?_
    · exact List.forall_mem_singleton.2 named
    · exact List.forall_mem_singleton.2 .file
  have named : ∀ child ∈ mixedTree, child.1.toList ≠ [] ∧ '/' ∉ child.1.toList := by decide
  refine .directory (by decide) ?_ ?_
  · intro child member
    obtain ⟨nonempty, noSlash⟩ := named child member
    exact ⟨nonempty, noSlash⟩
  · simp only [mixedTree, List.forall_mem_cons]
    refine ⟨flat ⟨by decide, by decide⟩, .file, .file, .file, .link, ?_, List.forall_mem_nil _⟩
    exact flat ⟨by decide, by decide⟩

/-- The file in the directory is discovered there, with the default limit. -/
theorem discover_is_exact_mixedSite :
    (Entry.directory (topEntries mixedSite)).IsTree ∧
      ∃ paths, discoverFiles mixedSite {} = .ok paths ∧ paths.Pairwise (· < ·) ∧
        "a/b.py" ∈ paths := by
  have tree : (Entry.directory (topEntries mixedSite)).IsTree := by
    rw [topEntries_mixedSite]
    exact isTree_mixedTree
  have unversioned : mixedSite.trackedFiles? = none := by
    simp +decide [Site.trackedFiles?, Site.outputOf, Site.isVersioned, pathExists, locate, place,
      placeFrom, childNamed, mixedSite, mixedTree]
  have unread : ignoreLines mixedSite = .ok [] := by
    simp +decide [ignoreLines, isFile, locate, place, placeFrom, childNamed, mixedSite, mixedTree]
  have ignores : ignoredBy mixedSite = .ok (isIgnored []) := by
    rw [ignoredBy, unread]
    rfl
  have file : IsDiscovered mixedSite (.ignoring (isIgnored [])) (fun _ => false) {} ["a"] "b.py"
      [0x0A] := {
    present := by
      rw [topEntries_mixedSite]
      rfl
    entered := by decide
    shown := by decide
    listed := by simp
    notIgnored := by
      intro ignored same
      cases same
      rfl
    notExcluded := rfl
    small := by
      intro cap given
      cases given
      decide
    wanted := .inr ⟨"python", by decide, by simp⟩ }
  obtain ⟨sorted, listed, -, -, discovered⟩ :=
    discover_is_exact mixedSite (.ignoring (isIgnored [])) (fun _ => false) {} tree
  refine ⟨tree, _, (discovered rfl).2 _ unversioned ignores, sorted, ?_⟩
  exact (listed _).2 ⟨["a"], "b.py", [0x0A], by decide, file⟩

end Repository

end RepoAtlas
