/-
Module: RepoAtlas.Proofs.DiskEdits
Purpose: What making directories and writing files do to a disk.
  Where a path leads depends only on what stands at each place, the children of directories apart,
  and an edit changes what stands at one place.  So a file that was written is found again under the
  path it was written to, and making directories leaves every file alone.
Main exports: entryAt, faceAt, fileAt?, walk, place_eq_walk, faceAt_alter, locate_writeFile,
  exists_child_of_locate, KeepsFiles, keepsFiles_ensureDirectoryFrom, keepsFiles_writeInto,
  readFile_writeInto
-/
import RepoAtlas.Disk.Edit
import RepoAtlas.Proofs.PathSegments

namespace RepoAtlas.Disk

/-! ### What stands at a place -/

/-- The entry at a path, no link followed. -/
def entryAt (root : Entry) : List String → Option Entry
  | [] => some root
  | segment :: rest =>
    match root with
    | .directory children => (childNamed segment children).bind (fun child => entryAt child rest)
    | _ => none

/-- An entry without what is below it. -/
def Entry.face : Entry → Entry
  | .directory _ => .directory []
  | entry => entry

def faceAt (root : Entry) (path : List String) : Option Entry :=
  (entryAt root path).map Entry.face

/-- The bytes of the file at a path, no link followed. -/
def fileAt? (disk : Disk) (path : List String) : Option (List UInt8) :=
  match faceAt disk.root path with
  | some (.file bytes) => some bytes
  | _ => none

section Places

variable {root : Entry}

theorem entryAt_append (first second : List String) :
    entryAt root (first ++ second) =
      (entryAt root first).bind (fun entry => entryAt entry second) := by
  induction first generalizing root with
  | nil => rfl
  | cons segment rest ih =>
    cases root with
    | directory children =>
      simp only [List.cons_append, entryAt]
      cases childNamed segment children with
      | none => rfl
      | some child => exact ih
    | file bytes => rfl
    | link target => rfl

theorem entryAt_concat_of_directory {path : List String} {children : List (String × Entry)}
    (here : entryAt root path = some (.directory children)) (name : String) :
    entryAt root (path ++ [name]) = childNamed name children := by
  rw [entryAt_append, here]
  cases found : childNamed name children <;> simp [entryAt, found]

/-- Above every entry there is a directory. -/
theorem directory_above {path : List String} {name : String} {entry : Entry}
    (found : entryAt root (path ++ [name]) = some entry) :
    ∃ children, entryAt root path = some (.directory children) := by
  rw [entryAt_append] at found
  obtain ⟨outer, here, below⟩ := Option.bind_eq_some_iff.1 found
  cases outer with
  | directory children => exact ⟨children, here⟩
  | file bytes => simp [entryAt] at below
  | link target => simp [entryAt] at below

theorem faceAt_of_directory {path : List String} {children : List (String × Entry)}
    (here : entryAt root path = some (.directory children)) :
    faceAt root path = some (.directory []) := by
  rw [faceAt, here]
  rfl

theorem directory_of_faceAt {path : List String} {children : List (String × Entry)}
    (here : faceAt root path = some (.directory children)) :
    ∃ children, entryAt root path = some (.directory children) := by
  obtain ⟨entry, found, bare⟩ := Option.map_eq_some_iff.1 here
  cases entry with
  | directory children => exact ⟨children, found⟩
  | file bytes => cases bare
  | link target => cases bare

end Places

/-! ### Where a path leads -/

/-- Follows segments from a place, given what stands at each place. -/
def walk (face : List String → Option Entry) (fuel : Nat) (here : List String)
    (segments : List String) : Except AccessFlaw (List String) :=
  match segments with
  | [] => .ok here
  | segment :: rest =>
    match face here with
    | some (.directory _) =>
      if segment = ".." then walk face fuel here.dropLast rest
      else if nameLimit < segment.utf8ByteSize then .error .nameTooLong
      else
        match face (here ++ [segment]) with
        | none => if rest.isEmpty then .ok (here ++ [segment]) else .error .missing
        | some (.link target) =>
          match fuel with
          | 0 => .error .tooManyLinks
          | fuel + 1 => walk face fuel [] (target ++ rest)
        | some _ => walk face fuel (here ++ [segment]) rest
    | _ => .error .notDirectory
termination_by (fuel, segments.length)

section Steps

variable {face : List String → Option Entry} {fuel : Nat} {here : List String} {segment : String}
  {children : List (String × Entry)}

theorem walk_nil : walk face fuel here [] = .ok here := by
  rw [walk]

theorem walk_of_not_directory (other : ∀ children, face here ≠ some (.directory children))
    (rest : List String) : walk face fuel here (segment :: rest) = .error .notDirectory := by
  rw [walk]
  split
  · next children found => exact absurd found (other children)
  · rfl

theorem walk_ascent (directory : face here = some (.directory children)) (rest : List String) :
    walk face fuel here (".." :: rest) = walk face fuel here.dropLast rest := by
  rw [walk]
  simp [directory]

theorem walk_of_long (directory : face here = some (.directory children))
    (named : segment ≠ "..") (long : nameLimit < segment.utf8ByteSize) (rest : List String) :
    walk face fuel here (segment :: rest) = .error .nameTooLong := by
  rw [walk]
  simp [directory, named, long]

variable (directory : face here = some (.directory children)) (named : segment ≠ "..")
  (short : ¬ nameLimit < segment.utf8ByteSize)

include directory named short

theorem walk_of_absent (absent : face (here ++ [segment]) = none) (rest : List String) :
    walk face fuel here (segment :: rest) =
      if rest.isEmpty then .ok (here ++ [segment]) else .error .missing := by
  rw [walk]
  simp only [directory, named, short, absent, if_false]

theorem walk_link {target : List String} (found : face (here ++ [segment]) = some (.link target))
    (rest : List String) :
    walk face fuel here (segment :: rest) =
      match fuel with
      | 0 => .error .tooManyLinks
      | fuel + 1 => walk face fuel [] (target ++ rest) := by
  rw [walk]
  simp only [directory, named, short, found, if_false]

theorem walk_into {entry : Entry} (found : face (here ++ [segment]) = some entry)
    (solid : ∀ target, entry ≠ .link target) (rest : List String) :
    walk face fuel here (segment :: rest) = walk face fuel (here ++ [segment]) rest := by
  rw [walk]
  simp only [directory, named, short, found, if_false]

end Steps

/-- Whether an entry stands in a tree below the given directories, innermost first. -/
inductive Along (root : Entry) : List (String × Entry) → Entry → Prop where
  | start : Along root [] root
  | into {above : List (String × Entry)} {children : List (String × Entry)} {name : String}
      {entry : Entry} (outer : Along root above (.directory children))
      (found : childNamed name children = some entry) :
      Along root ((name, .directory children) :: above) entry

theorem Along.entryAt {root here : Entry} {above : List (String × Entry)}
    (along : Along root above here) :
    entryAt root (above.map Prod.fst).reverse = some here := by
  induction along with
  | start => rfl
  | into outer found ih =>
    rw [List.map_cons, List.reverse_cons, entryAt_concat_of_directory ih, found]

theorem Along.faceAt_child {root : Entry} {above children : List (String × Entry)}
    (along : Along root above (.directory children)) (name : String) :
    faceAt root ((above.map Prod.fst).reverse ++ [name]) =
      (childNamed name children).map Entry.face := by
  rw [faceAt, entryAt_concat_of_directory along.entryAt]

/-- Following segments from an entry is following them from its place. -/
theorem placeFrom_eq_walk {root : Entry} (fuel : Nat) {above : List (String × Entry)} {here : Entry}
    (along : Along root above here) (segments : List String) :
    placeFrom root fuel above here segments =
      (walk (faceAt root) fuel (above.map Prod.fst).reverse segments).map
        (fun path => ⟨path, entryAt root path⟩) := by
  fun_induction placeFrom root fuel above here segments with
  | case1 fuel above here =>
    rw [walk_nil, Except.map, along.entryAt]
  | case2 fuel rest children ih =>
    rw [ih along, walk_ascent (faceAt_of_directory along.entryAt)]
    rfl
  | case3 fuel rest children name outer further ih =>
    have directory := faceAt_of_directory along.entryAt
    cases along with
    | into above found =>
      rw [ih above, walk_ascent directory]
      simp
  | case4 fuel above segment rest children named long =>
    rw [walk_of_long (faceAt_of_directory along.entryAt) named long]
    rfl
  | case5 fuel above segment rest children named short absent last =>
    have nothing := along.faceAt_child segment
    rw [absent] at nothing
    rw [walk_of_absent (faceAt_of_directory along.entryAt) named short nothing, if_pos last,
      Except.map, entryAt_concat_of_directory along.entryAt, absent]
  | case6 fuel above segment rest children named short absent more =>
    have nothing := along.faceAt_child segment
    rw [absent] at nothing
    rw [walk_of_absent (faceAt_of_directory along.entryAt) named short nothing, if_neg more]
    rfl
  | case7 above segment rest children named short target found =>
    have link := along.faceAt_child segment
    rw [found] at link
    rw [walk_link (faceAt_of_directory along.entryAt) named short link]
    rfl
  | case8 above segment rest children named short target found fuel ih =>
    have link := along.faceAt_child segment
    rw [found] at link
    rw [walk_link (faceAt_of_directory along.entryAt) named short link, ih .start]
    rfl
  | case9 fuel above segment rest children named short entry solid found ih =>
    have child := along.faceAt_child segment
    rw [found] at child
    have notLink : ∀ target, entry.face ≠ .link target := by
      intro target same
      cases entry with
      | link target => exact solid target rfl
      | file bytes => cases same
      | directory children => cases same
    rw [walk_into (faceAt_of_directory along.entryAt) named short child notLink,
      ih (.into along found), List.map_cons, List.reverse_cons]
  | case10 fuel above here segment rest other =>
    rw [walk_of_not_directory]
    · rfl
    · intro children found
      rw [faceAt, along.entryAt] at found
      cases here with
      | directory children => exact other children rfl
      | file bytes => cases found
      | link target => cases found

theorem place_eq_walk (disk : Disk) (path : List String) :
    disk.place path =
      if pathLimit < (pathText path).utf8ByteSize then .error .nameTooLong
      else (walk (faceAt disk.root) linkLimit [] path).map
        (fun real => ⟨real, entryAt disk.root real⟩) := by
  rw [place, placeFrom_eq_walk linkLimit .start]
  rfl

theorem place_eq_ok_iff (disk : Disk) (path real : List String) (there : Option Entry) :
    disk.place path = .ok ⟨real, there⟩ ↔
      (pathText path).utf8ByteSize ≤ pathLimit ∧
        walk (faceAt disk.root) linkLimit [] path = .ok real ∧ entryAt disk.root real = there := by
  rw [place_eq_walk, ← Nat.not_lt]
  split
  · next long => simp [long]
  · next short =>
    cases walk (faceAt disk.root) linkLimit [] path with
    | error flaw => simp [Except.map]
    | ok place =>
      simp only [Except.map, Except.ok.injEq, Place.mk.injEq, short, not_false_eq_true, true_and]
      constructor
      · rintro ⟨rfl, found⟩
        exact ⟨rfl, found⟩
      · rintro ⟨rfl, found⟩
        exact ⟨rfl, found⟩

theorem locate_eq_ok_iff (disk : Disk) (path real : List String) (entry : Entry) :
    disk.locate path = .ok ⟨real, entry⟩ ↔ disk.place path = .ok ⟨real, some entry⟩ := by
  rw [locate]
  rcases disk.place path with flaw | ⟨place, _ | there⟩ <;> simp

/-- The directory above the place where a path leads is there. -/
theorem directory_above_of_walk {root : Entry} {fuel : Nat} {here segments : List String}
    {path : List String} {name : String} (stands : (entryAt root here).isSome = true)
    (leads : walk (faceAt root) fuel here segments = .ok (path ++ [name])) :
    ∃ children, entryAt root path = some (.directory children) := by
  fun_induction walk (faceAt root) fuel here segments with
  | case1 fuel here =>
    cases leads
    obtain ⟨entry, found⟩ := Option.isSome_iff_exists.1 stands
    exact directory_above found
  | case2 fuel here rest children found ih =>
    apply ih _ leads
    rcases List.eq_nil_or_concat' here with rfl | ⟨front, last, rfl⟩
    · exact stands
    · obtain ⟨entry, found⟩ := Option.isSome_iff_exists.1 stands
      obtain ⟨outer, above⟩ := directory_above found
      simp [above]
  | case3 => cases leads
  | case4 fuel here segment rest children found named short absent last =>
    obtain ⟨rfl, -⟩ := List.append_inj' (Except.ok.inj leads) rfl
    exact directory_of_faceAt found
  | case5 => cases leads
  | case6 => cases leads
  | case7 here segment rest children found named short target link fuel ih => exact ih rfl leads
  | case8 fuel here segment rest children found named short entry solid there ih =>
    apply ih _ leads
    rw [faceAt] at there
    cases below : entryAt root (here ++ [segment]) with
    | none => simp [below] at there
    | some child => rfl
  | case9 => cases leads

/-! ### Changing what stands at one place -/

theorem childNamed_putChild (name other : String) (entry : Entry)
    (children : List (String × Entry)) :
    childNamed other (putChild name entry children) =
      if other = name then some entry else childNamed other children := by
  induction children with
  | nil => simp [putChild, childNamed, eq_comm]
  | cons child rest ih =>
    obtain ⟨taken, old⟩ := child
    unfold putChild
    by_cases same : taken = name
    · subst same
      by_cases here : taken = other
      · simp [childNamed, here]
      · simp [childNamed, here, Ne.symm here]
    · rw [if_neg same]
      by_cases here : taken = other
      · subst here
        simp [childNamed, same]
      · simp [childNamed, here, ih]

theorem entryAt_of_bare {entry : Entry} (bare : entry.face = entry) (segment : String)
    (rest : List String) : entryAt entry (segment :: rest) = none := by
  cases entry with
  | directory children =>
    cases bare
    rfl
  | file bytes => rfl
  | link target => rfl

theorem faceAt_directory_cons (children : List (String × Entry)) (segment : String)
    (rest : List String) :
    faceAt (.directory children) (segment :: rest) =
      (childNamed segment children).bind (fun child => faceAt child rest) := by
  simp only [faceAt, entryAt]
  cases childNamed segment children <;> rfl

theorem faceAt_of_bare {entry : Entry} (bare : entry.face = entry) (path : List String) :
    faceAt entry path = if path = [] then some entry else none := by
  cases path with
  | nil => simp [faceAt, entryAt, bare]
  | cons segment rest => simp [faceAt, entryAt_of_bare bare]

/-- Putting something at a place without anything below it changes that place alone. -/
theorem faceAt_alterAt {root : Entry} {path : List String} {children : List (String × Entry)}
    (above : entryAt root path = some (.directory children)) {name : String}
    (old : ∀ entry, childNamed name children = some entry → entry.face = entry) {new : Entry}
    (bare : new.face = new) :
    ∃ changed, alterAt (fun _ => some new) (path ++ [name]) (some root) = some changed ∧
      ∀ other, faceAt changed other =
        if other = path ++ [name] then some new else faceAt root other := by
  induction path generalizing root with
  | nil =>
    cases above
    refine ⟨_, rfl, ?_⟩
    intro other
    cases other with
    | nil => rfl
    | cons segment rest =>
      simp only [Entry.children, Option.map_some, Option.getD_some, faceAt_directory_cons,
        childNamed_putChild, List.nil_append, List.cons.injEq]
      by_cases same : segment = name
      · subst same
        simp only [if_true, Option.bind_some, faceAt_of_bare bare, true_and]
        by_cases last : rest = []
        · simp [last]
        · simp only [last, if_false]
          cases found : childNamed segment children with
          | none => rfl
          | some entry => simp [faceAt_of_bare (old entry found), last]
      · simp [same]
  | cons first path ih =>
    cases root with
    | directory outer =>
      rw [entryAt] at above
      obtain ⟨child, found, below⟩ := Option.bind_eq_some_iff.1 above
      obtain ⟨changed, altered, faces⟩ := ih below
      refine ⟨.directory (putChild first changed outer), ?_, ?_⟩
      · simp [alterAt, Entry.children, found, altered]
      · intro other
        cases other with
        | nil => rfl
        | cons segment rest =>
          simp only [faceAt_directory_cons, childNamed_putChild, List.cons_append, List.cons.injEq]
          by_cases same : segment = first
          · subst same
            simp [found, faces]
          · simp [same]
    | file bytes => cases above
    | link target => cases above

/-- A walk leads where it led before something was put at a free place, or over a file. -/
theorem walk_of_put {face changed : List String → Option Entry} {place : List String}
    {new : Entry} (solid : ∀ target, new ≠ .link target)
    (free : ∀ entry, face place = some entry → ∃ bytes, entry = .file bytes)
    (put : ∀ other, changed other = if other = place then some new else face other)
    {fuel : Nat} {here segments real : List String}
    (leads : walk face fuel here segments = .ok real) :
    walk changed fuel here segments = .ok real := by
  have kept {other : List String} {entry : Entry} (found : face other = some entry)
      (held : ∀ bytes, entry ≠ .file bytes) : changed other = some entry := by
    rw [put, if_neg, found]
    rintro rfl
    obtain ⟨bytes, file⟩ := free entry found
    exact held bytes file
  fun_induction walk face fuel here segments with
  | case1 fuel here =>
    rw [walk_nil]
    exact leads
  | case2 fuel here rest children found ih =>
    rw [walk_ascent (kept found (by simp))]
    exact ih leads
  | case3 => cases leads
  | case4 fuel here segment rest children found named short absent last =>
    obtain rfl := List.isEmpty_iff.1 last
    by_cases same : here ++ [segment] = place
    · have there : changed (here ++ [segment]) = some new := by rw [put, if_pos same]
      rw [walk_into (kept found (by simp)) named short there solid, walk_nil]
      exact leads
    · have there : changed (here ++ [segment]) = none := by rw [put, if_neg same, absent]
      rw [walk_of_absent (kept found (by simp)) named short there]
      exact leads
  | case5 => cases leads
  | case6 => cases leads
  | case7 here segment rest children found named short target link fuel ih =>
    rw [walk_link (kept found (by simp)) named short (kept link (by simp))]
    exact ih leads
  | case8 fuel here segment rest children found named short entry unlinked there ih =>
    have directory := kept found (by simp)
    have after : ∃ entry, changed (here ++ [segment]) = some entry ∧
        ∀ target, entry ≠ .link target := by
      rw [put]
      split
      · exact ⟨new, rfl, solid⟩
      · exact ⟨entry, there, unlinked⟩
    obtain ⟨entry, standing, unlinked⟩ := after
    rw [walk_into directory named short standing unlinked]
    exact ih leads
  | case9 => cases leads

/-- What stands where after something without children is put at a place that has none. -/
theorem faceAt_alter {disk : Disk} {real : List String} {new : Entry} (bare : new.face = new)
    (old : ∀ entry, entryAt disk.root real = some entry → entry.face = entry)
    (above : ∀ path name, real = path ++ [name] →
      ∃ children, entryAt disk.root path = some (.directory children)) (other : List String) :
    faceAt (disk.alter real (fun _ => some new)).root other =
      if other = real then some new else faceAt disk.root other := by
  rcases List.eq_nil_or_concat' real with rfl | ⟨path, name, rfl⟩
  · have root := faceAt_of_bare (old disk.root rfl) other
    change faceAt new other = _
    rw [faceAt_of_bare bare, root]
    split <;> rfl
  · obtain ⟨children, directory⟩ := above path name rfl
    have child := entryAt_concat_of_directory directory name
    rw [child] at old
    obtain ⟨changed, altered, faces⟩ := faceAt_alterAt directory old bare
    rw [alter, altered]
    exact faces other

/-! ### Writing a file -/

theorem entryAt_of_faceAt {root : Entry} {path : List String} {bytes : List UInt8}
    (found : faceAt root path = some (.file bytes)) : entryAt root path = some (.file bytes) := by
  obtain ⟨entry, there, bare⟩ := Option.map_eq_some_iff.1 found
  cases entry with
  | file old =>
    cases bare
    exact there
  | directory children => cases bare
  | link target => cases bare

theorem locate_alter {disk : Disk} {path real : List String} {there : Option Entry}
    (placed : disk.place path = .ok ⟨real, there⟩)
    (free : ∀ entry, there = some entry → ∃ old, entry = .file old) (bytes : List UInt8) :
    (disk.alter real (fun _ => some (.file bytes))).locate path = .ok ⟨real, .file bytes⟩ := by
  obtain ⟨short, leads, rfl⟩ := (place_eq_ok_iff disk path real there).1 placed
  have bare : ∀ entry, entryAt disk.root real = some entry → entry.face = entry := by
    intro entry found
    obtain ⟨old, rfl⟩ := free entry found
    rfl
  have above : ∀ path name, real = path ++ [name] →
      ∃ children, entryAt disk.root path = some (.directory children) :=
    fun path name same => directory_above_of_walk rfl (same ▸ leads)
  have faces := faceAt_alter (show (Entry.file bytes).face = .file bytes from rfl) bare above
  have file : ∀ entry, faceAt disk.root real = some entry → ∃ bytes, entry = .file bytes := by
    intro entry found
    obtain ⟨old, standing, rfl⟩ := Option.map_eq_some_iff.1 found
    obtain ⟨bytes, rfl⟩ := free old standing
    exact ⟨bytes, rfl⟩
  rw [locate_eq_ok_iff, place_eq_ok_iff]
  refine ⟨short, walk_of_put (by simp) file faces leads, ?_⟩
  apply entryAt_of_faceAt
  rw [faces, if_pos rfl]

/-- A file that was written is found under the path it was written to. -/
theorem locate_writeFile {disk : Disk} {path : List String} {bytes : List UInt8}
    (written : (disk.writeFile path bytes).failure = none) :
    ∃ real, (disk.writeFile path bytes).disk.locate path = .ok ⟨real, .file bytes⟩ := by
  unfold writeFile at written ⊢
  split at written
  · cases written
  · next real placed => exact ⟨real, locate_alter placed (by simp) bytes⟩
  · next real old placed => exact ⟨real, locate_alter placed (by simp) bytes⟩
  · cases written

/-! ### Beginnings of a path -/

/-- A walk goes through every beginning of its path. -/
theorem walk_append {face : List String → Option Entry} {fuel : Nat} {here segments : List String}
    {more real : List String} (further : more ≠ [])
    (leads : walk face fuel here (segments ++ more) = .ok real) :
    ∃ between left, walk face fuel here segments = .ok between ∧
      walk face left between more = .ok real := by
  fun_induction walk face fuel here segments with
  | case1 fuel here => exact ⟨here, fuel, rfl, leads⟩
  | case2 fuel here rest children found ih =>
    rw [List.cons_append, walk_ascent found] at leads
    exact ih leads
  | case3 fuel here segment rest children found named long =>
    rw [List.cons_append, walk_of_long found named long] at leads
    cases leads
  | case4 fuel here segment rest children found named short absent last =>
    rw [List.cons_append, walk_of_absent found named short absent,
      if_neg (by simp [further])] at leads
    cases leads
  | case5 fuel here segment rest children found named short absent more =>
    rw [List.cons_append, walk_of_absent found named short absent,
      if_neg (by simp [further])] at leads
    cases leads
  | case6 here segment rest children found named short target link =>
    rw [List.cons_append, walk_link found named short link] at leads
    cases leads
  | case7 here segment rest children found named short target link fuel ih =>
    rw [List.cons_append, walk_link found named short link, ← List.append_assoc] at leads
    exact ih leads
  | case8 fuel here segment rest children found named short entry solid there ih =>
    rw [List.cons_append, walk_into found named short there solid] at leads
    exact ih leads
  | case9 fuel here segment rest other =>
    rw [List.cons_append, walk_of_not_directory other] at leads
    cases leads

theorem pathText_append (path : List String) (name : String) :
    ∃ more, pathText (path ++ [name]) = pathText path ++ more := by
  by_cases root : path = []
  · subst root
    exact ⟨name, by simp [pathText]⟩
  · refine ⟨"/" ++ name, ?_⟩
    have filled : path.map String.toList ≠ [] := by simpa using root
    have parts := intercalate_append_of_ne_nil ['/'] filled (List.cons_ne_nil name.toList [])
    rw [← String.toList_inj]
    simp [pathText, String.toList_intercalate, parts]

/-- What is found under a name stands in the directory that is found without it. -/
theorem exists_child_of_locate {disk : Disk} {path : List String} {name : String}
    (named : name ≠ "..") {real : List String} {entry : Entry}
    (located : disk.locate (path ++ [name]) = .ok ⟨real, entry⟩) :
    ∃ directory children, disk.locate path = .ok ⟨directory, .directory children⟩ ∧
      (childNamed name children).isSome = true := by
  obtain ⟨short, leads, found⟩ := (place_eq_ok_iff _ _ _ _).1 ((locate_eq_ok_iff _ _ _ _).1 located)
  obtain ⟨between, left, first, last⟩ := walk_append (by simp) leads
  have directory : ∃ children, entryAt disk.root between = some (.directory children) := by
    by_contra other
    rw [walk_of_not_directory] at last
    · cases last
    · intro children face
      exact other (directory_of_faceAt face)
  obtain ⟨children, stands⟩ := directory
  refine ⟨between, children, ?_, ?_⟩
  · obtain ⟨more, text⟩ := pathText_append path name
    rw [text, String.utf8ByteSize_append] at short
    rw [locate_eq_ok_iff, place_eq_ok_iff]
    exact ⟨by omega, first, stands⟩
  · rw [Option.isSome_iff_ne_none]
    intro absent
    have nothing : faceAt disk.root (between ++ [name]) = none := by
      rw [faceAt, entryAt_concat_of_directory stands, absent]
      rfl
    by_cases long : nameLimit < name.utf8ByteSize
    · rw [walk_of_long (faceAt_of_directory stands) named long] at last
      cases last
    · rw [walk_of_absent (faceAt_of_directory stands) named long nothing] at last
      cases last
      rw [entryAt_concat_of_directory stands, absent] at found
      cases found

/-! ### Making directories -/

/-- Whether a disk has the files of another, neither more nor less, and denies the same paths. -/
structure KeepsFiles (before after : Disk) : Prop where
  files : ∀ path, after.fileAt? path = before.fileAt? path
  denied : after.denied = before.denied

theorem KeepsFiles.refl (disk : Disk) : KeepsFiles disk disk := ⟨fun _ => rfl, rfl⟩

theorem KeepsFiles.trans {first second third : Disk} (before : KeepsFiles first second)
    (after : KeepsFiles second third) : KeepsFiles first third :=
  ⟨fun path => (after.files path).trans (before.files path), after.denied.trans before.denied⟩

theorem keepsFiles_alter {disk : Disk} {path : List String} {children : List (String × Entry)}
    (above : entryAt disk.root path = some (.directory children)) {name : String}
    (fresh : childNamed name children = none) :
    KeepsFiles disk (disk.alter (path ++ [name]) (fun _ => some (.directory []))) := by
  have nothing : entryAt disk.root (path ++ [name]) = none := by
    rw [entryAt_concat_of_directory above, fresh]
  have host : ∀ outer last, path ++ [name] = outer ++ [last] →
      ∃ children, entryAt disk.root outer = some (.directory children) := by
    intro outer last same
    obtain ⟨rfl, -⟩ := List.append_inj' same rfl
    exact ⟨children, above⟩
  refine ⟨?_, rfl⟩
  intro other
  rw [fileAt?, fileAt?, faceAt_alter rfl (by simp [nothing]) host]
  by_cases same : other = path ++ [name]
  · simp [same, faceAt, nothing]
  · rw [if_neg same]

theorem keepsFiles_createDirectory {disk made : Disk} {path : List String}
    (created : disk.createDirectory path = .ok made) : KeepsFiles disk made := by
  unfold createDirectory at created
  split at created
  · cases created
  · next name _ =>
    split at created
    · cases created
    · next real children located =>
      obtain ⟨-, -, stands⟩ :=
        (place_eq_ok_iff _ _ _ _).1 ((locate_eq_ok_iff _ _ _ _).1 located)
      simp only [Bool.or_eq_true, Option.isSome_iff_ne_none] at created
      split at created
      · cases created
      · next free =>
        split at created
        · cases created
        · cases created
          apply keepsFiles_alter stands
          by_contra taken
          exact free (.inr taken)
    · cases created

theorem keepsFiles_settledAt (disk : Disk) (path : List String) :
    KeepsFiles disk (disk.settledAt path (disk.createDirectory path)).disk := by
  rcases created : disk.createDirectory path with flaw | made
  · simp only [settledAt]
    split <;> exact .refl disk
  · exact keepsFiles_createDirectory created

/-- Making directories leaves every file alone. -/
theorem keepsFiles_ensureDirectoryFrom (disk : Disk) (reversed : List String) :
    KeepsFiles disk (disk.ensureDirectoryFrom reversed).disk := by
  induction reversed with
  | nil => exact .refl disk
  | cons last above ih =>
    rw [ensureDirectoryFrom]
    split
    · unfold Outcome.andThen
      split
      · exact ih
      · exact ih.trans (keepsFiles_settledAt _ _)
    · exact keepsFiles_settledAt disk _

/-! ### Writing a file into a directory that may have to be made -/

section Written

variable {disk : Disk} {path : List String} {bytes : List UInt8}

theorem writeInto_of_failure {failure : Failure}
    (failed : (disk.ensureDirectory path.dropLast).failure = some failure) :
    disk.writeInto path bytes = disk.ensureDirectory path.dropLast := by
  rw [writeInto, Outcome.andThen, failed]

theorem writeInto_of_ready (ready : (disk.ensureDirectory path.dropLast).failure = none) :
    disk.writeInto path bytes =
      (disk.ensureDirectory path.dropLast).disk.writeFile path bytes := by
  rw [writeInto, Outcome.andThen, ready]

theorem disk_writeFile_of_failure (stopped : (disk.writeFile path bytes).failure ≠ none) :
    (disk.writeFile path bytes).disk = disk := by
  unfold writeFile at stopped ⊢
  split
  · rfl
  · next placed => simp [placed] at stopped
  · next placed => simp [placed] at stopped
  · rfl

/-- A file that cannot be written leaves every file alone, whatever directories were made for it. -/
theorem keepsFiles_writeInto (stopped : (disk.writeInto path bytes).failure ≠ none) :
    KeepsFiles disk (disk.writeInto path bytes).disk := by
  have made := keepsFiles_ensureDirectoryFrom disk path.dropLast.reverse
  cases first : (disk.ensureDirectory path.dropLast).failure with
  | some failure =>
    rw [writeInto_of_failure first]
    exact made
  | none =>
    rw [writeInto_of_ready first] at stopped ⊢
    rw [disk_writeFile_of_failure stopped]
    exact made

theorem denied_writeFile : (disk.writeFile path bytes).disk.denied = disk.denied := by
  unfold writeFile
  split <;> rfl

/-- A file that was written is read again, unless reading it is denied. -/
theorem readFile_writeInto (written : (disk.writeInto path bytes).failure = none)
    (allowed : disk.denied.contains (pathText path) = false) :
    (disk.writeInto path bytes).disk.readFile path = .ok bytes := by
  have made := keepsFiles_ensureDirectoryFrom disk path.dropLast.reverse
  cases first : (disk.ensureDirectory path.dropLast).failure with
  | some failure =>
    rw [writeInto_of_failure first, first] at written
    cases written
  | none =>
    rw [writeInto_of_ready first] at written ⊢
    obtain ⟨real, located⟩ := locate_writeFile written
    have unchanged : ((disk.ensureDirectory path.dropLast).disk.writeFile path bytes).disk.denied =
        disk.denied := denied_writeFile.trans made.denied
    simp only [readFile, readFileAs, unchanged, allowed, located, Bool.false_eq_true, if_false]

end Written

end RepoAtlas.Disk
