/-
Module: RepoAtlas.Disk.Resolve
Purpose: The path that is left of a path when its links are replaced by what they lead to.
  Nothing has to stand at the path: a segment that is not there is kept, and an ascent takes back the
  segment before it.  A link that leads back to itself ends the replacement; what is left then is put
  in order by its text alone.
Main exports: linkAt?, linkCount, resolveFrom, resolve
-/
import RepoAtlas.Disk.Basic

namespace RepoAtlas.Disk

/-- What the link at a path leads to.  No link is followed on the way. -/
def linkAt? (entry : Entry) : List String → Option (List String)
  | [] =>
    match entry with
    | .link target => some target
    | _ => none
  | segment :: rest =>
    match entry with
    | .directory children =>
      match childNamed segment children with
      | some child => linkAt? child rest
      | none => none
    | _ => none

mutual

/-- The number of links at or below an entry. -/
def linkCount : Entry → Nat
  | .file _ => 0
  | .link _ => 1
  | .directory children => linkCountAmong children

/-- The number of links at or below the children of a directory. -/
def linkCountAmong : List (String × Entry) → Nat
  | [] => 0
  | (_, entry) :: rest => linkCount entry + linkCountAmong rest

end

/-- A path whose links have been replaced, all of them or up to one that leads back to itself. -/
inductive Resolution where
  | complete (path : List String)
  | circular (path : List String)
deriving DecidableEq, Repr, Inhabited

/-- Takes segments after `here`, a path without links.  `active` holds the links that are being
replaced, and `fuel` bounds their number. -/
def resolveFrom (root : Entry) (fuel : Nat) (active : List (List String)) (here : List String)
    (segments : List String) : Resolution :=
  match segments with
  | [] => .complete here
  | segment :: rest =>
    if segment = ".." then resolveFrom root fuel active here.dropLast rest
    else
      let next := here ++ [segment]
      match linkAt? root next with
      | none => resolveFrom root fuel active next rest
      | some target =>
        if active.contains next then .circular (next ++ rest)
        else
          match fuel with
          | 0 => .circular (next ++ rest)
          | fuel + 1 =>
            match resolveFrom root fuel (next :: active) [] target with
            | .circular path => .circular (path ++ rest)
            | .complete path => resolveFrom root (fuel + 1) active path rest
termination_by (fuel, segments.length)

/-- A path without ascents: each takes back the segment before it. -/
def withoutAscents (path : List String) : List String :=
  path.foldl (fun kept segment => if segment = ".." then kept.dropLast else kept ++ [segment]) []

/-- The path that an absolute path becomes when its links are replaced. -/
def resolve (disk : Disk) (path : List String) : List String :=
  match resolveFrom disk.root (linkCount disk.root) [] [] path with
  | .complete path => path
  | .circular path => withoutAscents path

end RepoAtlas.Disk
