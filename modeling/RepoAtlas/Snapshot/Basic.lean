/-
Module: RepoAtlas.Snapshot.Basic
Purpose: What is remembered of a repository between two runs: for each file the fingerprint of its
  content, when it was analysed and how many definitions it had.  A snapshot that was read may hold
  lone surrogates in its texts, so paths, fingerprints and commits are code points here.
Main exports: Stamp, FileState, Snapshot, underPoints, Snapshot.take, Snapshot.isCompatible,
  Snapshot.totalSymbols
-/
import RepoAtlas.Content
import RepoAtlas.Number.Binary64
import RepoAtlas.Outline

namespace RepoAtlas

open Number Text.Utf8

/-- A moment in seconds, kept in the spelling in which it was given. -/
inductive Stamp where
  | integer (value : Int)
  | real (value : Binary64)
deriving DecidableEq, Repr, Inhabited

/-- Whether two stamps are the same moment.  A stamp that is no number equals only such a one. -/
def Stamp.agrees : Stamp → Stamp → Bool
  | .integer first, .integer second => first = second
  | .integer first, .real (.finite sign mantissa exponent)
  | .real (.finite sign mantissa exponent), .integer first =>
    (first : Rat) = (Binary64.finite sign mantissa exponent).toRat
  | .real (.finite sign mantissa exponent), .real (.finite sign' mantissa' exponent') =>
    (Binary64.finite sign mantissa exponent).toRat =
      (Binary64.finite sign' mantissa' exponent').toRat
  | .real first, .real second => first = second
  | _, _ => false

/-- What is remembered of one file. -/
structure FileState where
  /-- The fingerprint of the content. -/
  hash : Points
  lastAnalyzed : Stamp
  symbolCount : Int
deriving DecidableEq, Repr, Inhabited

/-- What is remembered of a repository.  Files stand in discovery order. -/
structure Snapshot where
  version : Int
  commit : Points
  files : OrderedMap Points FileState
deriving DecidableEq, Inhabited

/-- The same entries under the code points of their keys. -/
def underPoints {α : Type} (map : OrderedMap String α) : OrderedMap Points α :=
  map.renameKeys points points_injective

namespace Snapshot

/-- The version of the snapshots that this library takes. -/
def currentVersion : Int := 1

/-- Whether a snapshot may be compared with the present contents. -/
def isCompatible (snapshot : Snapshot) : Bool :=
  snapshot.version = currentVersion

/-- The number of definitions of a file, none if it could not be parsed. -/
def symbolCountAt (files : OrderedMap Points (Option Outline)) (path : Points) : Nat :=
  (((files.get? path).join).map Outline.symbolCount).getD 0

/-- What is to be remembered of one file. -/
def fileState (files : OrderedMap Points (Option Outline)) (stamp : Stamp) (path : Points)
    (content : Content) : Except Unencodable FileState :=
  content.fingerprint.map (fun hash : String => ⟨hash, stamp, symbolCountAt files path⟩)

/-- The snapshot of the present contents.  It fails at the first content that has no bytes. -/
def take (files : OrderedMap Points (Option Outline)) (contents : OrderedMap Points Content)
    (commit : Points) (stamp : Stamp) : Except Unencodable Snapshot :=
  (contents.traverse (fileState files stamp)).map (fun states => ⟨currentVersion, commit, states⟩)

/-- The number of definitions of all files together. -/
def totalSymbols (snapshot : Snapshot) : Int :=
  (snapshot.files.values.map FileState.symbolCount).foldl (· + ·) 0

/-- Whether two states of a file agree. -/
def agreesOn (first second : FileState) : Bool :=
  first.hash = second.hash && first.lastAnalyzed.agrees second.lastAnalyzed &&
    first.symbolCount = second.symbolCount

/-- Whether two snapshots agree, whatever the order of their files. -/
def agrees (first second : Snapshot) : Bool :=
  first.version = second.version && first.commit = second.commit &&
    first.files.size = second.files.size &&
    first.files.entries.all (fun (path, state) =>
      (second.files.get? path).any (agreesOn state))

end Snapshot

end RepoAtlas
