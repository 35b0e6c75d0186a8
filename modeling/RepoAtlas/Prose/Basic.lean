/-
Module: RepoAtlas.Prose.Basic
Purpose: Descriptions written for a skeleton by somebody else, and waiting for them.
  The writer is asked once.  It either finishes in time or the whole attempt fails; nothing partial
  is kept.
Main exports: Relationship, Prose, Attempt, Failure, Failure.message, generate
-/
import RepoAtlas.Json.Value
import RepoAtlas.Snapshot.Basic

namespace RepoAtlas

open Number

namespace Prose

/-- A relationship between two entities, by name. -/
structure Relationship where
  source : String
  target : String
  kind : String := "depends"
deriving DecidableEq, Repr, Inhabited

end Prose

/-- What was written about a repository. -/
structure Prose where
  /-- The description of each entity, by name. -/
  descriptions : OrderedMap String String := {}
  relationships : List Prose.Relationship := []
  summary : String := ""
  whenToUse : List String := []
deriving DecidableEq, Inhabited

namespace Prose

/-- What becomes of a request to a writer whose own failures are of type `ε`. -/
inductive Attempt (ε : Type) where
  | written (prose : Prose)
  /-- The writer ran out of time by its own measure. -/
  | gaveUp
  | failed (failure : ε)
  | neverEnds

/-- A number of seconds to wait, none for as long as it takes. -/
abbrev TimeLimit := Option Stamp

/-- Why there is no prose. -/
inductive Failure (ε : Type) where
  | timedOut (limit : TimeLimit)
  | writer (failure : ε)
  /-- Nothing bounds the wait for a writer that never ends. -/
  | stillWaiting
deriving DecidableEq, Repr, Inhabited

/-- Whether a number of seconds is already over when the wait begins. -/
def isOver : Stamp → Bool
  | .integer value => value ≤ 0
  | .real (.finite negative mantissa _) => negative || mantissa = 0
  | .real (.infinite negative) => negative
  | .real .nan => false

/-- A stamp as it is displayed. -/
def stampText : Stamp → String
  | .integer value => Json.integerText value
  | .real value => Json.displayLayout.render value

/-- A time limit as it is displayed. -/
def limitText : TimeLimit → String
  | some stamp => stampText stamp
  | none => "None"

/-- The sentence for an attempt that ran out of time. -/
def timedOutMessage (limit : TimeLimit) : String :=
  "prose generation timed out after " ++ limitText limit ++ "s"

/-- Waits for a writer.  A limit that is over at once is missed even by a writer that would finish
at once. -/
def generate {ε : Type} (limit : TimeLimit) (attempt : Attempt ε) : Except (Failure ε) Prose :=
  if limit.any isOver then .error (.timedOut limit)
  else
    match attempt with
    | .written prose => .ok prose
    | .gaveUp => .error (.timedOut limit)
    | .failed failure => .error (.writer failure)
    | .neverEnds => if limit.isSome then .error (.timedOut limit) else .error .stillWaiting

end Prose

end RepoAtlas
