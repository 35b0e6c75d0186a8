/-
Module: RepoAtlas.Ignore.Glob
Purpose: One segment of an ignore pattern as a sequence of character tests.
  A star stands for any run without slash and a question mark for one character other than a slash.
  Brackets give a set of characters, which may hold ranges and may be negated; a bracket that is never
  closed stands for itself, and a backslash takes the meaning from the next character.
Main exports: Member, CharSet, CharSet.contains, Piece, readMembers, readSet, readGlob
-/

namespace RepoAtlas.Ignore

/-- What brackets list. -/
inductive Member where
  | single (char : Char)
  /-- All characters from one to another, both included; none if they stand the wrong way round. -/
  | range (low high : Char)
deriving DecidableEq, Repr, Inhabited

namespace Member

/-- Whether a member admits a character. -/
def contains (member : Member) (char : Char) : Bool :=
  match member with
  | .single only => char = only
  | .range low high => low ≤ char && char ≤ high

/-- Whether a member is a range that ends before it begins. -/
def isBackward : Member → Bool
  | .single _ => false
  | .range low high => high < low

end Member

/-- A set of characters. -/
inductive CharSet where
  | only (char : Char)
  | notSlash
  | notLineFeed
  /-- The characters that some listed member admits, or that none does. -/
  | listed (negated : Bool) (members : List Member)
deriving DecidableEq, Repr, Inhabited

/-- Whether a character belongs to a set. -/
def CharSet.contains (set : CharSet) (char : Char) : Bool :=
  match set with
  | .only member => char = member
  | .notSlash => char ≠ '/'
  | .notLineFeed => char ≠ '\n'
  | .listed negated members => members.any (·.contains char) != negated

/-- A part of a pattern. -/
inductive Piece where
  /-- One character of a set. -/
  | one (set : CharSet)
  /-- Any number of characters of a set. -/
  | many (set : CharSet)
  /-- At least one character other than a slash. -/
  | wholeName
  /-- Nothing, or some characters and a slash. -/
  | leadingDirectories
  /-- Nothing, or a slash and some characters. -/
  | innerDirectories
  /-- A slash or the end. -/
  | boundary
  /-- The end, perhaps after a slash. -/
  | finish
deriving DecidableEq, Repr, Inhabited

/-- The members that the inside of brackets lists.  A dash between two characters makes a range and
is itself a member anywhere else. -/
def readMembers : List Char → List Member
  | [] => []
  | low :: '-' :: high :: rest => .range low high :: readMembers rest
  | char :: rest => .single char :: readMembers rest

/-- The inside of brackets and what follows them.  A closing bracket right at the start is a member. -/
def splitBrackets (chars : List Char) : Option (List Char × List Char) :=
  let (first, rest) :=
    match chars with
    | ']' :: rest => ([']'], rest)
    | _ => ([], chars)
  match rest.dropWhile (· ≠ ']') with
  | [] => none
  | _ :: tail => some (first ++ rest.takeWhile (· ≠ ']'), tail)

/-- What an opening bracket begins: a set and what follows it, or nothing if the brackets are never
closed. -/
def readSet (chars : List Char) : Option (CharSet × List Char) :=
  let (negated, inside) :=
    match chars with
    | '!' :: rest => (true, rest)
    | '^' :: rest => (true, rest)
    | _ => (false, chars)
  (splitBrackets inside).map (fun (members, rest) => (.listed negated (readMembers members), rest))

theorem length_of_splitBrackets {chars inside rest : List Char}
    (split : splitBrackets chars = some (inside, rest)) : rest.length ≤ chars.length := by
  unfold splitBrackets at split
  split at split
  next first tail matched =>
  have inner : tail.length ≤ chars.length := by
    split at matched <;> cases matched <;> simp
  split at split
  · cases split
  · next head after found =>
    cases split
    have shorter := (List.dropWhile_sublist (fun char => decide (char ≠ ']')) (l := tail)).length_le
    rw [found] at shorter
    simp only [List.length_cons] at shorter
    omega

theorem length_of_readSet {chars rest : List Char} {set : CharSet}
    (read : readSet chars = some (set, rest)) : rest.length ≤ chars.length := by
  unfold readSet at read
  split at read
  next negated inside matched =>
  have inner : inside.length ≤ chars.length := by
    split at matched <;> cases matched <;> simp
  obtain ⟨⟨members, tail⟩, found, same⟩ := Option.map_eq_some_iff.1 read
  have shorter := length_of_splitBrackets found
  cases same
  omega

/-- The pieces of a segment.  A backslash at the end is refused. -/
def readGlob : List Char → Option (List Piece)
  | [] => some []
  | '\\' :: [] => none
  | '\\' :: char :: rest => (readGlob rest).map (.one (.only char) :: ·)
  | '*' :: rest => (readGlob rest).map (.many .notSlash :: ·)
  | '?' :: rest => (readGlob rest).map (.one .notSlash :: ·)
  | '[' :: rest =>
    match read : readSet rest with
    | none => (readGlob rest).map (.one (.only '[') :: ·)
    | some (set, tail) =>
      have := length_of_readSet read
      (readGlob tail).map (.one set :: ·)
  | char :: rest => (readGlob rest).map (.one (.only char) :: ·)
termination_by chars => chars.length
decreasing_by all_goals simp only [List.length_cons]; omega

end RepoAtlas.Ignore
