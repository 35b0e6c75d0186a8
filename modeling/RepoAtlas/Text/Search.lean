/-
Module: RepoAtlas.Text.Search
Purpose: Where a text occurs in another, splitting at a character, and slices counted from either
  end.
Main exports: startsWith, endsWith, occursIn, split, splitText, takeBound
-/

namespace RepoAtlas.Text

/-- Whether a text begins with another. -/
def startsWith (whole part : String) : Bool :=
  part.toList.isPrefixOf whole.toList

/-- Whether a text ends with another. -/
def endsWith (whole part : String) : Bool :=
  part.toList.isSuffixOf whole.toList

/-- Whether `part` occurs somewhere in a list of characters. -/
def occursInList (part : List Char) : List Char → Bool
  | [] => part.isEmpty
  | char :: rest => part.isPrefixOf (char :: rest) || occursInList part rest

/-- Whether `part` occurs somewhere in a text. -/
def occursIn (part whole : String) : Bool :=
  occursInList part.toList whole.toList

/-- The parts between the separators, empty parts included.  There is always at least one part. -/
def split (separator : Char) : List Char → List (List Char)
  | [] => [[]]
  | char :: rest =>
    if char = separator then [] :: split separator rest
    else
      match split separator rest with
      | [] => [[char]]
      | first :: others => (char :: first) :: others

/-- `split` on strings. -/
def splitText (separator : Char) (text : String) : List String :=
  (split separator text.toList).map String.ofList

/-- What stands before the first separator, or everything. -/
def before (separator : Char) (text : String) : String :=
  String.ofList (text.toList.takeWhile (· ≠ separator))

/-- The first `bound` items, or, for a negative bound, all but the last `-bound` of them. -/
def takeBound {α : Type} (bound : Int) (items : List α) : List α :=
  if 0 ≤ bound then items.take bound.toNat else items.take (items.length - (-bound).toNat)

end RepoAtlas.Text
