/-
Module: RepoAtlas.Json.Value
Purpose: The values a JSON document can hold, and their display as plain text.
  Integers are kept apart from doubles, because a record's fields treat them differently.  Texts may
  hold lone surrogates.  The members of an object stand in order of first appearance.
Main exports: Value, Value.member?, displayLayout, Value.display
-/
import RepoAtlas.Number.Decimal
import RepoAtlas.Text.Quoted

namespace RepoAtlas.Json

open Number Text.Utf8

/-- A JSON value.  The reader gives objects whose keys are distinct. -/
inductive Value where
  | null
  | boolean (value : Bool)
  | integer (value : Int)
  | real (value : Binary64)
  | string (value : Points)
  | array (items : List Value)
  | object (members : List (Points × Value))
deriving Inhabited

/-- The value of an object's member. -/
def Value.member? (members : List (Points × Value)) (key : String) : Option Value :=
  (members.find? (fun member => member.1 = points key)).map Prod.snd

/-- Doubles are displayed positionally from `10 ^ -4` up to, but not including, `10 ^ 16`. -/
def displayLayout : RealLayout where
  positionalFrom := -4
  positionalBelow := 16
  exponentDigits := 2
  nan := "nan"
  infinity := "inf"
  negativeInfinity := "-inf"

/-- The decimal text of an integer. -/
def integerText (value : Int) : String :=
  String.ofList ((if value < 0 then ['-'] else []) ++ digits value.natAbs)

mutual

/-- A value as it stands inside another: texts are quoted. -/
def Value.displayInner : Value → String
  | .null => "None"
  | .boolean true => "True"
  | .boolean false => "False"
  | .integer value => integerText value
  | .real value => displayLayout.render value
  | .string value => Text.quoted value
  | .array items => "[" ++ String.intercalate ", " (displayItems items) ++ "]"
  | .object members => "\x7b" ++ String.intercalate ", " (displayMembers members) ++ "\x7d"

/-- The items of an array, each displayed. -/
def displayItems : List Value → List String
  | [] => []
  | item :: rest => item.displayInner :: displayItems rest

/-- The members of an object, each displayed as key and value. -/
def displayMembers : List (Points × Value) → List String
  | [] => []
  | (key, value) :: rest =>
    (Text.quoted key ++ ": " ++ value.displayInner) :: displayMembers rest

end

/-- A value as plain text: a text is itself, everything else is displayed. -/
def Value.display : Value → Points
  | .string value => value
  | value => value.displayInner

end RepoAtlas.Json
