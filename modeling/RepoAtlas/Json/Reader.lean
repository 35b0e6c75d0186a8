/-
Module: RepoAtlas.Json.Reader
Purpose: Reading a JSON document.
  The reader is a machine that steps once for each token.  Its state is the stack of arrays and
  objects still open and what may come next; the document is complete when nothing is open and a
  value stands finished.  A repeated key keeps its first position and takes its last value.  Arrays
  and objects may stand inside each other only as deep as the reader is allowed to follow them.
Main exports: Frame, Expecting, State, Container, ReadError, step, read
-/
import RepoAtlas.Json.Token
import RepoAtlas.OrderedMap

namespace RepoAtlas.Json

open Text.Utf8

/-- An array or object that is still open. -/
inductive Frame where
  /-- An array with its finished items, latest first. -/
  | items (done : List Value)
  /-- An object with its finished members and the key whose value is being read. -/
  | members (done : OrderedMap Points Value) (key : Points)

/-- What may come next. -/
inductive Expecting where
  | value
  /-- The first item of an array, or its end. -/
  | firstItem
  /-- The first key of an object, or its end. -/
  | firstKey
  /-- A further key of an object with the members so far. -/
  | nextKey (done : OrderedMap Points Value)
  | colon (done : OrderedMap Points Value) (key : Points)
  /-- A separator or an end, after a finished value. -/
  | separator (finished : Value)

/-- The open arrays and objects, innermost first, and what may come next. -/
structure State where
  frames : List Frame
  expecting : Expecting

/-- What values may stand inside of. -/
inductive Container where
  | array
  | object
deriving DecidableEq, Repr, Inhabited

/-- The name of a kind of container. -/
def Container.word : Container → String
  | .array => "array"
  | .object => "object"

/-- Why a text is not a document: it breaks the grammar, an integer has too many digits, or too many
arrays and objects stand inside each other. -/
inductive ReadError where
  | malformed
  | integerTooLong (digitCount : Nat)
  | tooDeep (innermost : Container)
deriving DecidableEq, Repr, Inhabited

/-- The state after a container is opened inside of others, if there are fewer of them than
`limit`. -/
def opened (limit : Nat) (frames : List Frame) (container : Container) (state : State) :
    Except ReadError State :=
  if limit ≤ frames.length then .error (.tooDeep container) else .ok state

/-- Takes a token where a value is expected. -/
def stepValue (limit : Nat) (frames : List Frame) : Token → Except ReadError State
  | .openArray => opened limit frames .array ⟨.items [] :: frames, .firstItem⟩
  | .openObject => opened limit frames .object ⟨frames, .firstKey⟩
  | .scalar value => .ok ⟨frames, .separator value⟩
  | .oversized count => .error (.integerTooLong count)
  | _ => .error .malformed

/-- Takes a token after a finished value. -/
def stepSeparator (frames : List Frame) (finished : Value) (token : Token) :
    Except ReadError State :=
  match frames, token with
  | .items done :: outer, .comma => .ok ⟨.items (finished :: done) :: outer, .value⟩
  | .items done :: outer, .closeArray =>
    .ok ⟨outer, .separator (.array (finished :: done).reverse)⟩
  | .members done key :: outer, .comma => .ok ⟨outer, .nextKey (done.insert key finished)⟩
  | .members done key :: outer, .closeObject =>
    .ok ⟨outer, .separator (.object (done.insert key finished).entries)⟩
  | _, _ => .error .malformed

/-- Takes one token. -/
def step (limit : Nat) (state : State) (token : Token) : Except ReadError State :=
  match state.expecting, token with
  | .value, token => stepValue limit state.frames token
  | .firstItem, .closeArray => .ok ⟨state.frames.drop 1, .separator (.array [])⟩
  | .firstItem, token => stepValue limit state.frames token
  | .firstKey, .closeObject => .ok ⟨state.frames, .separator (.object [])⟩
  | .firstKey, .scalar (.string key) => .ok ⟨state.frames, .colon {} key⟩
  | .nextKey done, .scalar (.string key) => .ok ⟨state.frames, .colon done key⟩
  | .colon done key, .colon => .ok ⟨.members done key :: state.frames, .value⟩
  | .separator finished, token => stepSeparator state.frames finished token
  | _, _ => .error .malformed

/-- The value of a state in which the document may end. -/
def State.result : State → Except ReadError Value
  | ⟨[], .separator finished⟩ => .ok finished
  | _ => .error .malformed

/-- Runs the machine over the rest of a text. -/
def run (limit : Nat) (state : State) (chars : List Char) : Except ReadError Value :=
  match chars.dropWhile isSpace, (List.dropWhile_sublist isSpace : List.Sublist _ chars) with
  | [], _ => state.result
  | char :: tail, sub =>
    match taken : readToken (char :: tail) with
    | none => .error .malformed
    | some (token, rest) =>
      match step limit state token with
      | .error error => .error error
      | .ok next =>
        have := length_of_readToken taken
        have := sub.length_le
        run limit next rest
termination_by chars.length

/-- Reads a document in which at most `limit` arrays and objects stand inside each other. -/
def read (limit : Nat) (chars : List Char) : Except ReadError Value :=
  run limit ⟨[], .value⟩ chars

end RepoAtlas.Json
