/-
Module: RepoAtlas.Proofs.JsonRoundTrip
Purpose: Reading a printed document gives its value back.
  The machine that reads is followed through the text of a value by induction on the value: from a
  place where a value may stand it comes, with the same arrays and objects open, to the place after
  that value.  Keys have to be distinct, since a repeated one would be written once, no text may hold
  the halves of a surrogate pair, and the value has to fit below the nesting limit of the reader.
Main exports: run_eq, run_of_readToken, Value.readBack, Value.FitsWithin, run_renderAt, read_render
-/
import RepoAtlas.Proofs.JsonNumbers
import RepoAtlas.Proofs.JsonStrings
import RepoAtlas.Proofs.OrderedMapLaws

namespace RepoAtlas.Json

open Number Text.Utf8

variable {limit : Nat}

section Machine

/-- What the machine does with a text: it ends, or takes one token after white space and goes on. -/
theorem run_eq (state : State) (chars : List Char) :
    run limit state chars =
      if chars.dropWhile isSpace = [] then state.result
      else
        match readToken (chars.dropWhile isSpace) with
        | none => .error .malformed
        | some (token, rest) =>
          match step limit state token with
          | .error error => .error error
          | .ok next => run limit next rest := by
  rw [run]
  split
  · next empty _ => rw [if_pos empty]
  · next char tail _ found _ =>
    rw [if_neg (by rw [found]; simp), found]
    split
    · next nothing => rw [nothing]
    · next token rest taken =>
      cases stepped : step limit state token with
      | error reason => simp only [taken, stepped]
      | ok next => simp only [taken, stepped]

/-- Takes the first token of a text off it, after white space. -/
def nextToken (chars : List Char) : Option (Token × List Char) :=
  readToken (chars.dropWhile isSpace)

theorem run_of_nextToken {token : Token} {chars rest : List Char}
    (taken : nextToken chars = some (token, rest)) (state : State) :
    run limit state chars =
      match step limit state token with
      | .error error => .error error
      | .ok next => run limit next rest := by
  rw [nextToken] at taken
  have visible : chars.dropWhile isSpace ≠ [] := by
    intro blank
    rw [blank] at taken
    cases taken
  rw [run_eq, if_neg visible, taken]

theorem run_nil (state : State) : run limit state [] = state.result := by
  rw [run_eq]
  simp

/-- White space in front of a text is passed over. -/
theorem run_append_spaces (blanks : List Char) (spaces : ∀ char ∈ blanks, isSpace char = true)
    (state : State) (chars : List Char) :
    run limit state (blanks ++ chars) = run limit state chars := by
  rw [run_eq state (blanks ++ chars), run_eq state chars,
    List.dropWhile_append_of_pos spaces]

theorem run_lineBreak (state : State) (level : Nat) (chars : List Char) :
    run limit state (lineBreak level ++ chars) = run limit state chars := by
  apply run_append_spaces
  intro char member
  rcases List.mem_cons.1 member with rfl | blank
  · decide
  · rw [List.eq_of_mem_replicate blank]
    decide

/-- No token begins with white space. -/
private theorem dropWhile_of_readToken {chars rest : List Char} {token : Token}
    (taken : readToken chars = some (token, rest)) : chars.dropWhile isSpace = chars := by
  cases chars with
  | nil => rfl
  | cons char tail =>
    have visible : isSpace char = false := by
      by_contra space
      simp only [isSpace, Bool.not_eq_false, Bool.or_eq_true, decide_eq_true_eq] at space
      obtain ((rfl | rfl) | rfl) | rfl := space
      -- The reader computes to nothing at each of the four white characters.
      all_goals exact nomatch (show (none : Option (Token × List Char)) = some _ from taken)
    simp [visible]

/-- A text that begins with a token takes the machine one step on. -/
theorem run_of_readToken {state next : State} (token : Token) {chars rest : List Char}
    (taken : readToken chars = some (token, rest)) (stepped : step limit state token = .ok next) :
    run limit state chars = run limit next rest := by
  have next : nextToken chars = some (token, rest) := by
    rw [nextToken, dropWhile_of_readToken taken]
    exact taken
  rw [run_of_nextToken next, stepped]

/-- Whether a value may stand where the machine is. -/
def Expecting.AdmitsValue (expecting : Expecting) : Prop :=
  expecting = .value ∨ expecting = .firstItem

theorem step_of_admitsValue {expecting : Expecting} (admits : expecting.AdmitsValue)
    {token : Token} (opens : token ≠ .closeArray) (frames : List Frame) :
    step limit ⟨frames, expecting⟩ token = stepValue limit frames token := by
  rcases admits with rfl | rfl
  · rfl
  · cases token <;> first | rfl | exact absurd rfl opens

/-- A value without parts is finished by its one token. -/
theorem run_scalar {expecting : Expecting} (admits : expecting.AdmitsValue) {value : Value}
    {chars rest : List Char} (taken : readToken chars = some (.scalar value, rest))
    (frames : List Frame) :
    run limit ⟨frames, expecting⟩ chars = run limit ⟨frames, .separator value⟩ rest := by
  apply run_of_readToken (.scalar value) taken
  rw [step_of_admitsValue admits (by simp)]
  rfl

end Machine

section Values

mutual

/-- The value that the text of a value is read as: doubles are those nearest to their digits. -/
def Value.readBack : Value → Value
  | .real value => .real (readBackReal value)
  | .array items => .array (readBackItems items)
  | .object members => .object (readBackMembers members)
  | .null => .null
  | .boolean value => .boolean value
  | .integer value => .integer value
  | .string value => .string value

/-- `Value.readBack` of every item. -/
def readBackItems : List Value → List Value
  | [] => []
  | item :: rest => item.readBack :: readBackItems rest

/-- `Value.readBack` of every member. -/
def readBackMembers : List (Points × Value) → List (Points × Value)
  | [] => []
  | (key, value) :: rest => (key, value.readBack) :: readBackMembers rest

end

mutual

/-- Whether the arrays and objects of a value stand at most `room` deep inside each other, the keys of
each object are distinct, and no text holds the two halves of a surrogate pair. -/
def Value.FitsWithin : (room : Nat) → Value → Prop
  | room, .array items => 0 < room ∧ ItemsFitWithin (room - 1) items
  | room, .object members =>
    0 < room ∧ (members.map Prod.fst).Nodup ∧ MembersFitWithin (room - 1) members
  | _, .string value => IsUnpaired value
  | _, .null | _, .boolean _ | _, .integer _ | _, .real _ => True

/-- `Value.FitsWithin` of every item. -/
def ItemsFitWithin (room : Nat) : List Value → Prop
  | [] => True
  | item :: rest => item.FitsWithin room ∧ ItemsFitWithin room rest

/-- `Value.FitsWithin` of every member. -/
def MembersFitWithin (room : Nat) : List (Points × Value) → Prop
  | [] => True
  | (key, value) :: rest => IsUnpaired key ∧ value.FitsWithin room ∧ MembersFitWithin room rest

end

theorem readBackMembers_eq_map (members : List (Points × Value)) :
    readBackMembers members = members.map (fun member => (member.1, member.2.readBack)) := by
  induction members with
  | nil => rfl
  | cons member rest ih => simp [readBackMembers, ih]

theorem membersFitWithin_iff (room : Nat) (members : List (Points × Value)) :
    MembersFitWithin room members ↔
      ∀ member ∈ members, IsUnpaired member.1 ∧ member.2.FitsWithin room := by
  induction members with
  | nil => simp [MembersFitWithin]
  | cons member rest ih => simp [MembersFitWithin, ih, and_assoc]

theorem areWritableMembers_iff (members : List (Points × Value)) :
    areWritableMembers members = true ↔ ∀ member ∈ members, member.2.isWritable = true := by
  induction members with
  | nil => simp [areWritableMembers]
  | cons member rest ih => simp [areWritableMembers, ih]

end Values

section Documents

theorem endsNumber_cons {char : Char} (mark : char = ',' ∨ char = '\n') (rest : List Char) :
    EndsNumber (char :: rest) := by
  intro other member
  obtain rfl : char = other := by simpa using member
  rcases mark with rfl | rfl <;> decide

theorem endsNumber_lineBreak (level : Nat) (rest : List Char) :
    EndsNumber (lineBreak level ++ rest) :=
  endsNumber_cons (.inr rfl) _

theorem endsNumber_renderItems (level outer : Nat) (items : List Value)
    (rest : List Char) :
    EndsNumber (renderItems level items ++ (lineBreak outer ++ rest)) := by
  cases items with
  | nil => exact endsNumber_lineBreak outer rest
  | cons item items => exact endsNumber_cons (.inl rfl) _

theorem endsNumber_renderMembers (level outer : Nat) (members : List (Points × Value))
    (rest : List Char) :
    EndsNumber (renderMembers level members ++ (lineBreak outer ++ rest)) := by
  cases members with
  | nil => exact endsNumber_lineBreak outer rest
  | cons member members => exact endsNumber_cons (.inl rfl) _

section Marks

variable {frames : List Frame} {expecting : Expecting} {rest : List Char}

theorem run_openArray (admits : expecting.AdmitsValue)
    (shallow : frames.length < limit) :
    run limit ⟨frames, expecting⟩ ('[' :: rest) =
      run limit ⟨.items [] :: frames, .firstItem⟩ rest := by
  apply run_of_readToken .openArray rfl
  rw [step_of_admitsValue admits (by simp)]
  exact if_neg (not_le.2 shallow)

theorem run_openObject (admits : expecting.AdmitsValue)
    (shallow : frames.length < limit) :
    run limit ⟨frames, expecting⟩ ('\x7b' :: rest) = run limit ⟨frames, .firstKey⟩ rest := by
  apply run_of_readToken .openObject rfl
  rw [step_of_admitsValue admits (by simp)]
  exact if_neg (not_le.2 shallow)

theorem run_closeEmptyArray :
    run limit ⟨.items [] :: frames, .firstItem⟩ (']' :: rest) =
      run limit ⟨frames, .separator (.array [])⟩ rest :=
  run_of_readToken .closeArray rfl rfl

theorem run_closeEmptyObject :
    run limit ⟨frames, .firstKey⟩ ('\x7d' :: rest) =
      run limit ⟨frames, .separator (.object [])⟩ rest :=
  run_of_readToken .closeObject rfl rfl

theorem run_itemComma {done : List Value} {finished : Value} :
    run limit ⟨.items done :: frames, .separator finished⟩ (',' :: rest) =
      run limit ⟨.items (finished :: done) :: frames, .value⟩ rest :=
  run_of_readToken .comma rfl rfl

theorem run_closeArray {done : List Value} {finished : Value} :
    run limit ⟨.items done :: frames, .separator finished⟩ (']' :: rest) =
      run limit ⟨frames, .separator (.array (finished :: done).reverse)⟩ rest :=
  run_of_readToken .closeArray rfl rfl

theorem run_memberComma {done : OrderedMap Points Value} {key : Points}
    {finished : Value} :
    run limit ⟨.members done key :: frames, .separator finished⟩ (',' :: rest) =
      run limit ⟨frames, .nextKey (done.insert key finished)⟩ rest :=
  run_of_readToken .comma rfl rfl

theorem run_closeObject {done : OrderedMap Points Value} {key : Points}
    {finished : Value} :
    run limit ⟨.members done key :: frames, .separator finished⟩ ('\x7d' :: rest) =
      run limit ⟨frames, .separator (.object (done.insert key finished).entries)⟩ rest :=
  run_of_readToken .closeObject rfl rfl

theorem run_colon {done : OrderedMap Points Value} {key : Points} :
    run limit ⟨frames, .colon done key⟩ (':' :: rest) =
      run limit ⟨.members done key :: frames, .value⟩ rest :=
  run_of_readToken .colon rfl rfl

theorem step_key {done : OrderedMap Points Value}
    (admits : expecting = .firstKey ∧ done = {} ∨ expecting = .nextKey done) (key : Points) :
    step limit ⟨frames, expecting⟩ (.scalar (.string key)) = .ok ⟨frames, .colon done key⟩ := by
  rcases admits with ⟨rfl, rfl⟩ | rfl <;> rfl

/-- After a key the machine takes the colon and expects the value of that key. -/
private theorem run_key {done : OrderedMap Points Value} {key : Points}
    (admits : expecting = .firstKey ∧ done = {} ∨ expecting = .nextKey done)
    (unpaired : IsUnpaired key) :
    run limit ⟨frames, expecting⟩ (renderString key ++ (':' :: ' ' :: rest)) =
      run limit ⟨.members done key :: frames, .value⟩ rest := by
  rw [run_of_readToken _ (readToken_renderString unpaired _) (step_key admits key), run_colon]
  exact run_append_spaces [' '] (List.forall_mem_singleton.2 rfl) _ _

end Marks

mutual

/-- From a place where a value may stand, the text of a value takes the machine to the place after
that value.  The induction is on the value; `room` is what is left of the nesting limit. -/
theorem run_renderAt : ∀ (value : Value) {room level : Nat} {frames : List Frame}
    {expecting : Expecting} {rest : List Char}, value.FitsWithin room → value.isWritable = true →
      frames.length + room ≤ limit → expecting.AdmitsValue → EndsNumber rest →
      run limit ⟨frames, expecting⟩ (renderAt level value ++ rest) =
        run limit ⟨frames, .separator value.readBack⟩ rest
  | .null, _, _, frames, _, _, _, _, _, admits, _ => run_scalar admits rfl frames
  | .boolean true, _, _, frames, _, _, _, _, _, admits, _ => run_scalar admits rfl frames
  | .boolean false, _, _, frames, _, _, _, _, _, admits, _ => run_scalar admits rfl frames
  | .integer value, _, _, frames, _, _, _, writable, _, admits, ends => by
    have short : isShortInteger value = true := by
      simpa only [Value.isWritable] using writable
    rw [renderAt]
    exact run_scalar admits (readToken_integerText short ends) frames
  | .real value, _, _, frames, _, _, _, _, _, admits, ends => by
    rw [renderAt, Value.readBack]
    exact run_scalar admits (readToken_documentLayout value ends) frames
  | .string value, _, _, frames, _, _, unpaired, _, _, admits, _ => by
    rw [renderAt]
    exact run_scalar admits (readToken_renderString unpaired _) frames
  | .array [], room, level, frames, expecting, rest, fits, _, shallow, admits, _ => by
    simp only [Value.FitsWithin] at fits
    have text : renderAt level (.array []) ++ rest = '[' :: ']' :: rest := rfl
    rw [text, run_openArray admits (by omega), run_closeEmptyArray]
    rfl
  | .array (first :: items), room, level, frames, expecting, rest, fits, writable, shallow,
      admits, _ => by
    simp only [Value.FitsWithin, ItemsFitWithin] at fits
    simp only [Value.isWritable, areWritableItems, Bool.and_eq_true] at writable
    have text : renderAt level (.array (first :: items)) ++ rest =
        '[' :: (lineBreak (level + 1) ++ (renderAt (level + 1) first ++
          (renderItems (level + 1) items ++ (lineBreak level ++ ']' :: rest)))) := by
      simp [renderAt]
    have deeper : (Frame.items [] :: frames).length + (room - 1) ≤ limit := by
      simp only [List.length_cons]
      omega
    rw [text, run_openArray admits (by omega), run_lineBreak,
      run_renderAt first fits.2.1 writable.1 deeper (.inr rfl) (endsNumber_renderItems _ _ _ _),
      run_renderItems items fits.2.2 writable.2 deeper]
    rfl
  | .object [], room, level, frames, expecting, rest, fits, _, shallow, admits, _ => by
    simp only [Value.FitsWithin] at fits
    have text : renderAt level (.object []) ++ rest = '\x7b' :: '\x7d' :: rest := rfl
    rw [text, run_openObject admits (by omega), run_closeEmptyObject]
    rfl
  | .object ((key, first) :: members), room, level, frames, expecting, rest, fits, writable,
      shallow, admits, _ => by
    simp only [Value.FitsWithin, MembersFitWithin] at fits
    simp only [Value.isWritable, areWritableMembers, Bool.and_eq_true] at writable
    have text : renderAt level (.object ((key, first) :: members)) ++ rest =
        '\x7b' :: (lineBreak (level + 1) ++ (renderString key ++ (':' :: ' ' ::
          (renderAt (level + 1) first ++ (renderMembers (level + 1) members ++
            (lineBreak level ++ '\x7d' :: rest)))))) := by
      simp [renderAt]
    have deeper : (Frame.members {} key :: frames).length + (room - 1) ≤ limit := by
      simp only [List.length_cons]
      omega
    have distinct : ((({} : OrderedMap Points Value).insert key first.readBack).keys ++
        members.map Prod.fst).Nodup := fits.2.1
    rw [text, run_openObject admits (by omega), run_lineBreak, run_key (.inl ⟨rfl, rfl⟩) fits.2.2.1,
      run_renderAt first fits.2.2.2.1 writable.1 deeper (.inl rfl)
        (endsNumber_renderMembers _ _ _ _),
      run_renderMembers members fits.2.2.2.2 writable.2 deeper distinct]
    rfl

/-- After a finished item, the text of the further items takes the machine to the end of the
array. -/
theorem run_renderItems : ∀ (items : List Value) {room level outer : Nat} {frames : List Frame}
    {done : List Value} {finished : Value} {rest : List Char}, ItemsFitWithin room items →
      areWritableItems items = true → (Frame.items done :: frames).length + room ≤ limit →
      run limit ⟨.items done :: frames, .separator finished⟩
          (renderItems level items ++ (lineBreak outer ++ ']' :: rest)) =
        run limit
          ⟨frames, .separator (.array ((finished :: done).reverse ++ readBackItems items))⟩ rest
  | [], _, _, outer, frames, done, finished, rest, _, _, _ => by
    rw [renderItems, List.nil_append, run_lineBreak, run_closeArray, readBackItems,
      List.append_nil]
  | item :: items, room, level, outer, frames, done, finished, rest, fits, writable, shallow => by
    simp only [ItemsFitWithin] at fits
    simp only [areWritableItems, Bool.and_eq_true] at writable
    have text : renderItems level (item :: items) ++ (lineBreak outer ++ ']' :: rest) =
        ',' :: (lineBreak level ++ (renderAt level item ++
          (renderItems level items ++ (lineBreak outer ++ ']' :: rest)))) := by
      simp [renderItems]
    have deeper : (Frame.items (finished :: done) :: frames).length + room ≤ limit := shallow
    rw [text, run_itemComma, run_lineBreak,
      run_renderAt item fits.1 writable.1 deeper (.inl rfl) (endsNumber_renderItems _ _ _ _),
      run_renderItems items fits.2 writable.2 deeper]
    simp [readBackItems]

/-- After a finished member, the text of the further members takes the machine to the end of the
object. -/
theorem run_renderMembers : ∀ (members : List (Points × Value)) {room level outer : Nat}
    {frames : List Frame} {done : OrderedMap Points Value} {key : Points} {finished : Value}
    {rest : List Char}, MembersFitWithin room members → areWritableMembers members = true →
      (Frame.members done key :: frames).length + room ≤ limit →
      ((done.insert key finished).keys ++ members.map Prod.fst).Nodup →
      run limit ⟨.members done key :: frames, .separator finished⟩
          (renderMembers level members ++ (lineBreak outer ++ '\x7d' :: rest)) =
        run limit ⟨frames, .separator (.object ((done.insert key finished).entries ++
          readBackMembers members))⟩ rest
  | [], _, _, outer, frames, done, key, finished, rest, _, _, _, _ => by
    rw [renderMembers, List.nil_append, run_lineBreak, run_closeObject, readBackMembers,
      List.append_nil]
  | (name, value) :: members, room, level, outer, frames, done, key, finished, rest, fits, writable,
      shallow, distinct => by
    simp only [MembersFitWithin] at fits
    simp only [areWritableMembers, Bool.and_eq_true] at writable
    have text : renderMembers level ((name, value) :: members) ++
        (lineBreak outer ++ '\x7d' :: rest) =
        ',' :: (lineBreak level ++ (renderString name ++ (':' :: ' ' :: (renderAt level value ++
          (renderMembers level members ++ (lineBreak outer ++ '\x7d' :: rest)))))) := by
      simp [renderMembers]
    have fresh : name ∉ (done.insert key finished).keys := by
      intro present
      exact (List.nodup_append.1 distinct).2.2 name present name (by simp) rfl
    have grown : ((done.insert key finished).insert name value.readBack).keys =
        (done.insert key finished).keys ++ [name] := by
      rw [OrderedMap.keys_insert, if_neg fresh]
    have deeper : (Frame.members (done.insert key finished) name :: frames).length + room ≤
        limit := shallow
    rw [text, run_memberComma, run_lineBreak, run_key (.inr rfl) fits.1,
      run_renderAt value fits.2.1 writable.1 deeper (.inl rfl) (endsNumber_renderMembers _ _ _ _),
      run_renderMembers members fits.2.2 writable.2 deeper (by rw [grown]; simpa using distinct),
      OrderedMap.entries_insert_of_fresh fresh, readBackMembers, List.append_assoc,
      List.singleton_append]

end

/-- A printed document is read as its value, if the value's integers are short enough to be written,
its keys are distinct, no text holds the halves of a surrogate pair, and it stays below the nesting
limit. -/
theorem read_render {value : Value} (fits : value.FitsWithin limit)
    (writable : value.isWritable = true) : read limit (render value) = .ok value.readBack := by
  have whole : run limit ⟨[], .value⟩ (renderAt 0 value ++ []) =
      run limit ⟨[], .separator value.readBack⟩ [] :=
    run_renderAt value fits writable (by simp) (.inl rfl) (by simp [EndsNumber])
  rw [read, render, ← List.append_nil (renderAt 0 value), whole, run_nil]
  rfl

end Documents

end RepoAtlas.Json
