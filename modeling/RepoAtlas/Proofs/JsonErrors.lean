/-
Module: RepoAtlas.Proofs.JsonErrors
Purpose: Which texts the reader of documents refuses for more than their grammar.
  The machine passes a beginning of the text without error and then meets the token that it refuses:
  an integer with too many digits, or a bracket below too many others, where a value may stand.
Main exports: Passes, run_eq_error_iff, LongDigits, readToken_eq_oversized_iff, ValueAt,
  read_eq_integerTooLong_iff, read_eq_tooDeep_iff
-/
import RepoAtlas.Proofs.JsonRoundTrip

namespace RepoAtlas.Json

open Number

variable {limit : Nat}

section Machine

/-- Whether the machine comes from one place of a text to a later one without error. -/
inductive Passes (limit : Nat) : State → List Char → State → List Char → Prop where
  | here (state : State) (chars : List Char) : Passes limit state chars state chars
  | token {state next last : State} {token : Token} {chars rest remaining : List Char}
      (taken : nextToken chars = some (token, rest)) (stepped : step limit state token = .ok next)
      (further : Passes limit next rest last remaining) : Passes limit state chars last remaining

theorem run_of_passes {state last : State} {chars remaining : List Char}
    (passes : Passes limit state chars last remaining) :
    run limit state chars = run limit last remaining := by
  induction passes with
  | here => rfl
  | token taken stepped _ ih =>
    rw [run_of_nextToken taken, stepped]
    exact ih

/-- The machine stops with an error other than that of the grammar exactly when it passes a
beginning of the text and then takes a token with that error. -/
theorem run_eq_error_iff {error : ReadError} (refused : error ≠ .malformed) (state : State)
    (chars : List Char) :
    run limit state chars = .error error ↔
      ∃ last remaining token rest, Passes limit state chars last remaining ∧
        nextToken remaining = some (token, rest) ∧ step limit last token = .error error := by
  constructor
  · intro failed
    -- The induction is on the length of the text, which every token shortens.
    induction length : chars.length using Nat.strong_induction_on generalizing state chars with
    | _ size ih =>
      rw [run_eq] at failed
      split at failed
      · obtain ⟨frames, expecting⟩ := state
        unfold State.result at failed
        split at failed
        · cases failed
        · cases failed
          exact absurd rfl refused
      · split at failed
        · cases failed
          exact absurd rfl refused
        · next token rest taken =>
          split at failed
          · next reason stepped =>
            cases failed
            exact ⟨state, chars, token, rest, .here state chars, taken, stepped⟩
          · next next stepped =>
            have shorter : rest.length < size := by
              have first := length_of_readToken taken
              have second := length_dropWhile_le isSpace chars
              omega
            obtain ⟨last, remaining, final, after, passes, found, stopped⟩ :=
              ih rest.length shorter next rest failed rfl
            exact ⟨last, remaining, final, after, .token taken stepped passes, found, stopped⟩
  · rintro ⟨last, remaining, token, rest, passes, taken, stopped⟩
    rw [run_of_passes passes, run_of_nextToken taken, stopped]

end Machine

section Steps

theorem stepSeparator_eq_malformed {frames : List Frame} {finished : Value} {token : Token}
    {error : ReadError} (stopped : stepSeparator frames finished token = .error error) :
    error = .malformed := by
  unfold stepSeparator at stopped
  split at stopped <;> cases stopped
  rfl

/-- A token is refused elsewhere than at a value for breaking the grammar only. -/
theorem step_eq_malformed {frames : List Frame} {expecting : Expecting} {token : Token}
    {error : ReadError} (elsewhere : ¬ expecting.AdmitsValue)
    (stopped : step limit ⟨frames, expecting⟩ token = .error error) : error = .malformed := by
  cases expecting with
  | value => exact absurd (.inl rfl) elsewhere
  | firstItem => exact absurd (.inr rfl) elsewhere
  | separator finished => exact stepSeparator_eq_malformed stopped
  | firstKey =>
    unfold step at stopped
    split at stopped <;> first | cases stopped; rfl | contradiction
  | nextKey done =>
    unfold step at stopped
    split at stopped <;> first | cases stopped; rfl | contradiction
  | colon done key =>
    unfold step at stopped
    split at stopped <;> first | cases stopped; rfl | contradiction

/-- Only where a value may stand is a token refused for more than the grammar. -/
theorem step_eq_error_iff {error : ReadError} (refused : error ≠ .malformed) (state : State)
    (token : Token) :
    step limit state token = .error error ↔
      state.expecting.AdmitsValue ∧ stepValue limit state.frames token = .error error := by
  obtain ⟨frames, expecting⟩ := state
  constructor
  · intro stopped
    by_cases admits : expecting.AdmitsValue
    · have opens : token ≠ .closeArray ∨ expecting = .value := by
        rcases admits with rfl | rfl
        · exact .inr rfl
        · refine .inl ?_
          rintro rfl
          cases stopped
      refine ⟨admits, ?_⟩
      rcases opens with opens | rfl
      · rwa [step_of_admitsValue admits opens] at stopped
      · exact stopped
    · exact absurd (step_eq_malformed admits stopped) refused
  · rintro ⟨admits, stopped⟩
    have opens : token ≠ .closeArray := by
      rintro rfl
      cases stopped
      exact refused rfl
    rw [step_of_admitsValue admits opens]
    exact stopped

theorem opened_eq_error_iff (frames : List Frame) (container : Container) (state : State)
    (error : ReadError) :
    opened limit frames container state = .error error ↔
      limit ≤ frames.length ∧ error = .tooDeep container := by
  unfold opened
  split
  · next deep => simp [deep, eq_comm]
  · next shallow => simp [shallow]

theorem stepValue_eq_integerTooLong_iff (frames : List Frame) (token : Token) (count : Nat) :
    stepValue limit frames token = .error (.integerTooLong count) ↔ token = .oversized count := by
  cases token <;> simp [stepValue, opened_eq_error_iff]

/-- Whether a token opens an array or an object. -/
inductive Opens : Token → Container → Prop where
  | array : Opens .openArray .array
  | object : Opens .openObject .object

theorem stepValue_eq_tooDeep_iff (frames : List Frame) (token : Token) (container : Container) :
    stepValue limit frames token = .error (.tooDeep container) ↔
      limit ≤ frames.length ∧ Opens token container := by
  constructor
  · intro stopped
    cases token with
    | openArray =>
      obtain ⟨deep, same⟩ := (opened_eq_error_iff _ _ _ _).1 stopped
      cases same
      exact ⟨deep, .array⟩
    | openObject =>
      obtain ⟨deep, same⟩ := (opened_eq_error_iff _ _ _ _).1 stopped
      cases same
      exact ⟨deep, .object⟩
    | _ => cases stopped
  · rintro ⟨deep, opens⟩
    cases opens with
    | array => exact (opened_eq_error_iff _ _ _ _).2 ⟨deep, rfl⟩
    | object => exact (opened_eq_error_iff _ _ _ _).2 ⟨deep, rfl⟩

end Steps

section Integers

/-- Whether digits in front of a text are an integer that is too long: they begin with no zero, and
the text goes on with no digit, fraction or exponent. -/
structure LongDigits (figures rest : List Char) : Prop where
  areDigits : ∀ figure ∈ figures, isPlainDigit figure = true
  noLeadingZero : figures.head? ≠ some '0'
  long : integerDigitLimit < figures.length
  ends : EndsDigits rest
  noFraction : takeFraction rest = none
  noExponent : takeExponent rest = none

theorem endsDigits_dropWhile (chars : List Char) : EndsDigits (chars.dropWhile isPlainDigit) := by
  intro char member
  have first := List.head?_dropWhile_not isPlainDigit chars
  rw [Option.mem_def.1 member] at first
  exact first

/-- The whole part that is split off a number has several digits only if it begins with no zero. -/
theorem takeWhole_of_long {chars whole rest : List Char}
    (taken : takeWhole chars = some (whole, rest)) (several : 1 < whole.length) :
    chars = whole ++ rest ∧ (∀ figure ∈ whole, isPlainDigit figure = true) ∧
      whole.head? ≠ some '0' ∧ EndsDigits rest := by
  unfold takeWhole at taken
  split at taken
  · cases taken
  · next char tail =>
    split at taken
    · cases taken
      simp at several
    · next nonzero =>
      split at taken
      · next digit =>
        cases taken
        refine ⟨?_, ?_, by simpa using nonzero, endsDigits_dropWhile tail⟩
        · rw [List.cons_append, List.takeWhile_append_dropWhile]
        · intro figure member
          rcases List.mem_cons.1 member with rfl | later
          · exact digit
          · exact List.all_eq_true.1 List.all_takeWhile figure later
      · cases taken

theorem takeWhole_of_longDigits {figures rest : List Char} (long : LongDigits figures rest) :
    takeWhole (figures ++ rest) = some (figures, rest) := by
  obtain ⟨areDigits, noLeadingZero, size, ends, _, _⟩ := long
  cases figures with
  | nil => simp at size
  | cons first others =>
    have nonzero : first ≠ '0' := by simpa using noLeadingZero
    have later : ∀ figure ∈ others, isPlainDigit figure = true :=
      fun figure member => areDigits figure (by simp [member])
    simp [takeWhole, nonzero, areDigits first (by simp), takeWhile_digits_append later ends,
      dropWhile_digits_append later ends]

theorem integerToken_eq_oversized_iff (negative : Bool) (figures : List Char) (count : Nat) :
    integerToken negative figures = .oversized count ↔
      integerDigitLimit < figures.length ∧ figures.length = count := by
  unfold integerToken
  split
  · next long => simp [long]
  · next short => simp [short]

/-- A number is an integer that is too long exactly when its digits are. -/
theorem readNumber_eq_oversized_iff (negative : Bool) (chars rest : List Char) (count : Nat) :
    readNumber negative chars = some (.oversized count, rest) ↔
      ∃ figures, chars = figures ++ rest ∧ figures.length = count ∧ LongDigits figures rest := by
  constructor
  · intro read
    unfold readNumber at read
    cases whole : takeWhole chars with
    | none => simp [whole] at read
    | some parts =>
      obtain ⟨figures, tail⟩ := parts
      simp only [whole, Option.bind_eq_bind, Option.bind_some] at read
      split at read
      · cases read
      · next noFraction =>
        split at read
        · cases read
        · next noExponent =>
          simp only [Option.some.injEq, Prod.mk.injEq, integerToken_eq_oversized_iff] at read
          obtain ⟨⟨long, size⟩, rfl⟩ := read
          have several : 1 < figures.length := lt_of_lt_of_le (by decide) (Nat.le_of_lt long)
          obtain ⟨text, areDigits, noLeadingZero, ends⟩ := takeWhole_of_long whole several
          exact ⟨figures, text, size, areDigits, noLeadingZero, long, ends, noFraction, noExponent⟩
  · rintro ⟨figures, rfl, size, long⟩
    have token := (integerToken_eq_oversized_iff negative figures count).2 ⟨long.long, size⟩
    simp [readNumber, takeWhole_of_longDigits long, long.noFraction, long.noExponent, token]

theorem readWord_ne_oversized {chars rest : List Char} {count : Nat}
    {choices : List (List Char × Value)} :
    readWord chars choices ≠ some (.oversized count, rest) := by
  induction choices with
  | nil => simp [readWord]
  | cons choice others ih =>
    obtain ⟨word, value⟩ := choice
    unfold readWord
    split
    · simp
    · exact ih

/-- A token is an integer that is too long exactly when the text begins with its sign and digits. -/
theorem readToken_eq_oversized_iff (chars rest : List Char) (count : Nat) :
    readToken chars = some (.oversized count, rest) ↔
      ∃ negative figures, chars = signText negative ++ (figures ++ rest) ∧
        figures.length = count ∧ LongDigits figures rest := by
  constructor
  · intro read
    unfold readToken at read
    split at read
    case h_6 tail =>
      cases text : readString [] tail <;> simp [text] at read
    case h_7 char tail _ _ _ _ _ =>
      split at read
      · cases read
      · split at read
        · cases read
        · split at read
          · next result found =>
            cases read
            exact absurd found readWord_ne_oversized
          · split at read
            · next minus =>
              obtain ⟨figures, rfl, size, long⟩ := (readNumber_eq_oversized_iff _ _ _ _).1 read
              exact ⟨true, figures, by simp [signText, minus], size, long⟩
            · obtain ⟨figures, text, size, long⟩ := (readNumber_eq_oversized_iff _ _ _ _).1 read
              exact ⟨false, figures, by simpa [signText] using text, size, long⟩
    all_goals cases read
  · rintro ⟨negative, figures, rfl, size, long⟩
    have number := (readNumber_eq_oversized_iff negative (figures ++ rest) rest count).2
      ⟨figures, rfl, size, long⟩
    obtain ⟨first, others, rfl⟩ := List.exists_cons_of_length_pos
      (lt_of_le_of_lt (Nat.zero_le _) long.long)
    have digit : isPlainDigit first = true := long.areDigits first (by simp)
    cases negative with
    | false => exact (readToken_digit digit _).trans number
    | true => exact (readToken_minus digit _).trans number

end Integers

section Documents

/-- Whether the reader passes a beginning of a text without error and comes, inside of the given
arrays and objects, to a place where a value may stand. -/
def ValueAt (limit : Nat) (chars : List Char) (frames : List Frame) (remaining : List Char) : Prop :=
  ∃ expecting : Expecting, expecting.AdmitsValue ∧
    Passes limit ⟨[], .value⟩ chars ⟨frames, expecting⟩ remaining

/-- A text is refused for an error other than that of the grammar at a place for a value. -/
theorem read_eq_error_iff {error : ReadError} (refused : error ≠ .malformed) (chars : List Char) :
    read limit chars = .error error ↔
      ∃ frames remaining token rest, ValueAt limit chars frames remaining ∧
        nextToken remaining = some (token, rest) ∧ stepValue limit frames token = .error error := by
  rw [read, run_eq_error_iff refused]
  constructor
  · rintro ⟨⟨frames, expecting⟩, remaining, token, rest, passes, taken, stopped⟩
    obtain ⟨admits, stopped⟩ := (step_eq_error_iff refused _ _).1 stopped
    exact ⟨frames, remaining, token, rest, ⟨expecting, admits, passes⟩, taken, stopped⟩
  · rintro ⟨frames, remaining, token, rest, ⟨expecting, admits, passes⟩, taken, stopped⟩
    exact ⟨⟨frames, expecting⟩, remaining, token, rest, passes, taken,
      (step_eq_error_iff refused _ _).2 ⟨admits, stopped⟩⟩

/-- A document is refused for the digits of an integer exactly when such an integer stands at a
place for a value after a beginning without error. -/
theorem read_eq_integerTooLong_iff (chars : List Char) (count : Nat) :
    read limit chars = .error (.integerTooLong count) ↔
      ∃ frames remaining negative figures rest, ValueAt limit chars frames remaining ∧
        remaining.dropWhile isSpace = signText negative ++ (figures ++ rest) ∧
        figures.length = count ∧ LongDigits figures rest := by
  rw [read_eq_error_iff (by simp)]
  simp only [stepValue_eq_integerTooLong_iff, nextToken]
  constructor
  · rintro ⟨frames, remaining, token, rest, place, taken, rfl⟩
    obtain ⟨negative, figures, text, size, long⟩ := (readToken_eq_oversized_iff _ _ _).1 taken
    exact ⟨frames, remaining, negative, figures, rest, place, text, size, long⟩
  · rintro ⟨frames, remaining, negative, figures, rest, place, text, size, long⟩
    exact ⟨frames, remaining, _, rest, place,
      (readToken_eq_oversized_iff _ _ _).2 ⟨negative, figures, text, size, long⟩, rfl⟩

/-- A document is refused for its depth exactly when, after a beginning without error, an array or
object opens at a place for a value below as many others as are allowed. -/
theorem read_eq_tooDeep_iff (chars : List Char) (container : Container) :
    read limit chars = .error (.tooDeep container) ↔
      ∃ frames remaining token rest, ValueAt limit chars frames remaining ∧
        nextToken remaining = some (token, rest) ∧ limit ≤ frames.length ∧
        Opens token container := by
  rw [read_eq_error_iff (by simp)]
  simp only [stepValue_eq_tooDeep_iff]

end Documents

end RepoAtlas.Json
