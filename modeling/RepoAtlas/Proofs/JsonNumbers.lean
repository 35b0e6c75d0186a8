/-
Module: RepoAtlas.Proofs.JsonNumbers
Purpose: Taking a printed number off a text gives its token back.
  A number's text is brought into a `Spelling`, the parts that a reader takes one after the other,
  and a spelling is read to its end wherever the text does not go on with it.  An integer comes back
  as it was; a double comes back as the double that its digits are nearest to.
Main exports: Spelling, EndsNumber, readNumber_text, readToken_text, readToken_integerText,
  readBackReal, readToken_documentLayout
-/
import RepoAtlas.Json.Printer
import RepoAtlas.Json.Reader
import RepoAtlas.Proofs.DecimalText

namespace RepoAtlas.Json

open Number

/-- The exponent of a number's text: its sign and its digits. -/
structure ExponentSpelling where
  negative : Bool
  figures : List Char
  nonempty : figures ≠ []
  areDigits : ∀ figure ∈ figures, isPlainDigit figure = true

namespace ExponentSpelling

def text (exponent : ExponentSpelling) : List Char :=
  'e' :: (if exponent.negative then '-' else '+') :: exponent.figures

def value (exponent : ExponentSpelling) : Int :=
  if exponent.negative then -(digitsValue exponent.figures : Int) else digitsValue exponent.figures

end ExponentSpelling

/-- The parts of an unsigned number's text in the order in which they are read.  The whole part has
no zero before another digit. -/
structure Spelling where
  first : Char
  whole : List Char
  fraction : List Char
  exponent : Option ExponentSpelling
  firstIsDigit : isPlainDigit first = true
  wholeAreDigits : ∀ figure ∈ whole, isPlainDigit figure = true
  noLeadingZero : first = '0' → whole = []
  fractionAreDigits : ∀ figure ∈ fraction, isPlainDigit figure = true

namespace Spelling

def fractionText (spelling : Spelling) : List Char :=
  if spelling.fraction.isEmpty then [] else '.' :: spelling.fraction

def exponentText (spelling : Spelling) : List Char :=
  (spelling.exponent.map ExponentSpelling.text).getD []

def text (spelling : Spelling) : List Char :=
  spelling.first :: spelling.whole ++ (spelling.fractionText ++ spelling.exponentText)

/-- The token that a text is read as after its sign. -/
def token (negative : Bool) (spelling : Spelling) : Token :=
  if spelling.fraction.isEmpty && spelling.exponent.isNone then
    integerToken negative (spelling.first :: spelling.whole)
  else
    let decimal : Decimal := ⟨digitsValue (spelling.first :: spelling.whole ++ spelling.fraction),
      (spelling.exponent.map ExponentSpelling.value).getD 0 - spelling.fraction.length⟩
    .scalar (.real (decimal.toBinary64 negative))

end Spelling

/-- Whether a number that stands before a text ends there. -/
def EndsNumber (rest : List Char) : Prop :=
  ∀ char ∈ rest.head?, isPlainDigit char = false ∧ char ≠ '.' ∧ char ≠ 'e' ∧ char ≠ 'E'

/-- Whether digits that stand before a text end there. -/
def EndsDigits (rest : List Char) : Prop :=
  ∀ char ∈ rest.head?, isPlainDigit char = false

theorem takeWhile_digits_append {figures rest : List Char}
    (areDigits : ∀ figure ∈ figures, isPlainDigit figure = true) (ends : EndsDigits rest) :
    (figures ++ rest).takeWhile isPlainDigit = figures := by
  rw [List.takeWhile_append_of_pos areDigits]
  cases rest with
  | nil => simp
  | cons char rest => simp [ends char (by simp)]

theorem dropWhile_digits_append {figures rest : List Char}
    (areDigits : ∀ figure ∈ figures, isPlainDigit figure = true) (ends : EndsDigits rest) :
    (figures ++ rest).dropWhile isPlainDigit = rest := by
  rw [List.dropWhile_append_of_pos areDigits]
  cases rest with
  | nil => simp
  | cons char rest => simp [ends char (by simp)]

private theorem takeWhole_text (spelling : Spelling) {rest : List Char} (ends : EndsDigits rest) :
    takeWhole (spelling.first :: spelling.whole ++ rest) =
      some (spelling.first :: spelling.whole, rest) := by
  by_cases zero : spelling.first = '0'
  · simp [takeWhole, zero, spelling.noLeadingZero zero]
  · simp [takeWhole, zero, spelling.firstIsDigit,
      takeWhile_digits_append spelling.wholeAreDigits ends,
      dropWhile_digits_append spelling.wholeAreDigits ends]

private theorem takeFraction_text {figures rest : List Char} (nonempty : figures ≠ [])
    (areDigits : ∀ figure ∈ figures, isPlainDigit figure = true) (ends : EndsDigits rest) :
    takeFraction ('.' :: figures ++ rest) = some (figures, rest) := by
  simp [takeFraction, takeWhile_digits_append areDigits ends,
    dropWhile_digits_append areDigits ends, nonempty]

private theorem takeFraction_of_ne {rest : List Char} (ends : ∀ char ∈ rest.head?, char ≠ '.') :
    takeFraction rest = none := by
  cases rest with
  | nil => rfl
  | cons char rest =>
    have notPoint : char ≠ '.' := ends char (by simp)
    simp [takeFraction, notPoint]

private theorem takeExponent_text (exponent : ExponentSpelling) {rest : List Char}
    (ends : EndsDigits rest) :
    takeExponent (exponent.text ++ rest) = some (exponent.value, rest) := by
  obtain ⟨negative, figures, nonempty, areDigits⟩ := exponent
  cases negative <;>
    simp [takeExponent, takeSign, ExponentSpelling.text, ExponentSpelling.value, nonempty,
      takeWhile_digits_append areDigits ends, dropWhile_digits_append areDigits ends]

private theorem takeExponent_of_ne {rest : List Char}
    (ends : ∀ char ∈ rest.head?, char ≠ 'e' ∧ char ≠ 'E') : takeExponent rest = none := by
  cases rest with
  | nil => rfl
  | cons char rest =>
    have notMark := ends char (by simp)
    simp [takeExponent, notMark.1, notMark.2]

/-- What follows the whole part and the fraction of a number is no digit and no point. -/
private theorem exponentText_ends (spelling : Spelling) {rest : List Char}
    (ends : EndsNumber rest) :
    ∀ char ∈ (spelling.exponentText ++ rest).head?, isPlainDigit char = false ∧ char ≠ '.' := by
  unfold Spelling.exponentText
  cases spelling.exponent with
  | none =>
    intro char member
    have last := ends char member
    exact ⟨last.1, last.2.1⟩
  | some exponent =>
    intro char member
    obtain rfl : 'e' = char := by simpa [ExponentSpelling.text] using member
    exact ⟨by decide, by decide⟩

private theorem fractionText_ends (spelling : Spelling) {rest : List Char}
    (ends : EndsNumber rest) :
    EndsDigits (spelling.fractionText ++ (spelling.exponentText ++ rest)) := by
  intro char member
  unfold Spelling.fractionText at member
  split at member
  · exact (exponentText_ends spelling ends char (by simpa using member)).1
  · obtain rfl : '.' = char := by simpa using member
    decide

/-- The exponent part is read with its value, and as zero where there is none. -/
private theorem takeExponent_exponentText (spelling : Spelling) {rest : List Char}
    (ends : EndsNumber rest) :
    takeExponent (spelling.exponentText ++ rest) =
      spelling.exponent.map (fun exponent => (exponent.value, rest)) := by
  unfold Spelling.exponentText
  cases spelling.exponent with
  | none => exact takeExponent_of_ne (fun char member => (ends char member).2.2)
  | some exponent => exact takeExponent_text exponent (fun char member => (ends char member).1)

/-- A spelled number is read to its end where the text does not go on with it. -/
theorem readNumber_text (negative : Bool) (spelling : Spelling) {rest : List Char}
    (ends : EndsNumber rest) :
    readNumber negative (spelling.text ++ rest) = some (spelling.token negative, rest) := by
  have split : spelling.text ++ rest = spelling.first :: spelling.whole ++
      (spelling.fractionText ++ (spelling.exponentText ++ rest)) := by
    simp [Spelling.text]
  have whole := takeWhole_text spelling (fractionText_ends spelling ends)
  have exponent := takeExponent_exponentText spelling ends
  rw [split, readNumber, whole]
  by_cases empty : spelling.fraction = []
  · have fraction : takeFraction (spelling.fractionText ++ (spelling.exponentText ++ rest)) =
        none := by
      simp only [Spelling.fractionText, empty, List.isEmpty_nil, if_true, List.nil_append]
      exact takeFraction_of_ne (fun char member => (exponentText_ends spelling ends char member).2)
    simp only [Option.bind_eq_bind, Option.bind_some, fraction]
    simp only [Spelling.fractionText, Spelling.token, empty, List.isEmpty_nil, if_true,
      List.nil_append, exponent]
    unfold Spelling.exponentText
    cases spelling.exponent <;> simp
  · have fraction : takeFraction (spelling.fractionText ++ (spelling.exponentText ++ rest)) =
        some (spelling.fraction, spelling.exponentText ++ rest) := by
      simp only [Spelling.fractionText, List.isEmpty_eq_false_iff.2 empty, Bool.false_eq_true,
        if_false]
      exact takeFraction_text empty spelling.fractionAreDigits
        (fun char member => (exponentText_ends spelling ends char member).1)
    simp only [Option.bind_eq_bind, Option.bind_some, fraction, exponent]
    simp only [Spelling.token, List.isEmpty_eq_false_iff.2 empty, Bool.false_and,
      Bool.false_eq_true, if_false]
    unfold Spelling.exponentText
    cases spelling.exponent <;> simp

private theorem ne_of_isPlainDigit {figure other : Char} (digit : isPlainDigit figure = true)
    (outside : isPlainDigit other = false) : figure ≠ other := by
  rintro rfl
  rw [digit] at outside
  cases outside

/-- A text that begins with a digit begins with no word. -/
private theorem readWord_digit {figure : Char} (digit : isPlainDigit figure = true)
    (rest : List Char) : readWord (figure :: rest) words = none := by
  have differs (letter : Char) (outside : isPlainDigit letter = false) : letter ≠ figure :=
    (ne_of_isPlainDigit digit outside).symm
  simp [readWord, words, takeWord, differs 'n' (by decide), differs 't' (by decide),
    differs 'f' (by decide), differs 'N' (by decide), differs 'I' (by decide),
    differs '-' (by decide)]

private theorem readWord_minus {figure : Char} (digit : isPlainDigit figure = true)
    (rest : List Char) : readWord ('-' :: figure :: rest) words = none := by
  have differs : 'I' ≠ figure := (ne_of_isPlainDigit digit (by decide)).symm
  simp [readWord, words, takeWord, differs]

/-- A text that begins with a digit begins with an unsigned number. -/
theorem readToken_digit {figure : Char} (digit : isPlainDigit figure = true)
    (rest : List Char) : readToken (figure :: rest) = readNumber false (figure :: rest) := by
  have differs {mark : Char} (outside : isPlainDigit mark = false) : figure ≠ mark :=
    ne_of_isPlainDigit digit outside
  rw [readToken.eq_7 _ _ (differs (by decide)) (differs (by decide)) (differs (by decide))
    (differs (by decide)) (differs (by decide)), if_neg (differs (by decide)),
    if_neg (differs (by decide)), readWord_digit digit]
  exact if_neg (differs (by decide))

theorem readToken_minus {figure : Char} (digit : isPlainDigit figure = true)
    (rest : List Char) : readToken ('-' :: figure :: rest) = readNumber true (figure :: rest) := by
  rw [readToken.eq_7 _ _ (by decide) (by decide) (by decide) (by decide) (by decide),
    if_neg (by decide), if_neg (by decide), readWord_minus digit]
  exact if_pos rfl

/-- The sign before a number's text. -/
def signText (negative : Bool) : List Char :=
  if negative then ['-'] else []

/-- A signed spelled number is taken off a text as its token. -/
theorem readToken_text (negative : Bool) (spelling : Spelling) {rest : List Char}
    (ends : EndsNumber rest) :
    readToken (signText negative ++ (spelling.text ++ rest)) =
      some (spelling.token negative, rest) := by
  have number := readNumber_text negative spelling ends
  cases negative with
  | false => exact (readToken_digit spelling.firstIsDigit _).trans number
  | true => exact (readToken_minus spelling.firstIsDigit _).trans number

/-- The digits of a number as a spelling without fraction and exponent. -/
private theorem exists_spelling_digits (value : Nat) :
    ∃ spelling : Spelling, spelling.first :: spelling.whole = digits value ∧
      spelling.fraction = [] ∧ spelling.exponent = none := by
  have areDigits : ∀ figure ∈ digits value, isPlainDigit figure = true :=
    fun _ => isPlainDigit_of_mem_digits
  have leading : ∃ first rest, digits value = first :: rest ∧ (first = '0' → rest = []) := by
    rcases Nat.eq_zero_or_pos value with rfl | positive
    · exact ⟨'0', [], rfl, fun _ => rfl⟩
    · obtain ⟨first, rest, spelled, nonzero⟩ := exists_digits_eq_cons positive
      exact ⟨first, rest, spelled, fun zero => absurd zero nonzero⟩
  obtain ⟨first, rest, spelled, noLeadingZero⟩ := leading
  rw [spelled] at areDigits ⊢
  exact ⟨⟨first, rest, [], none, areDigits first (by simp),
    fun figure member => areDigits figure (by simp [member]), noLeadingZero, by simp⟩, rfl, rfl,
    rfl⟩

/-- A printed integer is taken off a text as that integer, unless it has too many digits. -/
theorem readToken_integerText {value : Int} (short : isShortInteger value = true)
    {rest : List Char} (ends : EndsNumber rest) :
    readToken ((integerText value).toList ++ rest) = some (.scalar (.integer value), rest) := by
  obtain ⟨spelling, spelled, noFraction, noExponent⟩ := exists_spelling_digits value.natAbs
  have text : (integerText value).toList ++ rest =
      signText (decide (value < 0)) ++ (spelling.text ++ rest) := by
    simp [integerText, signText, Spelling.text, Spelling.fractionText, Spelling.exponentText,
      noFraction, noExponent, spelled]
  have within : ¬ integerDigitLimit < (digits value.natAbs).length := by
    simpa [isShortInteger] using short
  have token : spelling.token (decide (value < 0)) = .scalar (.integer value) := by
    have signed : (if value < 0 then -(value.natAbs : Int) else value.natAbs) = value := by
      split <;> omega
    simp only [Spelling.token, noFraction, noExponent, List.isEmpty_nil, Option.isNone_none,
      Bool.and_self, if_true, integerToken, spelled, if_neg within, digitsValue_digits,
      decide_eq_true_eq, signed]
  rw [text, readToken_text _ spelling ends, token]

/-- Whether a spelling is of a double: it has a fraction or an exponent. -/
private def Spelling.IsReal (spelling : Spelling) : Prop :=
  spelling.fraction ≠ [] ∨ spelling.exponent ≠ none

private theorem token_of_isReal {spelling : Spelling} (real : spelling.IsReal) (negative : Bool) :
    ∃ value, spelling.token negative = .scalar (.real value) := by
  have notInteger : (spelling.fraction.isEmpty && spelling.exponent.isNone) = false := by
    rcases real with fraction | exponent
    · simp [fraction]
    · have present : spelling.exponent.isNone = false := by
        rw [Option.isNone_eq_false_iff, Option.isSome_iff_ne_none]
        exact exponent
      simp [present]
  simp [Spelling.token, notInteger]

/-- Significant digits: at least one, and the first is not zero. -/
private structure Significant (figures : List Char) : Prop where
  areDigits : ∀ figure ∈ figures, isPlainDigit figure = true
  leading : ∃ first rest, figures = first :: rest ∧ first ≠ '0'

/-- Dropping trailing zeros leaves the first digit of a positive number. -/
private theorem significant_trimmed {value : Nat} (positive : 0 < value) :
    Significant ((digits value).reverse.dropWhile (· == '0')).reverse := by
  obtain ⟨first, rest, spelled, nonzero⟩ := exists_digits_eq_cons positive
  constructor
  · intro figure member
    have kept := (List.dropWhile_sublist (· == '0')).mem (List.mem_reverse.1 member)
    exact isPlainDigit_of_mem_digits (List.mem_reverse.1 kept)
  · refine ⟨first, (rest.reverse.dropWhile (· == '0')).reverse, ?_, nonzero⟩
    rw [spelled, List.reverse_cons, List.dropWhile_append]
    split
    · next empty =>
      have zeros : rest.reverse.dropWhile (· == '0') = [] := by simpa using empty
      simp [zeros, nonzero]
    · simp

theorem isPlainDigit_of_mem_zeros {count : Nat} {figure : Char}
    (member : figure ∈ List.replicate count '0') : isPlainDigit figure = true := by
  rw [List.eq_of_mem_replicate member]
  decide

/-- Digits with a point among, before or after them are a spelling with a fraction. -/
private theorem exists_spelling_positional {figures : List Char} (significant : Significant figures)
    (leading : Int) :
    ∃ spelling : Spelling, RealLayout.positional figures leading = spelling.text ∧
      spelling.IsReal := by
  obtain ⟨areDigits, first, rest, rfl, nonzero⟩ := significant
  unfold RealLayout.positional
  split
  · refine ⟨⟨'0', [], List.replicate (-leading - 1).toNat '0' ++ first :: rest, none, by decide,
      by simp, fun _ => rfl, ?_⟩, by simp [Spelling.text, Spelling.fractionText,
        Spelling.exponentText], .inl (by simp)⟩
    intro figure member
    rcases List.mem_append.1 member with zero | digit
    · exact isPlainDigit_of_mem_zeros zero
    · exact areDigits figure digit
  · simp only
    split
    · refine ⟨⟨first, rest ++ List.replicate (leading.toNat + 1 - (first :: rest).length) '0',
        ['0'], none, areDigits first (by simp), ?_, fun zero => absurd zero nonzero,
        List.forall_mem_singleton.2 rfl⟩,
        by simp [Spelling.text, Spelling.fractionText, Spelling.exponentText], .inl (by simp)⟩
      intro figure member
      rcases List.mem_append.1 member with digit | zero
      · exact areDigits figure (by simp [digit])
      · exact isPlainDigit_of_mem_zeros zero
    · next long =>
      have further : rest.drop leading.toNat ≠ [] := by
        simp only [List.length_cons, not_le] at long
        simp only [ne_eq, List.drop_eq_nil_iff]
        omega
      refine ⟨⟨first, rest.take leading.toNat, rest.drop leading.toNat, none,
        areDigits first (by simp), ?_, fun zero => absurd zero nonzero, ?_⟩, ?_, .inl further⟩
      · intro figure member
        exact areDigits figure (List.mem_cons_of_mem _ (List.mem_of_mem_take member))
      · intro figure member
        exact areDigits figure (List.mem_cons_of_mem _ (List.mem_of_mem_drop member))
      · simp [Spelling.text, Spelling.fractionText, Spelling.exponentText, further]

/-- Digits with a point after the first and an exponent are a spelling with an exponent. -/
private theorem exists_spelling_scientific (layout : RealLayout) {figures : List Char}
    (significant : Significant figures) (leading : Int) :
    ∃ spelling : Spelling, layout.scientific figures leading = spelling.text ∧
      spelling.IsReal := by
  obtain ⟨areDigits, first, rest, rfl, nonzero⟩ := significant
  let exponent : ExponentSpelling :=
    { negative := decide (leading < 0)
      figures := List.replicate (layout.exponentDigits - (digits leading.natAbs).length) '0' ++
        digits leading.natAbs
      nonempty := by simp [digits_ne_nil]
      areDigits := by
        intro figure member
        rcases List.mem_append.1 member with zero | digit
        · exact isPlainDigit_of_mem_zeros zero
        · exact isPlainDigit_of_mem_digits digit }
  refine ⟨⟨first, [], rest, some exponent, areDigits first (by simp), by simp,
    fun zero => absurd zero nonzero, fun figure member => areDigits figure (by simp [member])⟩, ?_,
    .inr (by simp)⟩
  simp [RealLayout.scientific, RealLayout.exponentText, Spelling.text, Spelling.fractionText,
    Spelling.exponentText, ExponentSpelling.text, exponent]

/-- The text of a positive double is a spelling of a double. -/
private theorem exists_spelling_positive (layout : RealLayout) {mantissa : Nat}
    (positive : 0 < mantissa) (exponent : Int) :
    ∃ spelling : Spelling, layout.renderPositive mantissa exponent = spelling.text ∧
      spelling.IsReal := by
  have significant := significant_trimmed (Decimal.coefficient_shortest_pos positive exponent)
  unfold RealLayout.renderPositive
  simp only
  split
  · exact exists_spelling_positional significant _
  · exact exists_spelling_scientific layout significant _

/-- The double that the text of a double in a document is read as. -/
def readBackReal (value : Binary64) : Binary64 :=
  match readToken (documentLayout.render value).toList with
  | some (.scalar (.real other), _) => other
  | _ => value

/-- The text of a double is read as one double, whatever follows it. -/
private theorem exists_readToken_documentLayout (value : Binary64) :
    ∃ other, ∀ rest, EndsNumber rest →
      readToken ((documentLayout.render value).toList ++ rest) =
        some (.scalar (.real other), rest) := by
  cases value with
  | nan => exact ⟨.nan, fun _ _ => rfl⟩
  | infinite negative =>
    cases negative with
    | false => exact ⟨.infinite false, fun _ _ => rfl⟩
    | true => exact ⟨.infinite true, fun _ _ => rfl⟩
  | finite negative mantissa exponent =>
    have spelled : ∃ spelling : Spelling, (if mantissa = 0 then ['0', '.', '0']
        else documentLayout.renderPositive mantissa exponent) = spelling.text ∧
        spelling.IsReal := by
      split
      · exact ⟨⟨'0', [], ['0'], none, rfl, by simp, fun _ => rfl, List.forall_mem_singleton.2 rfl⟩,
          rfl, .inl (by simp)⟩
      · next nonzero => exact exists_spelling_positive _ (Nat.pos_of_ne_zero nonzero) exponent
    obtain ⟨spelling, text, real⟩ := spelled
    obtain ⟨other, token⟩ := token_of_isReal real negative
    refine ⟨other, fun rest ends => ?_⟩
    have number := readToken_text negative spelling ends
    rw [← token, ← number]
    simp only [RealLayout.render, text, String.toList_ofList, signText, List.append_assoc]

/-- A printed double is taken off a text as the double that its text is read as. -/
theorem readToken_documentLayout (value : Binary64) {rest : List Char} (ends : EndsNumber rest) :
    readToken ((documentLayout.render value).toList ++ rest) =
      some (.scalar (.real (readBackReal value)), rest) := by
  obtain ⟨other, read⟩ := exists_readToken_documentLayout value
  have alone := read [] (by simp [EndsNumber])
  rw [List.append_nil] at alone
  have same : readBackReal value = other := by
    rw [readBackReal, alone]
  rw [same, read rest ends]

end RepoAtlas.Json
