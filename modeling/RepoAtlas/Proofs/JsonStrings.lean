/-
Module: RepoAtlas.Proofs.JsonStrings
Purpose: Taking a printed string off a text gives the string back.
  The text is followed code point by code point: each escape, a surrogate pair included, is read as
  the code point it was made from, quotes, control characters and characters beyond the UTF-16 units
  included.  Only two lone surrogates that stand one after the other as the halves of a pair are lost:
  they are read as the character of that pair.
Main exports: IsUnpaired, isUnpaired_points, readString_escapePoint, readToken_renderString
-/
import RepoAtlas.Json.Printer
import RepoAtlas.Json.Reader
import Mathlib.Data.Char
import Mathlib.Data.List.Chain

namespace RepoAtlas.Json

open Text Text.Utf8

/-- Whether two code points are the halves of a surrogate pair. -/
def IsPair (first second : CodePoint) : Prop :=
  isHighSurrogate first.code = true ∧ isLowSurrogate second.code = true

/-- Whether no two neighbours in a text are the halves of a surrogate pair. -/
def IsUnpaired (text : Points) : Prop :=
  text.IsChain (fun first second => ¬ IsPair first second)

section CodePoints

theorem isSurrogate_eq_false (char : Char) :
    isHighSurrogate char.toNat = false ∧ isLowSurrogate char.toNat = false := by
  have valid : char.toNat < 0xD800 ∨ 0xDFFF < char.toNat ∧ char.toNat < 0x110000 := char.valid
  simp only [isHighSurrogate, isLowSurrogate, Bool.and_eq_false_iff, decide_eq_false_iff_not]
  omega

theorem ofCode_code (point : CodePoint) : CodePoint.ofCode point.code = point := by
  cases point with
  | scalar char =>
    have valid : char.toNat < 0xD800 ∨ 0xDFFF < char.toNat ∧ char.toNat < 0x110000 := char.valid
    have outside : ¬ (0xD800 ≤ char.toNat ∧ char.toNat ≤ 0xDFFF) := by omega
    rw [CodePoint.code, CodePoint.ofCode, dif_neg outside, Char.ofNat_toNat]
  | surrogate offset =>
    have inside : 0xD800 ≤ 0xD800 + offset.val ∧ 0xD800 + offset.val ≤ 0xDFFF := by omega
    rw [CodePoint.code, CodePoint.ofCode, dif_pos inside]
    simp

/-- A string has no surrogates, let alone the halves of a pair. -/
theorem isUnpaired_points (text : String) : IsUnpaired (points text) := by
  rw [IsUnpaired, points, List.isChain_map]
  apply List.Pairwise.isChain
  refine List.pairwise_of_forall (fun first second pair => ?_)
  exact absurd pair.1 (by rw [CodePoint.code, (isSurrogate_eq_false first).1]; decide)

end CodePoints

private theorem hexValue?_hexDigit : ∀ value < 16, hexValue? (hexDigit value) = some value := by
  decide

/-- The four digits of a UTF-16 unit are read as that unit. -/
private theorem hexValue4?_hexPadded (unit : Nat) (small : unit < 0x10000) :
    ∃ a b c d, hexPadded 4 unit = [a, b, c, d] ∧ hexValue4? a b c d = some unit := by
  refine ⟨_, _, _, _, rfl, ?_⟩
  unfold hexValue4?
  rw [hexValue?_hexDigit _ (by omega), hexValue?_hexDigit _ (by omega),
    hexValue?_hexDigit _ (by omega), hexValue?_hexDigit _ (by omega)]
  simp only [Option.bind_eq_bind, Option.bind_some, Option.some.injEq]
  omega

/-- The escape of a unit begins with a reverse solidus and goes on with its digits. -/
private theorem escapeUnit_append {unit : Nat} (small : unit < 0x10000) (rest : List Char) :
    ∃ a b c d, escapeUnit unit ++ rest = '\\' :: 'u' :: a :: b :: c :: d :: rest ∧
      hexValue4? a b c d = some unit := by
  obtain ⟨a, b, c, d, written, value⟩ := hexValue4?_hexPadded unit small
  exact ⟨a, b, c, d, by simp [escapeUnit, written], value⟩

/-- A unit is read as its code point, unless it is the first half of a pair that is completed. -/
private theorem readString_escapeUnit {unit : Nat} (small : unit < 0x10000) {rest : List Char}
    (alone : isHighSurrogate unit = true → readLowHalf? rest = none) (done : Points) :
    readString done (escapeUnit unit ++ rest) = readString (.ofCode unit :: done) rest := by
  obtain ⟨a, b, c, d, split, value⟩ := escapeUnit_append small rest
  rw [split, readString, value]
  by_cases high : isHighSurrogate unit = true
  · simp only [high, if_true]
    split
    · next found =>
      rw [alone high] at found
      cases found
    · rfl
  · simp [high]

/-- The escape of a unit shows a second half exactly if the unit is one. -/
private theorem readLowHalf?_escapeUnit {unit : Nat} (small : unit < 0x10000) (rest : List Char) :
    readLowHalf? (escapeUnit unit ++ rest) =
      if isLowSurrogate unit then some (unit, rest) else none := by
  obtain ⟨a, b, c, d, split, value⟩ := escapeUnit_append small rest
  simp [split, readLowHalf?, value]

/-- Two halves of a pair are read as one character. -/
private theorem readString_escapePair {high low : Nat} (isHigh : isHighSurrogate high = true)
    (isLow : isLowSurrogate low = true) (done : Points) (rest : List Char) :
    readString done (escapeUnit high ++ (escapeUnit low ++ rest)) =
      readString (.scalar (charOfPair high low) :: done) rest := by
  have smallHigh : high < 0x10000 := by
    simp only [isHighSurrogate, Bool.and_eq_true, decide_eq_true_eq] at isHigh
    omega
  have smallLow : low < 0x10000 := by
    simp only [isLowSurrogate, Bool.and_eq_true, decide_eq_true_eq] at isLow
    omega
  have second := readLowHalf?_escapeUnit smallLow rest
  rw [if_pos isLow] at second
  obtain ⟨a, b, c, d, split, value⟩ := escapeUnit_append smallHigh (escapeUnit low ++ rest)
  rw [split, readString, value]
  simp only [isHigh, if_true]
  split
  · next found =>
    rw [second] at found
    cases found
    rfl
  · next missing =>
    rw [second] at missing
    cases missing

/-- A character that is not escaped is read as itself. -/
theorem readString_plain {char : Char} (notQuote : char ≠ '"') (notEscape : char ≠ '\\')
    (visible : 0x20 ≤ char.toNat) (done : Points) (rest : List Char) :
    readString done (char :: rest) = readString (.scalar char :: done) rest := by
  have kept : ¬(char = '\\' ∨ char.toNat < 0x20) := by
    rintro (same | control)
    · exact notEscape same
    · omega
  rw [readString.eq_5 _ _ _ notQuote (fun _ _ _ _ _ same => absurd same notEscape)
    (fun _ _ same => absurd same notEscape), if_neg kept]

/-- A short escape is read as the character it stands for. -/
theorem readString_shortEscape {letter char : Char}
    (short : shortEscape? letter = some char) (notUnit : letter ≠ 'u') (done : Points)
    (rest : List Char) :
    readString done ('\\' :: letter :: rest) = readString (.scalar char :: done) rest := by
  rw [readString.eq_4 _ _ _ (fun _ _ _ _ _ same _ => notUnit same), short]

/-- How a character stands in a string: as a short escape, as itself, as one unit or as a pair. -/
private theorem escapeChar_cases (char : Char) :
    (∃ letter, escapeChar char = ['\\', letter] ∧ shortEscape? letter = some char ∧
        letter ≠ 'u') ∨
      (escapeChar char = [char] ∧ char ≠ '"' ∧ char ≠ '\\' ∧ 0x20 ≤ char.toNat) ∨
      (escapeChar char = escapeUnit char.toNat ∧ char.toNat < 0x10000) ∨
      (escapeChar char = escapeUnit (0xD800 + (char.toNat - 0x10000) / 0x400) ++
          escapeUnit (0xDC00 + (char.toNat - 0x10000) % 0x400) ∧ 0x10000 ≤ char.toNat) := by
  unfold escapeChar
  by_cases quote : char = '"'
  · exact .inl ⟨'"', if_pos quote, by rw [quote]; rfl, by decide⟩
  rw [if_neg quote]
  by_cases escape : char = '\\'
  · exact .inl ⟨'\\', if_pos escape, by rw [escape]; rfl, by decide⟩
  rw [if_neg escape]
  by_cases lineFeed : char = '\n'
  · exact .inl ⟨'n', if_pos lineFeed, by rw [lineFeed]; rfl, by decide⟩
  rw [if_neg lineFeed]
  by_cases carriage : char = '\r'
  · exact .inl ⟨'r', if_pos carriage, by rw [carriage]; rfl, by decide⟩
  rw [if_neg carriage]
  by_cases tab : char = '\t'
  · exact .inl ⟨'t', if_pos tab, by rw [tab]; rfl, by decide⟩
  rw [if_neg tab]
  by_cases backspace : char = '\x08'
  · exact .inl ⟨'b', if_pos backspace, by rw [backspace]; rfl, by decide⟩
  rw [if_neg backspace]
  by_cases formFeed : char = '\x0c'
  · exact .inl ⟨'f', if_pos formFeed, by rw [formFeed]; rfl, by decide⟩
  rw [if_neg formFeed]
  by_cases visible : 0x20 ≤ char.toNat ∧ char.toNat ≤ 0x7E
  · exact .inr (.inl ⟨if_pos visible, quote, escape, visible.1⟩)
  rw [if_neg visible]
  by_cases small : char.toNat < 0x10000
  · exact .inr (.inr (.inl ⟨if_pos small, small⟩))
  · exact .inr (.inr (.inr ⟨if_neg small, not_lt.1 small⟩))

/-- The two halves of a character beyond the units make up that character. -/
private theorem charOfPair_halves {char : Char} (large : 0x10000 ≤ char.toNat) :
    charOfPair (0xD800 + (char.toNat - 0x10000) / 0x400)
      (0xDC00 + (char.toNat - 0x10000) % 0x400) = char := by
  have code : 0x10000 + (0xD800 + (char.toNat - 0x10000) / 0x400 - 0xD800) * 0x400 +
      (0xDC00 + (char.toNat - 0x10000) % 0x400 - 0xDC00) = char.toNat := by
    omega
  rw [charOfPair, code, Char.ofNat_toNat]

/-- The text of a character inside a string is read as that character. -/
theorem readString_escapeChar (char : Char) (done : Points) (rest : List Char) :
    readString done (escapeChar char ++ rest) = readString (.scalar char :: done) rest := by
  have valid : char.toNat < 0xD800 ∨ 0xDFFF < char.toNat ∧ char.toNat < 0x110000 := char.valid
  rcases escapeChar_cases char with ⟨letter, written, short, notUnit⟩ |
    ⟨written, notQuote, notEscape, visible⟩ | ⟨written, small⟩ | ⟨written, large⟩
  · rw [written]
    exact readString_shortEscape short notUnit done rest
  · rw [written]
    exact readString_plain notQuote notEscape visible done rest
  · have alone : isHighSurrogate char.toNat = true → readLowHalf? rest = none := by
      rw [(isSurrogate_eq_false char).1]
      exact fun impossible => absurd impossible (by decide)
    rw [written, readString_escapeUnit small alone]
    exact congrArg (fun point => readString (point :: done) rest) (ofCode_code (.scalar char))
  · have high : isHighSurrogate (0xD800 + (char.toNat - 0x10000) / 0x400) = true := by
      simp only [isHighSurrogate, Bool.and_eq_true, decide_eq_true_eq]
      omega
    have low : isLowSurrogate (0xDC00 + (char.toNat - 0x10000) % 0x400) = true := by
      simp only [isLowSurrogate, Bool.and_eq_true, decide_eq_true_eq]
      omega
    rw [written, List.append_assoc, readString_escapePair high low, charOfPair_halves large]

/-- The text of a code point inside a string is read as that code point, unless it is the first half
of a pair that is completed. -/
theorem readString_escapePoint (point : CodePoint) {rest : List Char}
    (alone : isHighSurrogate point.code = true → readLowHalf? rest = none) (done : Points) :
    readString done (escapePoint point ++ rest) = readString (point :: done) rest := by
  cases point with
  | scalar char => exact readString_escapeChar char done rest
  | surrogate offset =>
    have small : 0xD800 + offset.val < 0x10000 := by omega
    rw [escapePoint, readString_escapeUnit small alone]
    exact congrArg (fun point => readString (point :: done) rest) (ofCode_code (.surrogate offset))

/-- A string that goes on with another code point than a second half completes no pair. -/
private theorem readLowHalf?_escapePoint {point : CodePoint}
    (notLow : isLowSurrogate point.code = false) (rest : List Char) :
    readLowHalf? (escapePoint point ++ rest) = none := by
  cases point with
  | scalar char =>
    have valid : char.toNat < 0xD800 ∨ 0xDFFF < char.toNat ∧ char.toNat < 0x110000 := char.valid
    rw [escapePoint]
    rcases escapeChar_cases char with ⟨letter, written, _, notUnit⟩ |
      ⟨written, _, notEscape, _⟩ | ⟨written, small⟩ | ⟨written, large⟩
    · rw [written]
      unfold readLowHalf?
      split
      · next same =>
        exact absurd (List.cons.inj (List.cons.inj same).2).1 notUnit
      · rfl
    · rw [written]
      unfold readLowHalf?
      split
      · next same => exact absurd (List.cons.inj same).1 notEscape
      · rfl
    · rw [written, readLowHalf?_escapeUnit small, (isSurrogate_eq_false char).2]
      rfl
    · have high : isLowSurrogate (0xD800 + (char.toNat - 0x10000) / 0x400) = false := by
        simp only [isLowSurrogate, Bool.and_eq_false_iff, decide_eq_false_iff_not]
        omega
      rw [written, List.append_assoc, readLowHalf?_escapeUnit (by omega), high]
      rfl
  | surrogate offset =>
    have apart : isLowSurrogate (0xD800 + offset.val) = false := notLow
    rw [escapePoint, readLowHalf?_escapeUnit (by omega), apart]
    rfl

/-- The invariant of reading a string: the code points so far, followed by those still to come. -/
private theorem readString_flatMap {text : Points} (unpaired : IsUnpaired text) (done : Points)
    (rest : List Char) :
    readString done (text.flatMap escapePoint ++ '"' :: rest) =
      some (done.reverse ++ text, rest) := by
  induction text generalizing done with
  | nil => simp [readString]
  | cons point text ih =>
    have alone : isHighSurrogate point.code = true →
        readLowHalf? (text.flatMap escapePoint ++ '"' :: rest) = none := by
      intro high
      cases text with
      | nil => rfl
      | cons next others =>
        have notPair := (List.isChain_cons_cons.1 unpaired).1
        have notLow : isLowSurrogate next.code = false := by
          rw [← Bool.not_eq_true]
          exact fun low => notPair ⟨high, low⟩
        rw [List.flatMap_cons, List.append_assoc]
        exact readLowHalf?_escapePoint notLow _
    rw [List.flatMap_cons, List.append_assoc, readString_escapePoint point alone,
      ih unpaired.tail]
    simp

/-- A printed string is taken off a text as that string. -/
theorem readToken_renderString {text : Points} (unpaired : IsUnpaired text) (rest : List Char) :
    readToken (renderString text ++ rest) = some (.scalar (.string text), rest) := by
  have split : renderString text ++ rest = '"' :: (text.flatMap escapePoint ++ '"' :: rest) := by
    simp [renderString]
  rw [split, readToken, readString_flatMap unpaired]
  simp

end RepoAtlas.Json
