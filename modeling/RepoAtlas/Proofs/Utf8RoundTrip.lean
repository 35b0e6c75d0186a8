/-
Module: RepoAtlas.Proofs.Utf8RoundTrip
Purpose: Strict reading undoes writing.
  The bytes of a character are read back as that character whatever follows them, so the bytes of a
  text of characters are read back as that text.  The ranges that keep out overlong forms and
  surrogates never refuse the bytes of a character.
Main exports: readChar_encodeChar, decode_encodeChars
-/
import RepoAtlas.Text.Utf8
import Mathlib.Data.Char

namespace RepoAtlas.Text.Utf8

/-- The last six bits of a number as a continuation byte. -/
private def tailByte (value : Nat) : UInt8 :=
  UInt8.ofNat (0x80 + value % 0x40)

private theorem toNat_ofNat_of_lt (value : Nat) (small : value < 0x100) :
    (UInt8.ofNat value).toNat = value := by
  rw [UInt8.toNat_ofNat']
  exact Nat.mod_eq_of_lt small

private theorem toNat_tailByte (value : Nat) : (tailByte value).toNat = 0x80 + value % 0x40 := by
  apply toNat_ofNat_of_lt
  omega

private theorem payload_tailByte (value : Nat) : payload (tailByte value) = value % 0x40 := by
  rw [payload, toNat_tailByte]
  omega

private theorem isContinuation_tailByte (value : Nat) : isContinuation (tailByte value) = true := by
  simp only [isContinuation, Bool.and_eq_true, decide_eq_true_eq, UInt8.le_iff_toNat_le,
    toNat_tailByte, UInt8.reduceToNat]
  omega

/-- The second byte of a sequence is accepted when the narrower ranges are respected. -/
private theorem isSecond_tailByte {lead : UInt8} {value : Nat}
    (overlong3 : lead.toNat = 0xE0 → 0x20 ≤ value % 0x40)
    (overlong4 : lead.toNat = 0xF0 → 0x10 ≤ value % 0x40)
    (surrogate : lead.toNat = 0xED → value % 0x40 < 0x20)
    (beyond : lead.toNat = 0xF4 → value % 0x40 < 0x10) :
    isSecond lead (tailByte value) = true := by
  have same (code : UInt8) : lead = code ↔ lead.toNat = code.toNat := UInt8.toNat_inj.symm
  simp only [isSecond, same, UInt8.reduceToNat, Bool.and_eq_true, decide_eq_true_eq,
    UInt8.le_iff_toNat_le, toNat_tailByte]
  constructor
  · split
    · simp only [UInt8.reduceToNat]
      omega
    · split <;> simp only [UInt8.reduceToNat] <;> omega
  · split
    · simp only [UInt8.reduceToNat]
      omega
    · split <;> simp only [UInt8.reduceToNat] <;> omega

/-- One byte for a character below `0x80`. -/
private theorem readChar_one {char : Char} (small : char.toNat < 0x80) (rest : List UInt8) :
    readChar (UInt8.ofNat char.toNat) rest = .ok (char, rest) := by
  have lead := toNat_ofNat_of_lt char.toNat (by omega)
  have ascii : UInt8.ofNat char.toNat < 0x80 := by
    simpa only [UInt8.lt_iff_toNat_lt, lead, UInt8.reduceToNat] using small
  unfold readChar
  rw [if_pos ascii, lead, Char.ofNat_toNat]

/-- Two bytes for a character below `0x800`. -/
private theorem readChar_two {char : Char} (large : 0x80 ≤ char.toNat) (small : char.toNat < 0x800)
    (rest : List UInt8) :
    readChar (UInt8.ofNat (0xC0 + char.toNat / 0x40)) (tailByte char.toNat :: rest) =
      .ok (char, rest) := by
  have lead := toNat_ofNat_of_lt (0xC0 + char.toNat / 0x40) (by omega)
  have second : isSecond (UInt8.ofNat (0xC0 + char.toNat / 0x40)) (tailByte char.toNat) = true := by
    apply isSecond_tailByte <;> omega
  have value : (0xC0 + char.toNat / 0x40 - 0xC0) * 0x40 + char.toNat % 0x40 = char.toNat := by
    omega
  simp only [readChar, UInt8.lt_iff_toNat_lt, lead, UInt8.reduceToNat, second, payload_tailByte,
    value, Char.ofNat_toNat, Bool.or_eq_true, decide_eq_true_eq, Bool.not_true, Bool.false_eq_true,
    if_false]
  rw [if_neg (by omega), if_neg (by omega), if_pos (by omega)]

/-- Three bytes for a character below `0x10000`.  It is no surrogate. -/
private theorem readChar_three {char : Char} (large : 0x800 ≤ char.toNat)
    (small : char.toNat < 0x10000) (rest : List UInt8) :
    readChar (UInt8.ofNat (0xE0 + char.toNat / 0x1000))
      (tailByte (char.toNat / 0x40) :: tailByte char.toNat :: rest) = .ok (char, rest) := by
  have valid : char.toNat < 0xD800 ∨ 0xDFFF < char.toNat ∧ char.toNat < 0x110000 := char.valid
  have lead := toNat_ofNat_of_lt (0xE0 + char.toNat / 0x1000) (by omega)
  have second : isSecond (UInt8.ofNat (0xE0 + char.toNat / 0x1000))
      (tailByte (char.toNat / 0x40)) = true := by
    apply isSecond_tailByte <;> omega
  have value : (0xE0 + char.toNat / 0x1000 - 0xE0) * 0x1000 + char.toNat / 0x40 % 0x40 * 0x40 +
      char.toNat % 0x40 = char.toNat := by
    omega
  simp only [readChar, UInt8.lt_iff_toNat_lt, lead, UInt8.reduceToNat, second,
    isContinuation_tailByte, payload_tailByte, value, Char.ofNat_toNat, Bool.or_eq_true,
    decide_eq_true_eq, Bool.not_true, Bool.false_eq_true, if_false]
  rw [if_neg (by omega), if_neg (by omega), if_neg (by omega), if_pos (by omega)]

/-- Four bytes for any other character. -/
private theorem readChar_four {char : Char} (large : 0x10000 ≤ char.toNat) (rest : List UInt8) :
    readChar (UInt8.ofNat (0xF0 + char.toNat / 0x40000))
      (tailByte (char.toNat / 0x1000) :: tailByte (char.toNat / 0x40) :: tailByte char.toNat ::
        rest) = .ok (char, rest) := by
  have valid : char.toNat < 0xD800 ∨ 0xDFFF < char.toNat ∧ char.toNat < 0x110000 := char.valid
  have lead := toNat_ofNat_of_lt (0xF0 + char.toNat / 0x40000) (by omega)
  have second : isSecond (UInt8.ofNat (0xF0 + char.toNat / 0x40000))
      (tailByte (char.toNat / 0x1000)) = true := by
    apply isSecond_tailByte <;> omega
  have value : (0xF0 + char.toNat / 0x40000 - 0xF0) * 0x40000 +
      char.toNat / 0x1000 % 0x40 * 0x1000 + char.toNat / 0x40 % 0x40 * 0x40 +
      char.toNat % 0x40 = char.toNat := by
    omega
  simp only [readChar, UInt8.lt_iff_toNat_lt, lead, UInt8.reduceToNat, second,
    isContinuation_tailByte, payload_tailByte, value, Char.ofNat_toNat, Bool.or_eq_true,
    decide_eq_true_eq, Bool.not_true, Bool.false_eq_true, if_false]
  rw [if_neg (by omega), if_neg (by omega), if_neg (by omega), if_neg (by omega)]

/-- The bytes of a character are read as that character, whatever follows them. -/
theorem readChar_encodeChar (char : Char) (rest : List UInt8) :
    ∃ lead tail, encodeChar char = lead :: tail ∧
      readChar lead (tail ++ rest) = .ok (char, rest) := by
  by_cases one : char.toNat < 0x80
  · refine ⟨UInt8.ofNat char.toNat, [], ?_, readChar_one one rest⟩
    simp [encodeChar, one]
  by_cases two : char.toNat < 0x800
  · refine ⟨_, [tailByte char.toNat], ?_, readChar_two (by omega) two rest⟩
    simp [encodeChar, one, two, tailByte]
  by_cases three : char.toNat < 0x10000
  · refine ⟨_, [tailByte (char.toNat / 0x40), tailByte char.toNat], ?_,
      readChar_three (by omega) three rest⟩
    simp [encodeChar, one, two, three, tailByte]
  · refine ⟨_, [tailByte (char.toNat / 0x1000), tailByte (char.toNat / 0x40),
      tailByte char.toNat], ?_, readChar_four (by omega) rest⟩
    simp [encodeChar, one, two, three, tailByte]

/-- The invariant of reading: the characters so far, followed by those still to come. -/
private theorem decodeFrom_encodeChars (chars done : List Char) (position : Nat) :
    decodeFrom position done (encodeChars chars) = .ok (done.reverse ++ chars) := by
  induction chars generalizing done position with
  | nil => simp [encodeChars, decodeFrom]
  | cons char chars ih =>
    obtain ⟨lead, tail, bytes, read⟩ := readChar_encodeChar char (encodeChars chars)
    have split : encodeChars (char :: chars) = lead :: (tail ++ encodeChars chars) := by
      simp [encodeChars, bytes]
    rw [split, decodeFrom]
    split
    · next extent flaw failed =>
      rw [read] at failed
      cases failed
    · next other after found =>
      rw [read] at found
      cases found
      rw [ih]
      simp

/-- The bytes of a text are read back as that text. -/
theorem decode_encodeChars (chars : List Char) : decode (encodeChars chars) = .ok chars :=
  decodeFrom_encodeChars chars [] 0

end RepoAtlas.Text.Utf8
