/-
Module: RepoAtlas.Proofs.EscapedReading
Purpose: Reading undone by writing, for every byte string.
  What is read as a character has that character's bytes, so strict reading accepts exactly the bytes
  of texts.  Escaping reading accepts everything: writing gives back the very bytes, and a surrogate
  is left exactly where strict reading fails.
Main exports: encodeChar_eq_utf8EncodeChar, eq_append_of_readChar, readingRec, decode_eq_ok_iff,
  isValidUTF8_iff, findUnencodable_eq_none_iff, encode_decodeEscaping, scalars?_decodeEscaping
-/
import RepoAtlas.Proofs.Utf8RoundTrip
import RepoAtlas.Text.Utf8
import Mathlib.Data.Char

namespace RepoAtlas.Text.Utf8

/-! ### The bytes of what is read as one character -/

theorem toNat_ofNat_of_valid (code : Nat) (valid : code.isValidChar) :
    (Char.ofNat code).toNat = code := by
  unfold Char.ofNat
  rw [dif_pos valid]
  rfl

/-- A byte is determined by its value. -/
private theorem ofNat_eq_of_toNat (byte : UInt8) {value : Nat} (same : value = byte.toNat) :
    UInt8.ofNat value = byte := by
  rw [same, UInt8.ofNat_toNat]

private theorem encodeChar_one {lead : UInt8} (ascii : lead.toNat < 0x80) :
    encodeChar (Char.ofNat lead.toNat) = [lead] := by
  have code := toNat_ofNat_of_valid lead.toNat (.inl (by omega))
  simp [encodeChar, code, ascii]

private theorem encodeChar_two {lead second : UInt8} (low : 0xC2 ≤ lead.toNat)
    (high : lead.toNat < 0xE0) (lowSecond : 0x80 ≤ second.toNat) (highSecond : second.toNat ≤ 0xBF) :
    encodeChar (Char.ofNat ((lead.toNat - 0xC0) * 0x40 + payload second)) = [lead, second] := by
  unfold payload
  have code := toNat_ofNat_of_valid
    ((lead.toNat - 0xC0) * 0x40 + second.toNat % 0x40) (.inl (by omega))
  unfold encodeChar
  simp only [code]
  rw [if_neg (by omega), if_pos (by omega), ofNat_eq_of_toNat lead (by omega),
    ofNat_eq_of_toNat second (by omega)]

/-- The ranges of the second byte keep the code of three bytes above `0x7FF` and off the
surrogates. -/
private theorem encodeChar_three {lead second third : UInt8} (low : 0xE0 ≤ lead.toNat)
    (high : lead.toNat < 0xF0) (lowSecond : 0x80 ≤ second.toNat) (highSecond : second.toNat ≤ 0xBF)
    (overlong : lead.toNat = 0xE0 → 0xA0 ≤ second.toNat)
    (surrogate : lead.toNat = 0xED → second.toNat ≤ 0x9F)
    (lowThird : 0x80 ≤ third.toNat) (highThird : third.toNat ≤ 0xBF) :
    encodeChar (Char.ofNat
      ((lead.toNat - 0xE0) * 0x1000 + payload second * 0x40 + payload third)) =
        [lead, second, third] := by
  unfold payload
  have code := toNat_ofNat_of_valid ((lead.toNat - 0xE0) * 0x1000 +
    second.toNat % 0x40 * 0x40 + third.toNat % 0x40) (by unfold Nat.isValidChar; omega)
  unfold encodeChar
  simp only [code]
  rw [if_neg (by omega), if_neg (by omega), if_pos (by omega),
    ofNat_eq_of_toNat lead (by omega), ofNat_eq_of_toNat second (by omega),
    ofNat_eq_of_toNat third (by omega)]

/-- The ranges of the second byte keep the code of four bytes above `0xFFFF` and below
`0x110000`. -/
private theorem encodeChar_four {lead second third fourth : UInt8} (low : 0xF0 ≤ lead.toNat)
    (high : lead.toNat ≤ 0xF4) (lowSecond : 0x80 ≤ second.toNat) (highSecond : second.toNat ≤ 0xBF)
    (overlong : lead.toNat = 0xF0 → 0x90 ≤ second.toNat)
    (beyond : lead.toNat = 0xF4 → second.toNat ≤ 0x8F)
    (lowThird : 0x80 ≤ third.toNat) (highThird : third.toNat ≤ 0xBF)
    (lowFourth : 0x80 ≤ fourth.toNat) (highFourth : fourth.toNat ≤ 0xBF) :
    encodeChar (Char.ofNat ((lead.toNat - 0xF0) * 0x40000 + payload second * 0x1000 +
      payload third * 0x40 + payload fourth)) = [lead, second, third, fourth] := by
  unfold payload
  have code := toNat_ofNat_of_valid ((lead.toNat - 0xF0) * 0x40000 +
    second.toNat % 0x40 * 0x1000 + third.toNat % 0x40 * 0x40 + fourth.toNat % 0x40)
    (by unfold Nat.isValidChar; omega)
  unfold encodeChar
  simp only [code]
  rw [if_neg (by omega), if_neg (by omega), if_neg (by omega),
    ofNat_eq_of_toNat lead (by omega), ofNat_eq_of_toNat second (by omega),
    ofNat_eq_of_toNat third (by omega), ofNat_eq_of_toNat fourth (by omega)]

private theorem isContinuation_iff (byte : UInt8) :
    isContinuation byte = true ↔ 0x80 ≤ byte.toNat ∧ byte.toNat ≤ 0xBF := by
  simp [isContinuation, UInt8.le_iff_toNat_le]

/-- The second byte of a sequence is a continuation, within the narrower range of its lead. -/
private theorem range_of_isSecond {lead second : UInt8} (accepted : isSecond lead second = true) :
    0x80 ≤ second.toNat ∧ second.toNat ≤ 0xBF ∧ (lead.toNat = 0xE0 → 0xA0 ≤ second.toNat) ∧
      (lead.toNat = 0xF0 → 0x90 ≤ second.toNat) ∧ (lead.toNat = 0xED → second.toNat ≤ 0x9F) ∧
      (lead.toNat = 0xF4 → second.toNat ≤ 0x8F) := by
  have same (code : UInt8) : lead = code ↔ lead.toNat = code.toNat := UInt8.toNat_inj.symm
  simp only [isSecond, same, UInt8.reduceToNat, Bool.and_eq_true, decide_eq_true_eq,
    UInt8.le_iff_toNat_le] at accepted
  obtain ⟨low, high⟩ := accepted
  split_ifs at low high <;> simp only [UInt8.reduceToNat] at low high <;> omega

private theorem not_lt_of_not {byte bound : UInt8} (refused : ¬ byte < bound) :
    bound.toNat ≤ byte.toNat := by
  rw [UInt8.lt_iff_toNat_lt] at refused
  omega

private theorem range_of_lead {lead : UInt8} (start : ¬ (lead < 0xC2 || 0xF4 < lead) = true) :
    0xC2 ≤ lead.toNat ∧ lead.toNat ≤ 0xF4 := by
  simpa [UInt8.lt_iff_toNat_lt] using start

/-- What is read as a character has the bytes of that character. -/
theorem eq_append_of_readChar {lead : UInt8} {rest tail : List UInt8} {char : Char}
    (read : readChar lead rest = .ok (char, tail)) : lead :: rest = encodeChar char ++ tail := by
  revert read
  -- One case for each number of bytes; the others are the flaws.
  fun_cases readChar lead rest with
  | case1 _ ascii =>
    intro read
    cases read
    rw [encodeChar_one (UInt8.lt_iff_toNat_lt.1 ascii)]
    rfl
  | case5 large start second rest accepted short =>
    intro read
    cases read
    have lead := range_of_lead start
    have range := range_of_isSecond (by simpa using accepted)
    rw [encodeChar_two lead.1 (UInt8.lt_iff_toNat_lt.1 short) range.1 range.2.1]
    rfl
  | case8 large start second accepted long third rest continued short =>
    intro read
    cases read
    obtain ⟨low, high, overlong, _, surrogate, _⟩ := range_of_isSecond (by simpa using accepted)
    have range := (isContinuation_iff third).1 (by simpa using continued)
    rw [encodeChar_three (not_lt_of_not long) (UInt8.lt_iff_toNat_lt.1 short) low high overlong
      surrogate range.1 range.2]
    rfl
  | case11 large start second accepted _ third continued long fourth rest ended =>
    intro read
    cases read
    have lead := range_of_lead start
    obtain ⟨low, high, _, overlong, _, beyond⟩ := range_of_isSecond (by simpa using accepted)
    have range := (isContinuation_iff third).1 (by simpa using continued)
    have range' := (isContinuation_iff fourth).1 (by simpa using ended)
    rw [encodeChar_four (not_lt_of_not long) lead.2 low high overlong beyond range.1 range.2
      range'.1 range'.2]
    rfl
  | case2 | case3 | case4 | case6 | case7 | case9 | case10 =>
    intro read
    cases read

/-- A byte that begins no character is not ASCII. -/
theorem le_of_readChar_error {lead : UInt8} {rest : List UInt8} {flaw : Nat × Flaw}
    (failed : readChar lead rest = .error flaw) : 0x80 ≤ lead.toNat := by
  by_contra ascii
  have small : lead < 0x80 := UInt8.lt_iff_toNat_lt.2 (Nat.lt_of_not_le ascii)
  unfold readChar at failed
  rw [if_pos small] at failed
  cases failed

/-! ### Whole byte strings -/

/-- Induction along reading: a character and the bytes after it, or a byte that begins none. -/
theorem readingRec {motive : List UInt8 → Prop} (nil : motive [])
    (character : ∀ lead rest char tail, readChar lead rest = .ok (char, tail) → motive tail →
      motive (lead :: rest))
    (flawed : ∀ lead rest flaw, readChar lead rest = .error flaw → motive rest →
      motive (lead :: rest)) (bytes : List UInt8) : motive bytes := by
  induction size : bytes.length using Nat.strongRecOn generalizing bytes with
  | ind size ih =>
    cases bytes with
    | nil => exact nil
    | cons lead rest =>
      rw [List.length_cons] at size
      rcases read : readChar lead rest with flaw | ⟨char, tail⟩
      · exact flawed lead rest flaw read (ih rest.length (by omega) rest rfl)
      · have shorter := length_of_readChar read
        exact character lead rest char tail read (ih tail.length (by omega) tail rfl)

section Steps

variable {lead : UInt8} {rest tail : List UInt8} {char : Char} {flaw : Nat × Flaw}

theorem decodeFrom_of_char (read : readChar lead rest = .ok (char, tail)) (position : Nat)
    (done : List Char) :
    decodeFrom position done (lead :: rest) =
      decodeFrom (position + (1 + rest.length - tail.length)) (char :: done) tail := by
  rw [decodeFrom]
  split
  · next failed => cases read.symm.trans failed
  · next found =>
    cases read.symm.trans found
    rfl

theorem decodeFrom_of_flaw (failed : readChar lead rest = .error flaw) (position : Nat)
    (done : List Char) :
    decodeFrom position done (lead :: rest) = .error ⟨position, flaw.1, lead, flaw.2⟩ := by
  rw [decodeFrom]
  split
  · next found =>
    cases failed.symm.trans found
    rfl
  · next read => cases failed.symm.trans read

theorem decodeEscapingFrom_of_char (read : readChar lead rest = .ok (char, tail))
    (done : List CodePoint) :
    decodeEscapingFrom done (lead :: rest) = decodeEscapingFrom (.scalar char :: done) tail := by
  rw [decodeEscapingFrom]
  split
  · next failed => cases read.symm.trans failed
  · next found =>
    cases read.symm.trans found
    rfl

theorem decodeEscapingFrom_of_flaw (failed : readChar lead rest = .error flaw)
    (done : List CodePoint) :
    decodeEscapingFrom done (lead :: rest) = decodeEscapingFrom (escapeByte lead :: done) rest := by
  rw [decodeEscapingFrom]
  split
  · rfl
  · next read => cases failed.symm.trans read

end Steps

/-- Strict reading accepts only the bytes of a text. -/
theorem eq_encodeChars_of_decodeFrom {bytes : List UInt8} {position : Nat}
    {done chars : List Char} (decoded : decodeFrom position done bytes = .ok chars) :
    ∃ more, chars = done.reverse ++ more ∧ bytes = encodeChars more := by
  induction bytes using readingRec generalizing position done with
  | nil =>
    rw [decodeFrom] at decoded
    cases decoded
    exact ⟨[], by simp, rfl⟩
  | character lead rest char tail read ih =>
    rw [decodeFrom_of_char read] at decoded
    obtain ⟨more, rfl, rfl⟩ := ih decoded
    refine ⟨char :: more, by simp, ?_⟩
    rw [eq_append_of_readChar read]
    rfl
  | flawed lead rest flaw failed ih =>
    rw [decodeFrom_of_flaw failed] at decoded
    cases decoded

/-- Strict reading accepts exactly the bytes of texts, and reads them as those texts. -/
theorem decode_eq_ok_iff (bytes : List UInt8) (chars : List Char) :
    decode bytes = .ok chars ↔ bytes = encodeChars chars := by
  constructor
  · intro decoded
    obtain ⟨more, same, rfl⟩ := eq_encodeChars_of_decodeFrom decoded
    rw [same]
    rfl
  · rintro rfl
    exact decode_encodeChars chars

/-- The bytes of a character are those that strings are stored in. -/
theorem encodeChar_eq_utf8EncodeChar (char : Char) :
    encodeChar char = String.utf8EncodeChar char := by
  have valid : char.toNat < 0xD800 ∨ 0xDFFF < char.toNat ∧ char.toNat < 0x110000 := char.valid
  have code : char.val.toNat = char.toNat := rfl
  unfold encodeChar String.utf8EncodeChar
  simp only [code]
  by_cases one : char.toNat < 0x80
  · rw [if_pos one, if_pos (by omega)]
  by_cases two : char.toNat < 0x800
  · rw [if_neg one, if_pos two, if_neg (by omega), if_pos (by omega),
      show 0xC0 + char.toNat / 0x40 = char.toNat / 64 % 32 + 192 by omega,
      Nat.add_comm 0x80]
  by_cases three : char.toNat < 0x10000
  · rw [if_neg one, if_neg two, if_pos three, if_neg (by omega), if_neg (by omega),
      if_pos (by omega), show 0xE0 + char.toNat / 0x1000 = char.toNat / 4096 % 16 + 224 by omega,
      Nat.add_comm 0x80, Nat.add_comm 0x80]
  · rw [if_neg one, if_neg two, if_neg three, if_neg (by omega), if_neg (by omega),
      if_neg (by omega), show 0xF0 + char.toNat / 0x40000 = char.toNat / 262144 % 8 + 240 by omega,
      Nat.add_comm 0x80, Nat.add_comm 0x80, Nat.add_comm 0x80]

/-- Strict reading accepts exactly the byte strings that are UTF-8. -/
theorem isValidUTF8_iff (bytes : List UInt8) :
    bytes.toByteArray.IsValidUTF8 ↔ ∃ chars, decode bytes = .ok chars := by
  have stored (chars : List Char) :
      bytes.toByteArray = chars.utf8Encode ↔ bytes = encodeChars chars := by
    have same : encodeChars chars = chars.flatMap String.utf8EncodeChar := by
      rw [encodeChars, funext encodeChar_eq_utf8EncodeChar]
    rw [same, List.utf8Encode, List.toByteArray_inj]
  constructor
  · rintro ⟨chars, written⟩
    exact ⟨chars, (decode_eq_ok_iff bytes chars).2 ((stored chars).1 written)⟩
  · rintro ⟨chars, decoded⟩
    exact ⟨chars, (stored chars).2 ((decode_eq_ok_iff bytes chars).1 decoded)⟩

/-! ### Escaping reading -/

/-- Whether a code point has bytes: a character, or a surrogate that stands for one. -/
def CodePoint.IsWritable : CodePoint → Prop
  | .scalar _ => True
  | .surrogate offset => isEscape offset = true

theorem findUnencodable_eq_none_iff (position : Nat) (points : List CodePoint) :
    findUnencodable position points = none ↔ ∀ point ∈ points, point.IsWritable := by
  induction points generalizing position with
  | nil => simp [findUnencodable]
  | cons point rest ih =>
    rw [List.forall_mem_cons, ← ih (position + 1)]
    cases point with
    | scalar char => exact (and_iff_right trivial).symm
    | surrogate offset =>
      rw [findUnencodable, CodePoint.IsWritable]
      cases isEscape offset <;> simp

/-- The surrogate for a byte that begins no character stands for that byte. -/
theorem escapeByte_of_le {byte : UInt8} (large : 0x80 ≤ byte.toNat) :
    (escapeByte byte).IsWritable ∧ (escapeByte byte).bytes = [byte] ∧
      (escapeByte byte).isSurrogate = true := by
  have small := byte.toNat_lt
  have offset : (0x400 + byte.toNat) % 0x800 = 0x400 + byte.toNat := by omega
  have escape : isEscape ⟨(0x400 + byte.toNat) % 0x800, Nat.mod_lt _ (by decide)⟩ = true := by
    simp only [isEscape, offset, Bool.and_eq_true, decide_eq_true_eq]
    omega
  refine ⟨escape, ?_, rfl⟩
  simp only [escapeByte, CodePoint.bytes]
  rw [if_pos escape, offset, Nat.add_sub_cancel_left, UInt8.ofNat_toNat]

/-- What escaping reading adds to the code points so far: each has bytes, and together they have the
bytes that were read. -/
theorem decodeEscapingFrom_spec (bytes : List UInt8) (done : List CodePoint) :
    ∃ more, decodeEscapingFrom done bytes = done.reverse ++ more ∧
      (∀ point ∈ more, point.IsWritable) ∧ more.flatMap CodePoint.bytes = bytes := by
  induction bytes using readingRec generalizing done with
  | nil => exact ⟨[], by simp [decodeEscapingFrom], by simp, rfl⟩
  | character lead rest char tail read ih =>
    obtain ⟨more, points, writable, written⟩ := ih (.scalar char :: done)
    refine ⟨.scalar char :: more, ?_, ?_, ?_⟩
    · rw [decodeEscapingFrom_of_char read, points]
      simp
    · intro point member
      rcases List.mem_cons.1 member with rfl | later
      · trivial
      · exact writable point later
    · rw [List.flatMap_cons, written, eq_append_of_readChar read]
      rfl
  | flawed lead rest flaw failed ih =>
    obtain ⟨more, points, writable, written⟩ := ih (escapeByte lead :: done)
    obtain ⟨escapes, byte, _⟩ := escapeByte_of_le (le_of_readChar_error failed)
    refine ⟨escapeByte lead :: more, ?_, ?_, ?_⟩
    · rw [decodeEscapingFrom_of_flaw failed, points]
      simp
    · intro point member
      rcases List.mem_cons.1 member with rfl | later
      · exact escapes
      · exact writable point later
    · rw [List.flatMap_cons, written, byte]
      rfl

/-- Escaping reading loses no byte: writing gives back what was read. -/
theorem encode_decodeEscaping (bytes : List UInt8) :
    encode (decodeEscaping bytes) = .ok bytes := by
  obtain ⟨more, points, writable, written⟩ := decodeEscapingFrom_spec bytes []
  have read : decodeEscaping bytes = more := points
  simp only [encode, read, (findUnencodable_eq_none_iff 0 more).2 writable, written]

/-- Escaping reading beside strict reading.  Both read the same characters, until strict reading
fails and escaping reading leaves a surrogate. -/
theorem decodeEscapingFrom_beside (bytes : List UInt8) (position : Nat) (done : List Char)
    (points : List CodePoint) :
    (∃ more, decodeFrom position done bytes = .ok (done.reverse ++ more) ∧
        decodeEscapingFrom points bytes = points.reverse ++ more.map .scalar) ∨
      (∃ malformed, decodeFrom position done bytes = .error malformed) ∧
        ∃ point ∈ decodeEscapingFrom points bytes, point.isSurrogate = true := by
  induction bytes using readingRec generalizing position done points with
  | nil => exact .inl ⟨[], by simp [decodeFrom], by simp [decodeEscapingFrom]⟩
  | character lead rest char tail read ih =>
    rw [decodeFrom_of_char read, decodeEscapingFrom_of_char read]
    rcases ih _ (char :: done) (.scalar char :: points) with ⟨more, strict, escaping⟩ | failed
    · refine .inl ⟨char :: more, ?_, ?_⟩
      · rw [strict, List.reverse_cons, List.append_assoc]
        rfl
      · rw [escaping, List.reverse_cons, List.append_assoc]
        rfl
    · exact .inr failed
  | flawed lead rest flaw failed ih =>
    obtain ⟨_, _, surrogate⟩ := escapeByte_of_le (le_of_readChar_error failed)
    obtain ⟨more, escaping, _⟩ := decodeEscapingFrom_spec rest (escapeByte lead :: points)
    rw [decodeFrom_of_flaw failed, decodeEscapingFrom_of_flaw failed]
    exact .inr ⟨⟨_, rfl⟩, escapeByte lead, by simp [escaping], surrogate⟩

/-- The text that escaping reading gives has no surrogates exactly when strict reading succeeds, and
then both are the same text. -/
theorem scalars?_decodeEscaping (bytes : List UInt8) :
    scalars? (decodeEscaping bytes) = (decode bytes).toOption := by
  rcases decodeEscapingFrom_beside bytes 0 [] [] with
    ⟨more, strict, escaping⟩ | ⟨⟨malformed, strict⟩, point, member, surrogate⟩
  · have characters : (more.map CodePoint.scalar).any CodePoint.isSurrogate = false := by
      simp [CodePoint.isSurrogate]
    have same : (more.map CodePoint.scalar).filterMap CodePoint.char? = more := by
      rw [List.filterMap_map]
      exact List.filterMap_some
    rw [decode, strict, decodeEscaping, escaping]
    simp only [List.reverse_nil, List.nil_append, scalars?, characters, same]
    rfl
  · have present : (decodeEscaping bytes).any CodePoint.isSurrogate = true :=
      List.any_eq_true.2 ⟨point, member, surrogate⟩
    rw [decode, strict, scalars?, if_pos present]
    rfl

end RepoAtlas.Text.Utf8
