/-
Module: RepoAtlas.Json.Token
Purpose: The tokens of a JSON document and the reader that takes one token off a text.
  Numbers without fraction and exponent are integers.  Not-a-number and the infinities are accepted
  as words.  An integer with too many digits is a token of its own, so that only a document in which
  it stands at a sensible place is refused for it.  An escape that is half a surrogate pair without
  the other half stays in the text as a lone surrogate.
Main exports: Token, readString, readNumber, readToken, length_of_readToken
-/
import RepoAtlas.Json.Value
import RepoAtlas.Number.Reading

namespace RepoAtlas.Json

open Number Text.Utf8

/-- A token: a bracket, a separator, a value without parts, or an integer that is too long. -/
inductive Token where
  | openArray
  | closeArray
  | openObject
  | closeObject
  | comma
  | colon
  | scalar (value : Value)
  | oversized (digitCount : Nat)
deriving Inhabited

/-- The white space of a JSON document. -/
def isSpace (char : Char) : Bool :=
  char = ' ' || char = '\t' || char = '\n' || char = '\r'

/-- The value of a hexadecimal digit in either case. -/
def hexValue? (char : Char) : Option Nat :=
  if '0' ≤ char ∧ char ≤ '9' then some (char.toNat - 0x30)
  else if 'a' ≤ char ∧ char ≤ 'f' then some (char.toNat - 0x57)
  else if 'A' ≤ char ∧ char ≤ 'F' then some (char.toNat - 0x37)
  else none

/-- The value of four hexadecimal digits. -/
def hexValue4? (first second third fourth : Char) : Option Nat := do
  let a ← hexValue? first
  let b ← hexValue? second
  let c ← hexValue? third
  let d ← hexValue? fourth
  some (((a * 16 + b) * 16 + c) * 16 + d)

/-- The character a short escape stands for. -/
def shortEscape? : Char → Option Char
  | '"' => some '"'
  | '\\' => some '\\'
  | '/' => some '/'
  | 'b' => some '\x08'
  | 'f' => some '\x0c'
  | 'n' => some '\n'
  | 'r' => some '\r'
  | 't' => some '\t'
  | _ => none

/-- Whether a code is the first half of a surrogate pair. -/
def isHighSurrogate (code : Nat) : Bool :=
  0xD800 ≤ code && code ≤ 0xDBFF

/-- Whether a code is the second half of a surrogate pair. -/
def isLowSurrogate (code : Nat) : Bool :=
  0xDC00 ≤ code && code ≤ 0xDFFF

/-- The character of a surrogate pair. -/
def charOfPair (high low : Nat) : Char :=
  Char.ofNat (0x10000 + (high - 0xD800) * 0x400 + (low - 0xDC00))

/-- The second half of a surrogate pair, if the text goes on with one, and the text after it. -/
def readLowHalf? : List Char → Option (Nat × List Char)
  | '\\' :: 'u' :: a :: b :: c :: d :: rest =>
    match hexValue4? a b c d with
    | some code => if isLowSurrogate code then some (code, rest) else none
    | none => none
  | _ => none

theorem length_of_readLowHalf? {chars rest : List Char} {code : Nat}
    (read : readLowHalf? chars = some (code, rest)) : rest.length < chars.length := by
  unfold readLowHalf? at read
  split at read
  · split at read
    · split at read
      · cases read
        simp +arith
      · cases read
    · cases read
  · cases read

/-- Reads the rest of a string after its opening quote, with the code points read so far latest
first.  Control characters must be escaped. -/
def readString (done : Points) : List Char → Option (Points × List Char)
  | [] => none
  | '"' :: rest => some (done.reverse, rest)
  | '\\' :: 'u' :: a :: b :: c :: d :: rest =>
    match hexValue4? a b c d with
    | none => none
    | some code =>
      if isHighSurrogate code then
        match read : readLowHalf? rest with
        | some (low, tail) =>
          have := length_of_readLowHalf? read
          readString (.scalar (charOfPair code low) :: done) tail
        | none => readString (.ofCode code :: done) rest
      else readString (.ofCode code :: done) rest
  | '\\' :: escape :: rest =>
    match shortEscape? escape with
    | some char => readString (.scalar char :: done) rest
    | none => none
  | char :: rest =>
    if char = '\\' ∨ char.toNat < 0x20 then none else readString (.scalar char :: done) rest
termination_by chars => chars.length
decreasing_by all_goals simp only [List.length_cons]; omega

theorem length_of_readString {done text : Points} {chars rest : List Char}
    (read : readString done chars = some (text, rest)) : rest.length < chars.length := by
  fun_induction readString done chars <;> simp_all <;> omega

/-- Splits off the whole part of a number: a single zero, or digits that begin with another. -/
def takeWhole : List Char → Option (List Char × List Char)
  | [] => none
  | char :: rest =>
    if char = '0' then some (['0'], rest)
    else if isPlainDigit char then
      some (char :: rest.takeWhile isPlainDigit, rest.dropWhile isPlainDigit)
    else none

/-- Splits off a point and digits, if both are there. -/
def takeFraction : List Char → Option (List Char × List Char)
  | '.' :: rest =>
    let figures := rest.takeWhile isPlainDigit
    if figures.isEmpty then none else some (figures, rest.dropWhile isPlainDigit)
  | _ => none

/-- Splits off an exponent, if there is a complete one. -/
def takeExponent : List Char → Option (Int × List Char)
  | mark :: rest =>
    if mark = 'e' ∨ mark = 'E' then
      let (negative, tail) := takeSign rest
      let figures := tail.takeWhile isPlainDigit
      if figures.isEmpty then none
      else
        let size : Int := digitsValue figures
        some (if negative then -size else size, tail.dropWhile isPlainDigit)
    else none
  | [] => none

theorem length_dropWhile_le (test : Char → Bool) (chars : List Char) :
    (chars.dropWhile test).length ≤ chars.length :=
  (List.dropWhile_sublist test).length_le

theorem length_of_takeWhole {chars whole rest : List Char}
    (read : takeWhole chars = some (whole, rest)) : rest.length < chars.length := by
  unfold takeWhole at read
  split at read
  · cases read
  · next char tail =>
    have shorter := length_dropWhile_le isPlainDigit tail
    split at read
    · cases read
      simp
    · split at read
      · cases read
        simp only [List.length_cons]
        omega
      · cases read

theorem length_of_takeFraction {chars figures rest : List Char}
    (read : takeFraction chars = some (figures, rest)) : rest.length ≤ chars.length := by
  unfold takeFraction at read
  split at read
  · next tail =>
    have shorter := length_dropWhile_le isPlainDigit tail
    simp only at read
    split at read
    · cases read
    · cases read
      simp only [List.length_cons]
      omega
  · cases read

theorem length_takeSign_le (chars : List Char) : (takeSign chars).2.length ≤ chars.length := by
  unfold takeSign
  split <;> simp

theorem length_of_takeExponent {chars rest : List Char} {exponent : Int}
    (read : takeExponent chars = some (exponent, rest)) : rest.length ≤ chars.length := by
  unfold takeExponent at read
  split at read
  · next mark tail =>
    have signed := length_takeSign_le tail
    have shorter := length_dropWhile_le isPlainDigit (takeSign tail).2
    split at read
    · simp only at read
      split at read
      · cases read
      · cases read
        simp only [List.length_cons]
        omega
    · cases read
  · cases read

theorem length_getD_takeExponent_le (chars : List Char) :
    ((takeExponent chars).getD (0, chars)).2.length ≤ chars.length := by
  cases read : takeExponent chars with
  | none => simp
  | some result =>
    obtain ⟨exponent, rest⟩ := result
    simpa using length_of_takeExponent read

/-- The token of an integer's digits. -/
def integerToken (negative : Bool) (figures : List Char) : Token :=
  if integerDigitLimit < figures.length then .oversized figures.length
  else
    let size : Int := digitsValue figures
    .scalar (.integer (if negative then -size else size))

/-- Reads a number after its sign. -/
def readNumber (negative : Bool) (chars : List Char) : Option (Token × List Char) := do
  let (whole, rest) ← takeWhole chars
  match takeFraction rest with
  | some (fraction, rest) =>
    let (exponent, rest) := (takeExponent rest).getD (0, rest)
    let decimal : Decimal := ⟨digitsValue (whole ++ fraction), exponent - fraction.length⟩
    some (.scalar (.real (decimal.toBinary64 negative)), rest)
  | none =>
    match takeExponent rest with
    | some (exponent, rest) =>
      let decimal : Decimal := ⟨digitsValue whole, exponent⟩
      some (.scalar (.real (decimal.toBinary64 negative)), rest)
    | none => some (integerToken negative whole, rest)

theorem length_of_readNumber {negative : Bool} {chars rest : List Char} {token : Token}
    (read : readNumber negative chars = some (token, rest)) : rest.length < chars.length := by
  unfold readNumber at read
  cases whole : takeWhole chars with
  | none => simp [whole] at read
  | some parts =>
    obtain ⟨figures, tail⟩ := parts
    have first := length_of_takeWhole whole
    simp only [whole, Option.bind_eq_bind, Option.bind_some] at read
    cases fraction : takeFraction tail with
    | some parts =>
      obtain ⟨fractional, after⟩ := parts
      have second := length_of_takeFraction fraction
      have third := length_getD_takeExponent_le after
      simp only [fraction, Option.some.injEq, Prod.mk.injEq] at read
      rw [← read.2]
      omega
    | none =>
      simp only [fraction] at read
      cases exponent : takeExponent tail with
      | some parts =>
        obtain ⟨power, after⟩ := parts
        have second := length_of_takeExponent exponent
        simp only [exponent, Option.some.injEq, Prod.mk.injEq] at read
        rw [← read.2]
        omega
      | none =>
        simp only [exponent, Option.some.injEq, Prod.mk.injEq] at read
        rw [← read.2]
        omega

/-- Splits off a fixed word. -/
def takeWord : (word chars : List Char) → Option (List Char)
  | [], chars => some chars
  | _ :: _, [] => none
  | letter :: word, char :: chars => if letter = char then takeWord word chars else none

theorem length_of_takeWord {word chars rest : List Char}
    (read : takeWord word chars = some rest) : rest.length + word.length = chars.length := by
  fun_induction takeWord word chars <;> simp_all
  omega

/-- The words that stand for values. -/
def words : List (List Char × Value) := [
  ("null".toList, .null),
  ("true".toList, .boolean true),
  ("false".toList, .boolean false),
  ("NaN".toList, .real .nan),
  ("Infinity".toList, .real (.infinite false)),
  ("-Infinity".toList, .real (.infinite true))]

/-- Reads the first word that the text begins with. -/
def readWord (chars : List Char) : List (List Char × Value) → Option (Token × List Char)
  | [] => none
  | (word, value) :: others =>
    match takeWord word chars with
    | some rest => some (.scalar value, rest)
    | none => readWord chars others

theorem length_of_readWord {chars rest : List Char} {token : Token}
    {choices : List (List Char × Value)} (proper : ∀ choice ∈ choices, choice.1 ≠ [])
    (read : readWord chars choices = some (token, rest)) : rest.length < chars.length := by
  induction choices with
  | nil => simp [readWord] at read
  | cons choice others ih =>
    obtain ⟨word, value⟩ := choice
    unfold readWord at read
    split at read
    · next tail found =>
      have size := length_of_takeWord found
      have some_letter := List.length_pos_iff.2 (proper (word, value) (by simp))
      cases read
      simp only at some_letter
      omega
    · exact ih (fun choice member => proper choice (by simp [member])) read

/-- Takes one token off a text that begins with no white space. -/
def readToken (chars : List Char) : Option (Token × List Char) :=
  match chars with
  | [] => none
  | '[' :: rest => some (.openArray, rest)
  | ']' :: rest => some (.closeArray, rest)
  | ',' :: rest => some (.comma, rest)
  | ':' :: rest => some (.colon, rest)
  | '"' :: rest => (readString [] rest).map (fun (text, rest) => (.scalar (.string text), rest))
  | char :: rest =>
    if char = '\x7b' then some (.openObject, rest)
    else if char = '\x7d' then some (.closeObject, rest)
    else
      match readWord chars words with
      | some result => some result
      | none => if char = '-' then readNumber true rest else readNumber false chars

/-- Taking a token off a text leaves less of it. -/
theorem length_of_readToken {chars rest : List Char} {token : Token}
    (read : readToken chars = some (token, rest)) : rest.length < chars.length := by
  unfold readToken at read
  split at read
  · cases read
  · cases read; simp
  · cases read; simp
  · cases read; simp
  · cases read; simp
  · next tail =>
    cases text : readString [] tail with
    | none => simp [text] at read
    | some parts =>
      obtain ⟨content, after⟩ := parts
      have shorter := length_of_readString text
      simp only [text, Option.map_some, Option.some.injEq, Prod.mk.injEq] at read
      simp only [← read.2, List.length_cons]
      omega
  · next char tail _ _ _ _ _ =>
    split at read
    · cases read; simp
    · split at read
      · cases read; simp
      · split at read
        · next result found =>
          cases read
          exact length_of_readWord (by simp [words]) found
        · split at read
          · have shorter := length_of_readNumber read
            simp only [List.length_cons]
            omega
          · exact length_of_readNumber read

end RepoAtlas.Json
