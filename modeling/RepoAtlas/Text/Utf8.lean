/-
Module: RepoAtlas.Text.Utf8
Purpose: UTF-8 between byte strings and texts, with a lossless reading of arbitrary bytes.
  Strict reading gives characters or the first flaw.  Escaping reading never fails: each byte that
  belongs to no character becomes one of the 128 surrogates reserved for it, and writing turns that
  surrogate back into its byte.  A text may hold other lone surrogates, which have no bytes.
Main exports: CodePoint, Points, precedes, points, Flaw, Malformed, decode, decodeEscaping, encodeChar,
  Unencodable, encode, Malformed.message, Unencodable.message, scalars?
-/
import RepoAtlas.Text.Characters

namespace RepoAtlas.Text.Utf8

/-- A code point of a text: a character, or the lone surrogate `0xD800 + offset`. -/
inductive CodePoint where
  | scalar (char : Char)
  | surrogate (offset : Fin 0x800)
deriving DecidableEq, Repr, Inhabited

/-- A text that may hold lone surrogates. -/
abbrev Points := List CodePoint

/-- The number of a code point. -/
def CodePoint.code : CodePoint → Nat
  | .scalar char => char.toNat
  | .surrogate offset => 0xD800 + offset.val

/-- The code point of a number below `0x110000`. -/
def CodePoint.ofCode (code : Nat) : CodePoint :=
  if surrogate : 0xD800 ≤ code ∧ code ≤ 0xDFFF then .surrogate ⟨code - 0xD800, by omega⟩
  else .scalar (Char.ofNat code)

/-- Whether a text stands before another in code-point order, or is the same. -/
def precedes : Points → Points → Bool
  | [], _ => true
  | _ :: _, [] => false
  | first :: rest, second :: others =>
    first.code < second.code || first.code = second.code && precedes rest others

/-- The code points of a string, none of them a surrogate. -/
def points (text : String) : Points :=
  text.toList.map .scalar

instance : Coe String Points := ⟨points⟩

@[simp] theorem points_inj {first second : String} :
    points first = points second ↔ first = second := by
  rw [points, points, List.map_inj_right (fun _ _ => CodePoint.scalar.inj), String.toList_inj]

theorem points_injective : Function.Injective points :=
  fun _ _ => points_inj.1

/-- Why a byte sequence is not the encoding of a character. -/
inductive Flaw where
  | invalidStart
  | invalidContinuation
  | unexpectedEnd
deriving DecidableEq, Repr, Inhabited

/-- Whether a byte continues a sequence that an earlier byte began. -/
def isContinuation (byte : UInt8) : Bool :=
  0x80 ≤ byte && byte ≤ 0xBF

/-- Whether a byte may follow the leading byte of a sequence.  The narrower ranges keep out
overlong forms, surrogates and code points above the last one. -/
def isSecond (lead second : UInt8) : Bool :=
  let low : UInt8 := if lead = 0xE0 then 0xA0 else if lead = 0xF0 then 0x90 else 0x80
  let high : UInt8 := if lead = 0xED then 0x9F else if lead = 0xF4 then 0x8F else 0xBF
  low ≤ second && second ≤ high

/-- The six payload bits of a continuation byte. -/
def payload (byte : UInt8) : Nat :=
  byte.toNat % 0x40

/-- Reads one character whose first byte is `lead`, and gives the bytes after it.  On failure the
number says how many bytes, starting at `lead`, make up the faulty sequence. -/
def readChar (lead : UInt8) (rest : List UInt8) : Except (Nat × Flaw) (Char × List UInt8) :=
  if lead < 0x80 then .ok (Char.ofNat lead.toNat, rest)
  else if lead < 0xC2 || 0xF4 < lead then .error (1, .invalidStart)
  else
    match rest with
    | [] => .error (1, .unexpectedEnd)
    | second :: rest =>
      if !isSecond lead second then .error (1, .invalidContinuation)
      else if lead < 0xE0 then
        .ok (Char.ofNat ((lead.toNat - 0xC0) * 0x40 + payload second), rest)
      else
        match rest with
        | [] => .error (2, .unexpectedEnd)
        | third :: rest =>
          if !isContinuation third then .error (2, .invalidContinuation)
          else if lead < 0xF0 then
            .ok (Char.ofNat
              ((lead.toNat - 0xE0) * 0x1000 + payload second * 0x40 + payload third), rest)
          else
            match rest with
            | [] => .error (3, .unexpectedEnd)
            | fourth :: rest =>
              if !isContinuation fourth then .error (3, .invalidContinuation)
              else
                .ok (Char.ofNat
                  ((lead.toNat - 0xF0) * 0x40000 + payload second * 0x1000 +
                    payload third * 0x40 + payload fourth), rest)

/-- Reading a character consumes its bytes. -/
theorem length_of_readChar {lead : UInt8} {rest tail : List UInt8} {char : Char}
    (read : readChar lead rest = .ok (char, tail)) : tail.length ≤ rest.length := by
  revert read
  unfold readChar
  repeat' split
  all_goals intro read
  all_goals cases read
  all_goals simp +arith

/-- The first place where bytes fail to be UTF-8: its position, the extent of the faulty sequence,
its first byte and the flaw. -/
structure Malformed where
  position : Nat
  extent : Nat
  byte : UInt8
  flaw : Flaw
deriving DecidableEq, Repr, Inhabited

/-- Reads bytes from `position` on, with the characters read so far latest first. -/
def decodeFrom (position : Nat) (done : List Char) : List UInt8 → Except Malformed (List Char)
  | [] => .ok done.reverse
  | lead :: rest =>
    match read : readChar lead rest with
    | .error (extent, flaw) => .error ⟨position, extent, lead, flaw⟩
    | .ok (char, tail) =>
      have := length_of_readChar read
      decodeFrom (position + (1 + rest.length - tail.length)) (char :: done) tail
termination_by bytes => bytes.length
decreasing_by simp only [List.length_cons]; omega

/-- Reads a byte string as text, or reports the first flaw. -/
def decode (bytes : List UInt8) : Except Malformed (List Char) :=
  decodeFrom 0 [] bytes

/-- The surrogate that stands for a byte outside every character.  Such bytes are at least 0x80. -/
def escapeByte (byte : UInt8) : CodePoint :=
  .surrogate ⟨(0x400 + byte.toNat) % 0x800, Nat.mod_lt _ (by decide)⟩

/-- Reads bytes, escaping those outside every character, with the code points read so far latest
first. -/
def decodeEscapingFrom (done : List CodePoint) : List UInt8 → List CodePoint
  | [] => done.reverse
  | lead :: rest =>
    match read : readChar lead rest with
    | .error _ => decodeEscapingFrom (escapeByte lead :: done) rest
    | .ok (char, tail) =>
      have := length_of_readChar read
      decodeEscapingFrom (.scalar char :: done) tail
termination_by bytes => bytes.length
decreasing_by all_goals simp only [List.length_cons]; omega

/-- Reads any byte string as text without losing a byte. -/
def decodeEscaping (bytes : List UInt8) : List CodePoint :=
  decodeEscapingFrom [] bytes

/-- The bytes of a character. -/
def encodeChar (char : Char) : List UInt8 :=
  let code := char.toNat
  let tail (value : Nat) : UInt8 := UInt8.ofNat (0x80 + value % 0x40)
  if code < 0x80 then [UInt8.ofNat code]
  else if code < 0x800 then [UInt8.ofNat (0xC0 + code / 0x40), tail code]
  else if code < 0x10000 then
    [UInt8.ofNat (0xE0 + code / 0x1000), tail (code / 0x40), tail code]
  else
    [UInt8.ofNat (0xF0 + code / 0x40000), tail (code / 0x1000), tail (code / 0x40), tail code]

/-- The bytes of a text of characters. -/
def encodeChars (chars : List Char) : List UInt8 :=
  chars.flatMap encodeChar

/-- Whether a surrogate stands for a byte. -/
def isEscape (offset : Fin 0x800) : Bool :=
  0x480 ≤ offset.val && offset.val ≤ 0x4FF

/-- The bytes of a code point.  A surrogate that stands for no byte has none; `encode` refuses it. -/
def CodePoint.bytes : CodePoint → List UInt8
  | .scalar char => encodeChar char
  | .surrogate offset => if isEscape offset then [UInt8.ofNat (offset.val - 0x400)] else []

/-- Whether a code point is a lone surrogate. -/
def CodePoint.isSurrogate : CodePoint → Bool
  | .scalar _ => false
  | .surrogate _ => true

/-- The character a code point is, if it is one. -/
def CodePoint.char? : CodePoint → Option Char
  | .scalar char => some char
  | .surrogate _ => none

/-- The first surrogate of a text that has no byte: its position, its offset and the length of the
run of surrogates it begins. -/
structure Unencodable where
  position : Nat
  offset : Fin 0x800
  run : Nat
deriving DecidableEq, Repr, Inhabited

/-- Looks for a surrogate that has no byte, counting from `position`. -/
def findUnencodable (position : Nat) : List CodePoint → Option Unencodable
  | [] => none
  | .scalar _ :: rest => findUnencodable (position + 1) rest
  | .surrogate offset :: rest =>
    if isEscape offset then findUnencodable (position + 1) rest
    else some ⟨position, offset, 1 + (rest.takeWhile CodePoint.isSurrogate).length⟩

/-- The bytes of a text, surrogates that stand for bytes included. -/
def encode (points : List CodePoint) : Except Unencodable (List UInt8) :=
  match findUnencodable 0 points with
  | some flaw => .error flaw
  | none => .ok (points.flatMap CodePoint.bytes)

/-- The reason that a flaw gives. -/
def Flaw.reason : Flaw → String
  | .invalidStart => "invalid start byte"
  | .invalidContinuation => "invalid continuation byte"
  | .unexpectedEnd => "unexpected end of data"

/-- Where a run of the given length stands: its position, or its first and last position. -/
def placeText (position extent : Nat) : String :=
  if extent ≤ 1 then toString position
  else toString position ++ "-" ++ toString (position + extent - 1)

/-- The sentence for bytes that are not UTF-8. -/
def Malformed.message (malformed : Malformed) : String :=
  let what :=
    if malformed.extent ≤ 1 then "byte 0x" ++ hexOfBytes [malformed.byte] else "bytes"
  "'utf-8' codec can't decode " ++ what ++ " in position " ++
    placeText malformed.position malformed.extent ++ ": " ++ malformed.flaw.reason

/-- The sentence for a text with a surrogate that has no byte. -/
def Unencodable.message (flaw : Unencodable) : String :=
  let what :=
    if flaw.run ≤ 1 then
      "character '\\u" ++ String.ofList (hexPadded 4 (0xD800 + flaw.offset.val)) ++ "'"
    else "characters"
  "'utf-8' codec can't encode " ++ what ++ " in position " ++
    placeText flaw.position flaw.run ++ ": surrogates not allowed"

/-- The characters of a text without surrogates. -/
def scalars? (points : List CodePoint) : Option (List Char) :=
  if points.any CodePoint.isSurrogate then none else some (points.filterMap CodePoint.char?)

end RepoAtlas.Text.Utf8
