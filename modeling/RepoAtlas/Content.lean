/-
Module: RepoAtlas.Content
Purpose: The content of a file as an analysis receives it: raw bytes, or a text that may hold lone
  surrogates left by an escaping read.
Main exports: Content, Content.bytes, Content.source?, Content.fingerprint
-/
import RepoAtlas.Text.Utf8
import RepoAtlas.Text.Characters
import RepoAtlas.Digest.Sha256

namespace RepoAtlas

open Text.Utf8

/-- File content, either as bytes or as already decoded text. -/
inductive Content where
  | raw (bytes : List UInt8)
  | text (points : List CodePoint)
deriving DecidableEq, Repr, Inhabited

namespace Content

/-- The content of a text of characters. -/
def ofText (text : String) : Content :=
  .text (points text)

/-- The bytes of the content.  Surrogates that stand for bytes turn back into them; any other
surrogate has no bytes. -/
def bytes : Content → Except Unencodable (List UInt8)
  | .raw bytes => .ok bytes
  | .text points => encode points

/-- The characters of the content, if it is text in UTF-8 without lone surrogates. -/
def source? : Content → Option (List Char)
  | .raw bytes => (decode bytes).toOption
  | .text points => scalars? points

/-- How many hexadecimal digits of the digest identify a content. -/
def fingerprintLength : Nat := 16

/-- The first digits of the digest of a byte string. -/
def fingerprintOfBytes (bytes : List UInt8) : String :=
  String.ofList ((Text.hexOfBytes (Digest.Sha256.digest bytes)).toList.take fingerprintLength)

/-- Identifies the content by the first digits of its digest. -/
def fingerprint (content : Content) : Except Unencodable String :=
  content.bytes.map fingerprintOfBytes

end Content

end RepoAtlas
