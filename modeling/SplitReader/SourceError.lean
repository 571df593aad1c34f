import SplitReader.Bounds
import SplitReader.Codec
import SplitReader.Text.Quoted

/-! # Errors of sources

What can go wrong when a source is built, opened or read. Refused splits are not among these:
they are normal answers.
-/

set_option autoImplicit false

namespace SplitReader

/-- A fault of the medium that records come from. -/
inductive IoError where
  | notFound
  | zeroInName
  /-- The name, or a part of it between two slashes, is longer than names may be. -/
  | nameTooLong
  | isDirectory
  /-- The file ends although the range goes on. -/
  | endsInside (offset : Nat)
  | notText
  | device (text : String)
  deriving DecidableEq, Repr, Inhabited

/-- The reason in words, unless the wording is the system's. -/
def IoError.message? : IoError → Option String
  | notFound | nameTooLong | isDirectory => none
  | zeroInName => some "file name contained an unexpected NUL byte"
  | endsInside offset =>
      some ("file ended at offset " ++ Decimal.natural offset ++ ", inside the assigned range")
  | notText => some "stream did not contain valid UTF-8"
  | device text => some text

/-- An argument that does not describe a source. -/
inductive ArgumentError where
  | bounds (e : BoundsError)
  /-- A record that should have one byte for every character holds a character above U+00FF. -/
  | recordChar (record : Nat) (c : Char)
  deriving DecidableEq, Repr, Inhabited

def ArgumentError.message : ArgumentError → String
  | bounds e => e.message
  | recordChar record c =>
      "record " ++ Decimal.natural record ++ " holds " ++ Text.quotedChar c ++
        ", which is not a byte-per-char encoded value"

inductive SourceError where
  | invalidArgument (e : ArgumentError)
  | noSuchElement
  | decode (offset : Nat) (e : CodecError)
  | io (e : IoError)
  deriving DecidableEq, Repr, Inhabited

/-- The reason in words, as far as it has a wording that does not hang on the system or on a
place inside a JSON text. -/
def SourceError.message? : SourceError → Option String
  | invalidArgument e => some ("Invalid argument: " ++ e.message)
  | noSuchElement => some "No such element: the source iterator is exhausted"
  | decode _ (.json _) => none
  | decode offset e =>
      e.message?.map fun m =>
        "Failed to decode record at position " ++ Decimal.natural offset ++ ": " ++ m
  | io e => e.message?.map fun m => "I/O error: " ++ m

end SplitReader
