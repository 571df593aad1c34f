import SplitReader.Text.Hexadecimal

/-! # TOML lexemes

The small parts of a TOML text: blanks and comments, line ends, texts in their four forms, and
keys. Every reader takes its part off the front of the characters, or refuses.
-/

set_option autoImplicit false

namespace SplitReader.Toml

abbrev Parser (α : Type) := List Char → Option (α × List Char)

/-! ## Blanks and comments -/

/-- A blank or a tabulator. -/
def isBlank (c : Char) : Bool := c = ' ' || c = '\t'

/-- A control character other than the tabulator. These stand nowhere but at line ends. -/
def isControl (c : Char) : Bool := (c.toNat < 0x20 && c ≠ '\t') || c.toNat = 0x7F

def skipBlanks (cs : List Char) : List Char := cs.dropWhile isBlank

def lineEnd : List Char → Option (List Char)
  | '\n' :: rest => some rest
  | '\r' :: '\n' :: rest => some rest
  | _ => none

/-- Takes a comment off the front, if there is one, up to the end of its line. -/
def skipComment : List Char → Option (List Char)
  | '#' :: rest =>
      let left := rest.dropWhile fun c => !isControl c
      if left.isEmpty || (lineEnd left).isSome then some left else none
  | cs => some cs

/-- Takes blanks, a comment and a line end or the end of the text off the front. -/
def finishLine (cs : List Char) : Option (List Char) := do
  let left ← skipComment (skipBlanks cs)
  if left.isEmpty then some [] else lineEnd left

/-- Takes blanks, comments and line ends off the front, for at most so many lines. -/
def skipLines : Nat → List Char → Option (List Char)
  | 0, cs => some cs
  | lines + 1, cs => do
      let left ← skipComment (skipBlanks cs)
      match lineEnd left with
      | some left => skipLines lines left
      | none => some left

def skipSpace (cs : List Char) : Option (List Char) := skipLines cs.length cs

/-! ## Texts -/

def shortEscape? : Char → Option Char
  | 'b' => some (Char.ofNat 0x08)
  | 't' => some '\t'
  | 'n' => some '\n'
  | 'f' => some (Char.ofNat 0x0C)
  | 'r' => some '\r'
  | '"' => some '"'
  | '\\' => some '\\'
  | _ => none

def charOfDigits (count : Nat) : Parser Char := fun cs =>
  if cs.length < count then none
  else (Hexadecimal.char? (cs.take count)).map fun c => (c, cs.drop count)

def escape : Parser Char
  | 'u' :: rest => charOfDigits 4 rest
  | 'U' :: rest => charOfDigits 8 rest
  | c :: rest => (shortEscape? c).map fun c => (c, rest)
  | [] => none

/-- Reads up to the closing double quote of a text in one line. -/
def basicTail : Nat → Parser (List Char)
  | 0, _ => none
  | _, [] => none
  | _, '"' :: rest => some ([], rest)
  | fuel + 1, '\\' :: rest => do
      let (c, rest) ← escape rest
      let (cs, rest) ← basicTail fuel rest
      some (c :: cs, rest)
  | fuel + 1, c :: rest =>
      if isControl c then none
      else (basicTail fuel rest).map fun (cs, rest) => (c :: cs, rest)

def literalTail : Parser (List Char)
  | [] => none
  | '\'' :: rest => some ([], rest)
  | c :: rest =>
      if isControl c then none
      else (literalTail rest).map fun (cs, rest) => (c :: cs, rest)

/-- Takes a run of quotes apart: too few of them belong to the content, three or more end the
text, and up to two before the last three belong to the content. -/
def quoteRun (quote : Char) (cs : List Char) : Option (List Char × Bool × List Char) :=
  let count := (cs.takeWhile (· = quote)).length
  if count < 3 then some (List.replicate count quote, false, cs.drop count)
  else if count ≤ 5 then some (List.replicate (count - 3) quote, true, cs.drop count)
  else none

/-- Takes blanks and line ends off the front, for at most so many lines. -/
def skipBlankLines : Nat → List Char → List Char
  | 0, cs => cs
  | lines + 1, cs =>
      match lineEnd (skipBlanks cs) with
      | some left => skipBlankLines lines left
      | none => skipBlanks cs

/-- Takes the rest of a line behind a backslash, with all blanks and line ends that follow. -/
def lineJoin (cs : List Char) : Option (List Char) := do
  let left ← lineEnd (skipBlanks cs)
  some (skipBlankLines (left.length + 1) left)

/-- Reads up to the closing quotes of a text of several lines. -/
def multilineTail (quote : Char) : Nat → Parser (List Char)
  | 0, _ => none
  | _, [] => none
  | fuel + 1, c :: rest =>
      if c = quote then do
        let (content, isEnd, rest) ← quoteRun quote (c :: rest)
        if isEnd then some (content, rest)
        else (multilineTail quote fuel rest).map fun (cs, rest) => (content ++ cs, rest)
      else if c = '\\' ∧ quote = '"' then
        match lineJoin rest with
        | some rest => multilineTail quote fuel rest
        | none => do
            let (c, rest) ← escape rest
            let (cs, rest) ← multilineTail quote fuel rest
            some (c :: cs, rest)
      else
        match lineEnd (c :: rest) with
        | some rest => (multilineTail quote fuel rest).map fun (cs, rest) => ('\n' :: cs, rest)
        | none =>
            if isControl c then none
            else (multilineTail quote fuel rest).map fun (cs, rest) => (c :: cs, rest)

/-- Reads a text of several lines behind its opening quotes. A line end right behind them does
not count. -/
def multiline (quote : Char) (cs : List Char) : Option (List Char × List Char) :=
  let body := (lineEnd cs).getD cs
  multilineTail quote (body.length + 1) body

def singleLine : Parser String
  | '"' :: rest => (basicTail (rest.length + 1) rest).map fun (cs, rest) => (String.ofList cs, rest)
  | '\'' :: rest => (literalTail rest).map fun (cs, rest) => (String.ofList cs, rest)
  | _ => none

def text : Parser String
  | '"' :: '"' :: '"' :: rest =>
      (multiline '"' rest).map fun (cs, rest) => (String.ofList cs, rest)
  | '\'' :: '\'' :: '\'' :: rest =>
      (multiline '\'' rest).map fun (cs, rest) => (String.ofList cs, rest)
  | cs => singleLine cs

/-! ## Keys -/

def isBare (c : Char) : Bool :=
  ('a' ≤ c && c ≤ 'z') || ('A' ≤ c && c ≤ 'Z') || ('0' ≤ c && c ≤ '9') || c = '_' || c = '-'

def simpleKey : Parser String := fun cs =>
  match singleLine cs with
  | some found => some found
  | none =>
      match cs.takeWhile isBare with
      | [] => none
      | run => some (String.ofList run, cs.dropWhile isBare)

/-- Reads a key of at most so many parts with points between them. -/
def keyParts : Nat → Parser (List String)
  | 0, _ => none
  | fuel + 1, cs => do
      let (k, rest) ← simpleKey cs
      match skipBlanks rest with
      | '.' :: rest => (keyParts fuel (skipBlanks rest)).map fun (ks, rest) => (k :: ks, rest)
      | rest => some ([k], rest)

/-- The largest number of parts of a key. -/
def maxKeyParts : Nat := 79

/-- Reads a key. Blanks behind it are taken as well. -/
def key : Parser (List String) := keyParts maxKeyParts

end SplitReader.Toml
