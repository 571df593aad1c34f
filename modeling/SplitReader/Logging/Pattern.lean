import SplitReader.Text.Alphanumeric
import SplitReader.Text.Blank
import SplitReader.Text.Hexadecimal

/-! # Patterns

A pattern says what texts a field may have: it is a regular expression. Whether a text matches
is not of interest here, but whether a pattern is well formed. Besides its grammar a pattern has
to keep to what can be decided byte by byte and without tables of characters. So it has no
classes of the letters, digits or blanks of all scripts, does not look at the edges of words and
does not ignore case, unless it is about single bytes; and then it must not match a part of a
character.

Patterns come from lists between commas and braces, so counted repetitions, which end with a
brace, are always left open and refused.
-/

set_option autoImplicit false

namespace SplitReader.LogPattern

/-- Takes something off the front of some characters. -/
abbrev Parser (α : Type) := List Char → Option (α × List Char)

/-! ## Modes -/

/-- How the characters of a pattern are read. -/
structure Mode where
  ignoresCase : Bool := false
  /-- The pattern is about characters of all scripts, and not about bytes. -/
  isWide : Bool := true
  /-- Blanks do not count, and comments reach up to the end of their line. -/
  skipsBlanks : Bool := false
  deriving DecidableEq, Repr, Inhabited

namespace Mode

/-- What a list of letters makes of a setting: letters behind a dash switch it off. -/
def switch (letter : Char) (letters : List Char) (setting : Bool) : Bool :=
  if (letters.takeWhile (· ≠ '-')).contains letter then true
  else setting && !letters.contains letter

/-- The mode that a list of letters changes a mode to. -/
def change (letters : List Char) (m : Mode) : Mode where
  ignoresCase := switch 'i' letters m.ignoresCase
  isWide := switch 'u' letters m.isWide
  skipsBlanks := switch 'x' letters m.skipsBlanks

/-- A character may stand for itself. -/
def admitsCharacters (m : Mode) : Bool := !(m.isWide && m.ignoresCase)

/-- A set of characters with a name may be used, or all characters but those. -/
def admitsNamed (isNegated : Bool) (m : Mode) : Bool := !m.isWide && !isNegated

/-- A set of characters in brackets may be turned into all others. -/
def admitsNegation (m : Mode) : Bool := m.isWide

end Mode

def skipBlanks (isComment : Bool) : List Char → List Char
  | [] => []
  | c :: cs =>
      if isComment then skipBlanks (c ≠ '\n') cs
      else if Text.isBlank c then skipBlanks false cs
      else if c = '#' then skipBlanks true cs
      else c :: cs

def Mode.skip (m : Mode) (cs : List Char) : List Char :=
  if m.skipsBlanks then skipBlanks false cs else cs

/-! ## Escapes -/

/-- What can stand behind a backslash. -/
inductive Escape where
  | character (c : Char)
  /-- A byte that is no character of ASCII. -/
  | byte (n : Nat)
  /-- The digits, letters or blanks, or all others. -/
  | named (isNegated : Bool)
  | border
  | wordEdge
  deriving DecidableEq, Repr

def digits (m : Mode) : Nat → Parser (List Char)
  | 0, cs => some ([], cs)
  | count + 1, cs =>
      match m.skip cs with
      | c :: rest => (digits m count rest).map fun (ds, rest) => (c :: ds, rest)
      | [] => none

/-- Reads a character that is given by so many digits. -/
def numbered (m : Mode) (count : Nat) : Parser Escape := fun cs => do
  let (ds, rest) ← digits m count cs
  let c ← Hexadecimal.char? ds
  let isByte := count = 2 && 0x80 ≤ c.toNat && !m.isWide
  some (if isByte then .byte c.toNat else .character c, m.skip rest)

/-- The character that a letter behind a backslash stands for. Marks stand for themselves. -/
def shortEscape? (c : Char) : Option Char :=
  match c with
  | 'a' => some '\x07'
  | 'f' => some '\x0c'
  | 't' => some '\t'
  | 'n' => some '\n'
  | 'r' => some '\r'
  | 'v' => some '\x0b'
  | c => if c.toNat < 0x80 && !c.isAlphanum then some c else none

def escape (m : Mode) : Parser Escape
  | [] => none
  | c :: rest =>
      match c with
      | 'x' => numbered m 2 rest
      | 'u' => numbered m 4 rest
      | 'U' => numbered m 8 rest
      | 'd' | 's' | 'w' => some (.named false, rest)
      | 'D' | 'S' | 'W' => some (.named true, rest)
      | 'A' | 'z' => some (.border, rest)
      | 'b' | 'B' | '<' | '>' => some (.wordEdge, rest)
      | c => (shortEscape? c).map fun c => (.character c, rest)

def Mode.admitsEscape (m : Mode) : Escape → Bool
  | .character _ => m.admitsCharacters
  | .byte _ => false
  | .named isNegated => m.admitsNamed isNegated
  | .border => true
  | .wordEdge => !m.isWide

/-! ## Sets in brackets -/

def setNames : List String :=
  ["alnum", "alpha", "ascii", "blank", "cntrl", "digit", "graph", "lower", "print", "punct",
    "space", "upper", "word", "xdigit"]

/-- Reads a named set behind its opening bracket, and whether it is negated. -/
def namedSet : Parser Bool
  | ':' :: rest =>
      let isNegated := rest.head? = some '^'
      let rest := if isNegated then rest.drop 1 else rest
      let name := String.ofList (rest.takeWhile (· ≠ ':'))
      match rest.dropWhile (· ≠ ':') with
      | ':' :: ']' :: rest => if setNames.contains name then some (isNegated, rest) else none
      | _ => none
  | _ => none

/-- A character may stand in brackets. -/
def Mode.admitsInSet (m : Mode) (c : Char) : Bool :=
  if m.isWide then !m.ignoresCase else c.toNat < 0x80

/-- A named set may stand in brackets. -/
def Mode.admitsNamedSet (m : Mode) (isNegated : Bool) : Bool :=
  if m.isWide then !m.ignoresCase else !isNegated

/-- Skips the dashes at the start of a set, of which there are at most so many. -/
def skipDashes (m : Mode) : Nat → List Char → List Char
  | most + 1, '-' :: rest => skipDashes m most (m.skip rest)
  | _, cs => cs

/-- Reads the start of a set behind its opening bracket. Dashes, or a closing bracket, stand for
themselves there. -/
def openSet (m : Mode) (cs : List Char) : Option (List Char) := do
  let cs := m.skip cs
  let isNegated := cs.head? = some '^'
  let cs := if isNegated then m.skip (cs.drop 1) else cs
  let hasDashes := cs.head? = some '-'
  let cs := skipDashes m cs.length cs
  let hasBracket := !hasDashes && cs.head? = some ']'
  let cs := if hasBracket then m.skip (cs.drop 1) else cs
  if cs.isEmpty || (isNegated && !m.admitsNegation) then none
  else if (hasDashes || hasBracket) && !m.admitsInSet '-' then none
  else some cs

def setItem (m : Mode) : Parser Escape
  | '\\' :: rest => escape m rest
  | c :: rest => some (.character c, rest)
  | [] => none

/-- Reads a character in brackets, or a range of characters. -/
def setRange (m : Mode) (cs : List Char) : Option (List Char) := do
  let (first, rest) ← setItem m cs
  let rest := m.skip rest
  let next := if rest.head? = some '-' then (m.skip (rest.drop 1)).head? else none
  match first with
  | .character c =>
      if !m.admitsInSet c || rest.isEmpty then none
      else if rest.head? ≠ some '-' || next = some ']' || next = some '-' then some rest
      else
        match ← setItem m (m.skip (rest.drop 1)) with
        | (.character d, rest) => if m.admitsInSet d && c ≤ d then some rest else none
        | _ => none
  | .named isNegated =>
      if !m.admitsNamed isNegated || rest.isEmpty then none
      else if rest.head? ≠ some '-' || next = some ']' || next = some '-' then some rest
      else none
  | .byte _ | .border | .wordEdge => none

/-- Reads the rest of a set inside of so many brackets, in at most so many steps. -/
def setTail (m : Mode) : Nat → Nat → List Char → Option (List Char)
  | 0, _, _ => none
  | steps + 1, depth, cs =>
      match m.skip cs with
      | '[' :: rest =>
          match namedSet rest with
          | some (isNegated, rest) =>
              if m.admitsNamedSet isNegated then setTail m steps depth rest else none
          | none => (openSet m rest).bind (setTail m steps (depth + 1))
      | ']' :: rest => if depth ≤ 1 then some rest else setTail m steps (depth - 1) rest
      | '&' :: '&' :: rest | '-' :: '-' :: rest | '~' :: '~' :: rest => setTail m steps depth rest
      | cs => (setRange m cs).bind (setTail m steps depth)

def set (m : Mode) (cs : List Char) : Option (List Char) :=
  (openSet m cs).bind (setTail m (cs.length + 1) 1)

/-! ## Groups -/

/-- The letters that change the mode, and the dash before those that switch off. -/
def modeLetters : List Char := ['i', 'm', 's', 'U', 'u', 'R', 'x', '-']

/-- Reads letters that change the mode, none of them twice, up to a colon or a closing
parenthesis, which is not taken. -/
def letters (seen : List Char) : Parser (List Char)
  | [] => none
  | c :: rest =>
      if c = ':' || c = ')' then
        if seen.getLast? = some '-' then none else some (seen, c :: rest)
      else if modeLetters.contains c && !seen.contains c then letters (seen ++ [c]) rest
      else none

def groupName (cs : List Char) : Option (String × List Char) :=
  let name := cs.takeWhile (· ≠ '>')
  let isStart (c : Char) : Bool := c = '_' || Text.isLetter c
  let isPart (c : Char) : Bool :=
    c = '_' || c = '.' || c = '[' || c = ']' || Text.isAlphanumeric c
  match name, cs.dropWhile (· ≠ '>') with
  | c :: more, _ :: rest =>
      if isStart c && more.all isPart then some (String.ofList name, rest) else none
  | _, _ => none

/-! ## Patterns -/

/-- Where the reading of a pattern is. -/
structure State where
  mode : Mode := {}
  /-- How characters are read again behind the groups that are open, the innermost first. -/
  outer : List Mode := []
  names : List String := []
  /-- There is something that can be repeated. -/
  hasOperand : Bool := false
  deriving DecidableEq, Repr, Inhabited

namespace State

def withOperand (s : State) : State := { s with hasOperand := true }

def inGroup (letters : List Char) (s : State) : State :=
  { s with mode := s.mode.change letters, outer := s.mode :: s.outer, hasOperand := false }

/-- Inside of a group with a name, which no other group has. -/
def inNamedGroup (cs : List Char) (s : State) : Option (State × List Char) := do
  let (name, rest) ← groupName cs
  if s.names.contains name then none
  else some ({ s.inGroup [] with names := name :: s.names }, rest)

/-- Behind letters that change the mode up to the end of the group, or inside of a group for
which they change it. -/
def withLetters (cs : List Char) (s : State) : Option (State × List Char) := do
  match ← letters [] cs with
  | (ls, ':' :: rest) => some (s.inGroup ls, rest)
  | (ls, _ :: rest) =>
      if ls.isEmpty then none
      else some ({ s with mode := s.mode.change ls, hasOperand := false }, rest)
  | (_, []) => none

/-- Behind an opening parenthesis. Looking ahead or back is refused. -/
def openGroup (s : State) : List Char → Option (State × List Char)
  | '?' :: '=' :: _ | '?' :: '!' :: _ | '?' :: '<' :: '=' :: _ | '?' :: '<' :: '!' :: _ => none
  | '?' :: 'P' :: '<' :: rest | '?' :: '<' :: rest => s.inNamedGroup rest
  | '?' :: rest => s.withLetters rest
  | cs => some (s.inGroup [], cs)

/-- Behind a closing parenthesis. -/
def closeGroup (s : State) : Option State :=
  match s.outer with
  | [] => none
  | mode :: outer => some { s with mode, outer, hasOperand := true }

/-- Behind a character that may stand for itself. -/
def behind (isAdmitted : Bool) (rest : List Char) (s : State) : Option (State × List Char) :=
  if isAdmitted then some (s.withOperand, rest) else none

/-- Behind one more part of a pattern. -/
def step (s : State) (c : Char) (rest : List Char) : Option (State × List Char) :=
  match c with
  | '(' => s.openGroup (s.mode.skip rest)
  | ')' => s.closeGroup.map fun s => (s, rest)
  | '|' => some ({ s with hasOperand := false }, rest)
  | '[' => (set s.mode rest).map fun rest => (s.withOperand, rest)
  | '?' | '*' | '+' => s.behind s.hasOperand (if rest.head? = some '?' then rest.drop 1 else rest)
  | '\x7b' => none
  | '\\' => (escape s.mode rest).bind fun (e, rest) => s.behind (s.mode.admitsEscape e) rest
  | '.' => s.behind s.mode.isWide rest
  | '^' | '$' => s.behind true rest
  | _ => s.behind s.mode.admitsCharacters rest

end State

/-- Reads the rest of a pattern in at most so many steps, and says whether it is well formed. -/
def readsFrom : Nat → State → List Char → Bool
  | 0, _, _ => false
  | steps + 1, s, cs =>
      match s.mode.skip cs with
      | [] => s.outer.isEmpty
      | c :: rest =>
          match s.step c rest with
          | none => false
          | some (s, rest) => readsFrom steps s rest

def isWellFormed (cs : List Char) : Bool := readsFrom (cs.length + 1) {} cs

end SplitReader.LogPattern
