namespace Declang.Toml

/-- A reader takes a value off the front of a text. -/
abbrev Reader (α : Type) := List Char → Option (α × List Char)

def isSpace (c : Char) : Bool :=
  c == ' ' || c == '\t'

def skipSpaces (cs : List Char) : List Char :=
  cs.dropWhile isSpace

/-- The characters of comments and literal strings: no control characters but the tab. -/
def isPrintable (c : Char) : Bool :=
  c == '\t' || (0x20 ≤ c.toNat && c.toNat != 0x7F)

/-- What follows a newline at the front of the text. -/
def newline? : List Char → Option (List Char)
  | '\n' :: rest => some rest
  | '\r' :: '\n' :: rest => some rest
  | _ => none

/-- Drops a comment up to the end of its line. -/
def skipComment : List Char → List Char
  | '#' :: rest => rest.dropWhile isPrintable
  | cs => cs

/-- What follows the end of a line that holds nothing more but blanks and a comment. -/
def lineEnd? (cs : List Char) : Option (List Char) :=
  match skipComment (skipSpaces cs) with
  | [] => some []
  | cs => newline? cs

/-- Skips blanks, comments and line ends. Each round ends a line, so that the length of the text
bounds their number. -/
def skipLines : Nat → List Char → List Char
  | 0, cs => cs
  | fuel + 1, cs =>
    match newline? (skipComment (skipSpaces cs)) with
    | some rest => skipLines fuel rest
    | none => skipSpaces cs

/-- A run of digits that satisfy `isDigit`, with single underscores between them left out. -/
def readRun? (isDigit : Char → Bool) (cs : List Char) : Option (List Char × List Char) :=
  let rec more : List Char → List Char × List Char
    | '_' :: c :: rest =>
      if isDigit c then
        let (run, rest) := more rest
        (c :: run, rest)
      else ([], '_' :: c :: rest)
    | c :: rest =>
      if isDigit c then
        let (run, rest) := more rest
        (c :: run, rest)
      else ([], c :: rest)
    | [] => ([], [])
  match cs with
  | c :: rest =>
    if isDigit c then
      let (run, rest) := more rest
      some (c :: run, rest)
    else none
  | [] => none

/-- Exactly `count` decimal digits. -/
def readFixed? (count : Nat) (cs : List Char) : Option (List Char × List Char) :=
  let run := cs.take count
  if run.length = count ∧ run.all Char.isDigit then some (run, cs.drop count) else none

end Declang.Toml
