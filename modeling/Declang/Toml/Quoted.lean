import Declang.Json.Reader
import Declang.Toml.Scan
namespace Declang.Toml

/-- The character of a code point, unless it is half of a surrogate pair or out of range. -/
def scalar? (n : Nat) : Option Char :=
  if n.isValidChar then some (Char.ofNat n) else none

/-- The character that `count` hexadecimal digits write. -/
def readCodePoint? (count : Nat) (cs : List Char) : Option (Char × List Char) := do
  let run := cs.take count
  if run.length = count then
    let digits ← run.mapM Json.hexValue?
    let c ← scalar? (digits.foldl (fun value digit => 16 * value + digit) 0)
    return (c, cs.drop count)
  else none

/-- The character that follows a backslash. -/
def readEscape? : Reader Char
  | 'b' :: rest => some ('\x08', rest)
  | 't' :: rest => some ('\t', rest)
  | 'n' :: rest => some ('\n', rest)
  | 'f' :: rest => some ('\x0c', rest)
  | 'r' :: rest => some ('\r', rest)
  | '"' :: rest => some ('"', rest)
  | '\\' :: rest => some ('\\', rest)
  | 'u' :: rest => readCodePoint? 4 rest
  | 'U' :: rest => readCodePoint? 8 rest
  | _ => none

/-- A string of one line after its opening quote. The fuel bounds the number of its characters. -/
def readBasic? : Nat → Reader (List Char)
  | 0, _ => none
  | _, '"' :: rest => some ([], rest)
  | fuel + 1, '\\' :: rest => do
    let (c, rest) ← readEscape? rest
    let (text, rest) ← readBasic? fuel rest
    return (c :: text, rest)
  | fuel + 1, c :: rest =>
    if isPrintable c then do
      let (text, rest) ← readBasic? fuel rest
      return (c :: text, rest)
    else none
  | _, [] => none

/-- A string of one line without escapes after its opening quote. -/
def readLiteral? (cs : List Char) : Option (List Char × List Char) :=
  let isInner (c : Char) : Bool := isPrintable c && c != '\''
  match cs.dropWhile isInner with
  | '\'' :: rest => some (cs.takeWhile isInner, rest)
  | _ => none

/-- The end of a string of several lines: three quotes, with up to two more before them that belong
to the string. -/
def readClosing? (quote : Char) (cs : List Char) : Option (List Char × List Char) :=
  let run := (cs.takeWhile (· == quote)).length
  if run < 3 then none
  else
    let inner := min (run - 3) 2
    some (List.replicate inner quote, cs.drop (inner + 3))

/-- Drops a newline right after an opening quote. -/
def dropFirstNewline (cs : List Char) : List Char :=
  (newline? cs).getD cs

/-- A string of several lines after its opening. A backslash at the end of a line takes the blanks
and line ends after it away. -/
def readMultiBasic? : Nat → Reader (List Char)
  | 0, _ => none
  | fuel + 1, cs =>
    match readClosing? '"' cs with
    | some closing => some closing
    | none =>
      match newline? cs with
      | some rest => (readMultiBasic? fuel rest).map fun (text, rest) => ('\n' :: text, rest)
      | none =>
        match cs with
        | '\\' :: rest =>
          match newline? (skipSpaces rest) with
          | some rest => readMultiBasic? fuel (skipBlankLines fuel rest)
          | none => do
            let (c, rest) ← readEscape? rest
            let (text, rest) ← readMultiBasic? fuel rest
            return (c :: text, rest)
        | c :: rest =>
          if isPrintable c then
            (readMultiBasic? fuel rest).map fun (text, rest) => (c :: text, rest)
          else none
        | [] => none
where
  skipBlankLines : Nat → List Char → List Char
    | 0, cs => cs
    | fuel + 1, cs =>
      match newline? (skipSpaces cs) with
      | some rest => skipBlankLines fuel rest
      | none => skipSpaces cs

/-- A string of several lines without escapes after its opening. -/
def readMultiLiteral? : Nat → Reader (List Char)
  | 0, _ => none
  | fuel + 1, cs =>
    match readClosing? '\'' cs with
    | some closing => some closing
    | none =>
      match newline? cs with
      | some rest => (readMultiLiteral? fuel rest).map fun (text, rest) => ('\n' :: text, rest)
      | none =>
        match cs with
        | c :: rest =>
          if isPrintable c then
            (readMultiLiteral? fuel rest).map fun (text, rest) => (c :: text, rest)
          else none
        | [] => none

/-- A string of one line, as keys may have it. -/
def readQuoted? : Reader String
  | '"' :: rest =>
    (readBasic? (rest.length + 1) rest).map fun (text, rest) => (String.ofList text, rest)
  | '\'' :: rest => (readLiteral? rest).map fun (text, rest) => (String.ofList text, rest)
  | _ => none

/-- A string of one or several lines. -/
def readString? : Reader String
  | '"' :: '"' :: '"' :: rest =>
    (readMultiBasic? (rest.length + 1) (dropFirstNewline rest)).map fun (text, rest) =>
      (String.ofList text, rest)
  | '\'' :: '\'' :: '\'' :: rest =>
    (readMultiLiteral? (rest.length + 1) (dropFirstNewline rest)).map fun (text, rest) =>
      (String.ofList text, rest)
  | cs => readQuoted? cs

end Declang.Toml
