import Declang.Toml.Number
import Declang.Toml.Quoted
import Declang.Toml.Table
namespace Declang.Toml

/-- Nesting of arrays and tables, and parts of a key, stay below this limit. -/
def limit : Nat := 80

def isBareChar (c : Char) : Bool :=
  c.isAlphanum || c == '_' || c == '-'

/-- A part of a key with the blanks around it. -/
def readKeyPart? (cs : List Char) : Option (String × List Char) := do
  let cs := skipSpaces cs
  let (part, rest) ←
    if cs.head?.any isBareChar then
      some (String.ofList (cs.takeWhile isBareChar), cs.dropWhile isBareChar)
    else readQuoted? cs
  return (part, skipSpaces rest)

/-- The parts of a key, which points divide. -/
def readKeyParts? : Nat → Reader KeyPath
  | 0, _ => none
  | fuel + 1, cs => do
    let (part, rest) ← readKeyPart? cs
    match rest with
    | '.' :: rest =>
      let (path, rest) ← readKeyParts? fuel rest
      return (⟨part :: path.parents, path.name⟩, rest)
    | rest => return (⟨[], part⟩, rest)

def readKey? (cs : List Char) : Option (KeyPath × List Char) :=
  readKeyParts? (limit - 1) cs

/-- Items up to the closing bracket of an array, which may follow a comma. -/
def readItems? (item : Reader Item) : Nat → Reader (List Item)
  | 0, _ => none
  | fuel + 1, cs =>
    match skipLines fuel cs with
    | ']' :: rest => some ([], rest)
    | cs => do
      let (first, rest) ← item cs
      match skipLines fuel rest with
      | ',' :: rest =>
        let (items, rest) ← readItems? item fuel rest
        return (first :: items, rest)
      | ']' :: rest => return ([first], rest)
      | _ => none

/-- A key, its equals sign and its value. -/
def readAssignment? (item : Reader Item) : Reader (KeyPath × Item) := fun cs => do
  let (path, rest) ← readKey? cs
  let rest ← expect? '=' rest
  let (assigned, rest) ← item (skipSpaces rest)
  return ((path, assigned), rest)

/-- The entries of an inline table that has some, up to its end. -/
def readEntries? (item : Reader Item) : Nat → Reader (List (KeyPath × Item))
  | 0, _ => none
  | fuel + 1, cs => do
    let (entry, rest) ← readAssignment? item cs
    match skipSpaces rest with
    | ',' :: rest =>
      let (entries, rest) ← readEntries? item fuel rest
      return (entry :: entries, rest)
    | '\x7d' :: rest => return ([entry], rest)
    | _ => none

def readInlineTable? (item : Reader Item) : Reader Item := fun cs => do
  let (entries, rest) ← match skipSpaces cs with
    | '\x7d' :: rest => some ([], rest)
    | cs => readEntries? item (cs.length + 1) cs
  let table ← (Table.empty .header).insertAll? entries
  return (.inline table, rest)

/-- A date, a decimal or an integer, whichever comes first in this order. -/
def readNumeric? (cs : List Char) : Option (Item × List Char) :=
  match readMoment? plainBounds cs with
  | some (moment, rest) => some (.moment moment, rest)
  | none =>
    ((readFloat? cs).or ((readSpecial? cs).or (readInteger? cs))).map fun (value, rest) =>
      (.scalar value, rest)

/-- A value without parts. -/
def readScalar? : Reader Item
  | 't' :: 'r' :: 'u' :: 'e' :: rest => some (.scalar (.bool true), rest)
  | 'f' :: 'a' :: 'l' :: 's' :: 'e' :: rest => some (.scalar (.bool false), rest)
  | cs =>
    if cs.head? = some '"' ∨ cs.head? = some '\'' then
      (readString? cs).map fun (text, rest) => (.scalar (.text text), rest)
    else readNumeric? cs

/-- A value of arrays and inline tables that nest no deeper than `levels`. -/
def readValue? : Nat → Reader Item
  | levels + 1, '[' :: rest =>
    (readItems? (readValue? levels) (rest.length + 1) rest).map fun (items, rest) =>
      (.array items, rest)
  | levels + 1, '\x7b' :: rest => readInlineTable? (readValue? levels) rest
  | _, cs => readScalar? cs

/-- A line of a document that says something. -/
inductive Statement where
  | entry (path : KeyPath) (item : Item)
  | header (path : KeyPath) (isArray : Bool)

def readHeader? : Reader Statement
  | '[' :: '[' :: rest => do
    let (path, rest) ← readKey? rest
    let rest ← expect? ']' rest
    let rest ← expect? ']' rest
    return (.header path true, rest)
  | '[' :: rest => do
    let (path, rest) ← readKey? rest
    let rest ← expect? ']' rest
    return (.header path false, rest)
  | _ => none

def readStatement? (cs : List Char) : Option (Statement × List Char) :=
  if cs.head? = some '[' then readHeader? cs
  else
    (readAssignment? (readValue? (limit - 1)) cs).map fun ((path, item), rest) =>
      (.entry path item, rest)

/-- The statements of a document, each up to the end of its line. -/
def readStatements? : Nat → List Char → Option (List Statement)
  | 0, _ => none
  | fuel + 1, cs =>
    match skipSpaces cs with
    | [] => some []
    | '#' :: _ | '\n' :: _ | '\r' :: _ => do readStatements? fuel (← lineEnd? cs)
    | cs => do
      let (statement, rest) ← readStatement? cs
      return statement :: (← readStatements? fuel (← lineEnd? rest))

/-- The entries before the first header, and the headers each with the entries after it. -/
def sections : List Statement → List (KeyPath × Item) × List Section
  | [] => ([], [])
  | .entry path item :: statements =>
    let (entries, later) := sections statements
    ((path, item) :: entries, later)
  | .header path isArray :: statements =>
    let (entries, later) := sections statements
    ([], ⟨path, isArray, entries⟩ :: later)

/-- Drops a byte order mark at the start of a text. -/
def dropMark : List Char → List Char
  | '\uFEFF' :: rest => rest
  | cs => cs

/-- The entries of a document. One byte order mark may stand before it. -/
def parse? (source : String) : Option (List (String × Value)) := do
  let cs := dropMark source.toList
  let (entries, later) := sections (← readStatements? (cs.length + 1) cs)
  let root ← (Table.empty .header).insertAll? entries
  let document ← later.foldlM Table.addSection? root
  match document.toValue? with
  | some (.table entries) => return entries
  | _ => none

end Declang.Toml
