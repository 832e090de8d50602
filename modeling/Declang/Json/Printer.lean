import Declang.Json
namespace Declang.Json

/-- The blanks of a printed value. -/
structure Layout where
  /-- What precedes an item, or the closing bracket, of a value at this depth. -/
  line : Nat → List Char
  /-- What stands between a key and its value. -/
  colon : List Char

def Layout.compact : Layout := ⟨fun _ => [], [':']⟩

/-- One item a line, indented by two blanks for each level. -/
def Layout.pretty : Layout := ⟨fun depth => '\n' :: List.replicate (2 * depth) ' ', [':', ' ']⟩

def hexDigit (n : Nat) : Char :=
  if n < 10 then Char.ofNat ('0'.toNat + n) else Char.ofNat ('a'.toNat + (n - 10))

/-- Quotes, backslashes and control characters below the space are escaped, all else stands for
itself. -/
def escape (c : Char) : List Char :=
  if c = '"' then ['\\', '"']
  else if c = '\\' then ['\\', '\\']
  else if c = '\x08' then ['\\', 'b']
  else if c = '\x0c' then ['\\', 'f']
  else if c = '\n' then ['\\', 'n']
  else if c = '\r' then ['\\', 'r']
  else if c = '\t' then ['\\', 't']
  else if c.toNat < 0x20 then
    ['\\', 'u', '0', '0', hexDigit (c.toNat / 16), hexDigit (c.toNat % 16)]
  else [c]

def Text.write : Text → List Char
  | whole s => '"' :: (s.toList.flatMap escape ++ ['"'])
  | broken => "\"\\ud800\"".toList

mutual

/-- Writes a value at this depth. -/
def write (layout : Layout) (depth : Nat) : Json → List Char
  | null => "null".toList
  | bool value => (if value then "true" else "false").toList
  | number spelling => spelling.toList
  | text t => t.write
  | array [] => "[]".toList
  | array (item :: items) =>
    '[' :: (layout.line (depth + 1) ++ write layout (depth + 1) item
      ++ writeItems layout depth items)
  | object [] => "\x7b\x7d".toList
  | object ((key, value) :: fields) =>
    '\x7b' :: (layout.line (depth + 1) ++ key.write ++ layout.colon
      ++ write layout (depth + 1) value ++ writeFields layout depth fields)

/-- The items after the first, and the end of the array. -/
def writeItems (layout : Layout) (depth : Nat) : List Json → List Char
  | [] => layout.line depth ++ [']']
  | item :: items =>
    ',' :: (layout.line (depth + 1) ++ write layout (depth + 1) item
      ++ writeItems layout depth items)

/-- The fields after the first, and the end of the object. -/
def writeFields (layout : Layout) (depth : Nat) : List (Text × Json) → List Char
  | [] => layout.line depth ++ ['\x7d']
  | (key, value) :: fields =>
    ',' :: (layout.line (depth + 1) ++ key.write ++ layout.colon
      ++ write layout (depth + 1) value ++ writeFields layout depth fields)

end

def render (layout : Layout) (value : Json) : String :=
  String.ofList (value.write layout 0)

end Declang.Json
