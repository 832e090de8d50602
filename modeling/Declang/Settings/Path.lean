import Declang.Settings.Value
namespace Declang

/-- A step from a value to a part of it. -/
inductive Step where
  | key (name : String)
  | index (position : Int)
  deriving DecidableEq, Repr

/-- The way from the root of a configuration to a value. -/
structure Path where
  head : String
  steps : List Step
  deriving DecidableEq, Repr

namespace Path

def isKeyChar (c : Char) : Bool :=
  c.isAlphanum || c == '_' || c == '-' || c == ' '

def isInnerBlank (c : Char) : Bool :=
  c == ' ' || c == '\t'

/-- A key at the front of `cs`. -/
def readKey? (cs : List Char) : Option (String × List Char) :=
  if cs.head?.any isKeyChar then
    some (String.ofList (cs.takeWhile isKeyChar), cs.dropWhile isKeyChar)
  else none

/-- A position of 64 bits with its sign. -/
def readPosition? (cs : List Char) : Option (Int × List Char) :=
  let (sign, cs) : Int × List Char := match cs with
    | '-' :: rest => (-1, rest)
    | cs => (1, cs)
  match readDigits? (cs.takeWhile Char.isDigit) with
  | none => none
  | some n =>
    let position := sign * n
    if -Int.pow 2 63 ≤ position ∧ position < Int.pow 2 63 then
      some (position, cs.dropWhile Char.isDigit)
    else none

/-- A position between its opening and its closing bracket. -/
def readIndex? (cs : List Char) : Option (Int × List Char) := do
  let (position, cs) ← readPosition? (cs.dropWhile isInnerBlank)
  match cs.dropWhile isInnerBlank with
  | ']' :: rest => return (position, rest)
  | _ => none

/-- The steps that follow the first key. Each takes a character, so that the length of the text
bounds their number. -/
def readSteps? : Nat → List Char → Option (List Step)
  | _, [] => some []
  | 0, _ => none
  | fuel + 1, '.' :: rest => do
    let (name, rest) ← readKey? rest
    return .key name :: (← readSteps? fuel rest)
  | fuel + 1, '[' :: rest => do
    let (position, rest) ← readIndex? rest
    return .index position :: (← readSteps? fuel rest)
  | _, _ => none

/-- Reads a path such as `a.b[0].c`. -/
def parse? (source : String) : Option Path := do
  let (head, rest) ← readKey? source.toList
  return ⟨head, ← readSteps? rest.length rest⟩

end Path

/-- Arrays stay shorter than this. -/
def maxArrayLength : Nat := Nat.pow 2 32

/-- The place of a position in a list of this length, counted from the end if it is negative. -/
def resolvePosition? (length : Nat) : Int → Option Nat
  | .ofNat n => if n < maxArrayLength then some n else none
  | .negSucc n => if n < length then some (length - (n + 1)) else none

namespace Value

/-- Sets the value at the end of some steps. What is in the way becomes a table or an array, and an
array is filled up with nil; only a position that no array has, or one before its start, has no
place. -/
def set? (value : Value) : List Step → Value → Option Value
  | [], _ => some value
  | [.key name], target => some (merge name value target)
  | .key name :: steps, target => do
    let current := (target.entries.lookup (lowerKey name)).getD .nil
    let part ← set? value steps current
    return .table (putEntry (lowerKey name) part target.entries)
  | .index position :: steps, target => do
    let items := target.items
    let place ← resolvePosition? items.length position
    let items := items ++ List.replicate (place + 1 - items.length) .nil
    let part ← set? value steps (items[place]?.getD .nil)
    return .array (items.set place part)

/-- Sets the value at a path. -/
def setPath? (value : Value) (path : Path) (target : Value) : Option Value :=
  set? value (.key path.head :: path.steps) target

end Value

end Declang
