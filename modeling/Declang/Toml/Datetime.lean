import Declang.Token.Literal
import Declang.Toml.Scan
namespace Declang.Toml

/-- A number of `count` digits in these bounds, with its digits. -/
def readBounded? (count low high : Nat) (cs : List Char) : Option (Nat × List Char) := do
  let (run, rest) ← readFixed? count cs
  let value := decimalValue run
  if low ≤ value ∧ value ≤ high then return (value, rest) else none

def expect? (c : Char) : List Char → Option (List Char)
  | d :: rest => if c = d then some rest else none
  | [] => none

def isLeapYear (year : Nat) : Bool :=
  year % 4 = 0 && (year % 100 ≠ 0 || year % 400 = 0)

def daysInMonth (year month : Nat) : Nat :=
  if month = 2 then (if isLeapYear year then 29 else 28)
  else if [4, 6, 9, 11].contains month then 30
  else 31

/-- A number with at least `width` digits. -/
def padded (width n : Nat) : String :=
  let digits := toString n
  String.ofList (List.replicate (width - digits.length) '0') ++ digits

/-- A date, as it is written. -/
def readDate? (cs : List Char) : Option (String × List Char) := do
  let (year, cs) ← readBounded? 4 0 9999 cs
  let cs ← expect? '-' cs
  let (month, cs) ← readBounded? 2 1 12 cs
  let cs ← expect? '-' cs
  let (day, cs) ← readBounded? 2 1 (daysInMonth year month) cs
  return (padded 4 year ++ "-" ++ padded 2 month ++ "-" ++ padded 2 day, cs)

/-- The digits after the point of a second: nine of them count, and zeros at the end are dropped. -/
def readSecondFraction? : Reader String
  | '.' :: rest =>
    let run := rest.takeWhile Char.isDigit
    if run.isEmpty then none
    else
      let kept := ((run.take 9).reverse.dropWhile (· == '0')).reverse
      let text := if kept.isEmpty then "" else "." ++ String.ofList kept
      some (text, rest.dropWhile Char.isDigit)
  | _ => none

/-- How large the parts of a moment may be. -/
structure MomentBounds where
  hour : Nat
  offsetHour : Nat
  offsetMinute : Nat
  deriving DecidableEq, Repr

/-- A time of day with its seconds. -/
def readTime? (bounds : MomentBounds) (cs : List Char) : Option (String × List Char) := do
  let (hour, cs) ← readBounded? 2 0 bounds.hour cs
  let cs ← expect? ':' cs
  let (minute, cs) ← readBounded? 2 0 59 cs
  let cs ← expect? ':' cs
  let (second, cs) ← readBounded? 2 0 60 cs
  let (fraction, cs) := (readSecondFraction? cs).getD ("", cs)
  return (padded 2 hour ++ ":" ++ padded 2 minute ++ ":" ++ padded 2 second ++ fraction, cs)

/-- The largest offset from universal time in minutes, a day. -/
def maxOffset : Nat := 24 * 60

/-- An offset from universal time; an offset of zero has no minus. -/
def readOffset? (bounds : MomentBounds) : Reader String
  | 'Z' :: rest | 'z' :: rest => some ("Z", rest)
  | sign :: rest =>
    if sign = '+' ∨ sign = '-' then do
      let (hours, rest) ← readBounded? 2 0 bounds.offsetHour rest
      let rest ← expect? ':' rest
      let (minutes, rest) ← readBounded? 2 0 bounds.offsetMinute rest
      let offset := 60 * hours + minutes
      let mark := if sign = '-' ∧ 0 < offset then "-" else "+"
      if offset ≤ maxOffset then
        return (mark ++ padded 2 (offset / 60) ++ ":" ++ padded 2 (offset % 60), rest)
      else none
    else none
  | [] => none

/-- The time after a date, with the mark between them. -/
def readDateTime? (bounds : MomentBounds) : Reader String
  | mark :: rest =>
    if mark = 'T' ∨ mark = 't' ∨ mark = ' ' then do
      let (time, rest) ← readTime? bounds rest
      let (offset, rest) := (readOffset? bounds rest).getD ("", rest)
      return ("T" ++ time ++ offset, rest)
    else none
  | [] => none

/-- A date, a time, or both, in their canonical text. -/
def readMoment? (bounds : MomentBounds) (cs : List Char) : Option (String × List Char) :=
  match readDate? cs with
  | some (date, rest) =>
    let (time, rest) := (readDateTime? bounds rest).getD ("", rest)
    some (date ++ time, rest)
  | none => readTime? bounds cs

/-- A moment that stands in a document is within a day. -/
def plainBounds : MomentBounds := ⟨23, 23, 59⟩

/-- A moment that stands in a string may reach the end of a day, and its offset may have any
minutes. -/
def quotedBounds : MomentBounds := ⟨24, 99, 99⟩

/-- The moment that a whole text writes, in its canonical text. -/
def momentOfText? (text : String) : Option String :=
  match readMoment? quotedBounds text.toList with
  | some (moment, []) => some moment
  | _ => none

end Declang.Toml
