import Declang.Json.Reader
import Declang.Settings.Value
import Declang.Toml.Scan
namespace Declang.Toml

/-- The digits of `cs` read in this base, if they fit 63 bits. -/
def readBased? (base : Nat) (cs : List Char) : Option (Value × List Char) := do
  let isDigit (c : Char) : Bool := (Json.hexValue? c).any (· < base)
  let (run, rest) ← readRun? isDigit cs
  let digits ← run.mapM Json.hexValue?
  let value := digits.foldl (fun value digit => base * value + digit) 0
  if value < Nat.pow 2 63 then return (.int value, rest) else none

/-- An optional sign; it is true for a minus. -/
def readSign : List Char → Bool × List Char
  | '-' :: rest => (true, rest)
  | '+' :: rest => (false, rest)
  | cs => (false, cs)

/-- A decimal run without superfluous zeros. -/
def readWhole? : Reader (List Char)
  | '0' :: rest => some (['0'], rest)
  | cs => readRun? Char.isDigit cs

def readDecimalInt? (cs : List Char) : Option (Value × List Char) := do
  let (negative, cs) := readSign cs
  let (run, rest) ← readWhole? cs
  let value : Int := decimalValue run
  let value := if negative then -value else value
  if -Int.pow 2 63 ≤ value ∧ value < Int.pow 2 63 then return (.int value, rest) else none

def readInteger? : Reader Value
  | '0' :: 'x' :: rest => readBased? 16 rest
  | '0' :: 'o' :: rest => readBased? 8 rest
  | '0' :: 'b' :: rest => readBased? 2 rest
  | cs => readDecimalInt? cs

def readExponent? : Reader Int
  | mark :: rest =>
    if mark = 'e' ∨ mark = 'E' then do
      let (negative, rest) := readSign rest
      let (run, rest) ← readRun? Char.isDigit rest
      let value : Int := decimalValue run
      return (if negative then -value else value, rest)
    else none
  | [] => none

/-- Infinity and what is no number. -/
def readSpecial? (cs : List Char) : Option (Value × List Char) :=
  let (negative, cs) := readSign cs
  match cs with
  | 'i' :: 'n' :: 'f' :: rest => some (.float (.infinite negative), rest)
  | 'n' :: 'a' :: 'n' :: rest => some (.float .nan, rest)
  | _ => none

/-- The digits after a point. -/
def readFraction? : Reader (List Char)
  | '.' :: rest => readRun? Char.isDigit rest
  | _ => none

/-- A decimal with a fraction, an exponent or both. One that is too large is none, unless it is
negative. -/
def readFloat? (cs : List Char) : Option (Value × List Char) := do
  let (negative, cs) := readSign cs
  let (whole, cs) ← readWhole? cs
  let (decimal, rest) ← match readFraction? cs with
    | some (fraction, rest) =>
      let (exponent, rest) := (readExponent? rest).getD (0, rest)
      some (⟨decimalValue (whole ++ fraction), exponent - fraction.length⟩, rest)
    | none => do
      let (exponent, rest) ← readExponent? cs
      some (⟨decimalValue whole, exponent⟩, rest)
  match Binary64.ofDecimal negative decimal with
  | .infinite false => none
  | value => return (.float value, rest)

end Declang.Toml
