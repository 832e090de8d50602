import Declang.Token.Literal
namespace Declang

/-- The number `digits * 10 ^ exponent`. -/
structure Decimal where
  digits : Nat
  exponent : Int
  deriving DecidableEq, Repr

namespace Decimal

/-- A signed run of digits after the mark of an exponent; no mark means zero. -/
def readExponent? (cs : List Char) : Option Int :=
  match cs with
  | [] => some 0
  | mark :: rest =>
    if mark = 'e' ∨ mark = 'E' then
      match rest with
      | '-' :: run => (readDigits? run).map fun n => -(n : Int)
      | '+' :: run => (readDigits? run).map fun n => (n : Int)
      | run => (readDigits? run).map fun n => (n : Int)
    else none

/-- Reads digits with an optional point among, before or after them, and an optional exponent. -/
def read? (cs : List Char) : Option Decimal :=
  let whole := cs.takeWhile Char.isDigit
  let (fraction, rest) := match cs.dropWhile Char.isDigit with
    | '.' :: rest => (rest.takeWhile Char.isDigit, rest.dropWhile Char.isDigit)
    | rest => ([], rest)
  match readDigits? (whole ++ fraction), readExponent? rest with
  | some digits, some exponent => some ⟨digits, exponent - fraction.length⟩
  | _, _ => none

/-- Drops zeros at the end of the digits. -/
def normalize (digits : Nat) (exponent : Int) : Decimal :=
  if digits ≠ 0 ∧ digits % 10 = 0 then normalize (digits / 10) (exponent + 1)
  else ⟨digits, exponent⟩
termination_by digits
decreasing_by omega

/-- All digits in place, without an exponent. -/
def positional (d : Decimal) : String :=
  let digits := toString d.digits
  match d.exponent with
  | .ofNat zeros => digits ++ String.ofList (List.replicate zeros '0')
  | .negSucc n =>
    let places := n + 1
    if places < digits.length then
      let cs := digits.toList
      String.ofList (cs.take (cs.length - places)) ++ "."
        ++ String.ofList (cs.drop (cs.length - places))
    else "0." ++ String.ofList (List.replicate (places - digits.length) '0') ++ digits

end Decimal

end Declang
