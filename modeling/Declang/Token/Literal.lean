import Declang.Token.Kind
namespace Declang

/-- The decoded value of a literal token. -/
inductive Literal where
  | int (value : Int32)
  | uint (value : UInt32)
  deriving DecidableEq, Repr

/-- Why a text is no literal of its kind. -/
inductive LiteralFault where
  | missingSuffix
  | notDigits
  | tooLarge
  deriving DecidableEq, Repr

def LiteralFault.reason : LiteralFault → String
  | missingSuffix => "unsigned literal is missing its 'u' suffix"
  | notDigits => "expected a run of decimal digits"
  | tooLarge => "value does not fit the literal type"

/-- The number that a run of decimal digits writes, leading zeros allowed. -/
def decimalValue (digits : List Char) : Nat :=
  digits.foldl (fun value c => 10 * value + (c.toNat - '0'.toNat)) 0

/-- The value of a non-empty run of ASCII digits. -/
def readDigits? (cs : List Char) : Option Nat :=
  if cs ≠ [] ∧ cs.all Char.isDigit then some (decimalValue cs) else none

/-- A value below `bound`, written in digits only. -/
def decodeBelow (bound : Nat) (cs : List Char) : Except LiteralFault Nat :=
  match readDigits? cs with
  | none => .error .notDigits
  | some value => if value < bound then .ok value else .error .tooLarge

def decodeSigned (cs : List Char) : Except LiteralFault Int32 :=
  (decodeBelow (Nat.pow 2 31) cs).map Int32.ofNat

def decodeUnsigned (cs : List Char) : Except LiteralFault UInt32 :=
  if cs.getLast? = some 'u' then (decodeBelow (Nat.pow 2 32) cs.dropLast).map UInt32.ofNat
  else .error .missingSuffix

/-- The literal that a token of this kind and text carries; other kinds carry none. -/
def TokenKind.decode (kind : TokenKind) (text : String) : Except LiteralFault (Option Literal) :=
  match kind with
  | .integerLiteral => (decodeSigned text.toList).map (some ∘ .int)
  | .unsignedLiteral => (decodeUnsigned text.toList).map (some ∘ .uint)
  | _ => .ok none

end Declang
