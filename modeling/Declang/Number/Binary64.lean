import Declang.Number.Decimal
namespace Declang

/-- A number of the 64-bit binary floating point format; a finite one is
`mantissa * 2 ^ exponent` with the sign apart, so that zero has one too. -/
inductive Binary64 where
  | nan
  | infinite (negative : Bool)
  | finite (negative : Bool) (mantissa : Nat) (exponent : Int)
  deriving DecidableEq, Repr

namespace Binary64

def precision : Nat := 53

def minExponent : Int := -1074

def maxExponent : Int := 971

def zero (negative : Bool) : Binary64 := .finite negative 0 minExponent

/-- `n * b ^ e / d` as a fraction of natural numbers. -/
def scale (b : Nat) (e : Int) (n d : Nat) : Nat × Nat :=
  match e with
  | .ofNat k => (n * Nat.pow b k, d)
  | .negSucc k => (n, d * Nat.pow b (k + 1))

/-- The integer nearest to `n / d`; a half goes to the even neighbour. -/
def roundEven (n d : Nat) : Nat :=
  let q := n / d
  let r := 2 * (n % d)
  if r < d ∨ (r = d ∧ q % 2 = 0) then q else q + 1

/-- The exponent of the largest power of two that `n / d` reaches. -/
def floorLog2 (n d : Nat) : Int :=
  let estimate : Int := (n.log2 : Int) - d.log2
  let (m, e) := scale 2 estimate d n
  if m ≤ e then estimate else estimate - 1

/-- The number of the format nearest to `n / d`. -/
def ofFraction (negative : Bool) (n d : Nat) : Binary64 :=
  if n = 0 then zero negative
  else
    let exponent := max (floorLog2 n d - (precision - 1)) minExponent
    let (n, d) := scale 2 (-exponent) n d
    let mantissa := roundEven n d
    let (mantissa, exponent) :=
      if mantissa = Nat.pow 2 precision then (Nat.pow 2 (precision - 1), exponent + 1)
      else (mantissa, exponent)
    if maxExponent < exponent then .infinite negative else .finite negative mantissa exponent

/-- The number of the format nearest to a decimal. Decimals of more than 310 places before the point
are too large and those that start more than 330 places after it too small to tell from zero. -/
def ofDecimal (negative : Bool) (d : Decimal) : Binary64 :=
  let order := (toString d.digits).length + d.exponent
  if d.digits = 0 ∨ order < -330 then zero negative
  else if 310 < order then .infinite negative
  else
    let (n, m) := scale 10 d.exponent d.digits 1
    ofFraction negative n m

def isFinite : Binary64 → Bool
  | finite .. => true
  | _ => false

def isZero : Binary64 → Bool
  | finite _ mantissa _ => mantissa = 0
  | _ => false

/-- The nearest integer from `0` to `limit`; a half goes up, and what is no number is zero. -/
def roundWithin (limit : Nat) : Binary64 → Nat
  | nan => 0
  | infinite negative => if negative then 0 else limit
  | finite true _ _ => 0
  | finite false mantissa exponent =>
    let (n, d) := scale 2 exponent mantissa 1
    min ((2 * n + d) / (2 * d)) limit

/-- The number of places before the point of `n / d`, not above zero for what is below one tenth. -/
def places (n d : Nat) : Int :=
  if d ≤ n then (toString (n / d)).length
  else 1 - ((toString ((d + n - 1) / n - 1)).length : Int)

/-- The decimal of `count` digits next to `n / d` that lies between `low / d` and `high / d`, the
ends included on demand. Of two the nearer one is taken, and the greater one if they are equally
near. -/
def decimalWithin? (n d low high : Nat) (inclusive : Bool) (count : Nat) : Option Decimal :=
  let exponent := places n d - count
  let within (candidate : Nat) : Bool :=
    let (c, e) := scale 10 exponent candidate 1
    if inclusive then low * e ≤ c * d && c * d ≤ high * e else low * e < c * d && c * d < high * e
  let (n, d) := scale 10 (-exponent) n d
  let below := n / d
  let nearer := if 2 * (n % d) < d then [below, below + 1] else [below + 1, below]
  (nearer.find? within).map (Decimal.normalize · exponent)

/-- The decimal of fewest digits that rounds to `mantissa * 2 ^ exponent`. -/
def shortest (mantissa : Nat) (exponent : Int) : Decimal :=
  let atPower := mantissa = Nat.pow 2 (precision - 1) ∧ minExponent < exponent
  let (n, d) := scale 2 (exponent - 2) (4 * mantissa) 1
  let (low, _) := scale 2 (exponent - 2) (4 * mantissa - (if atPower then 1 else 2)) 1
  let (high, _) := scale 2 (exponent - 2) (4 * mantissa + 2) 1
  let candidate? := (List.range 17).findSome? fun count =>
    decimalWithin? n d low high (mantissa % 2 = 0) (count + 1)
  candidate?.getD ⟨n / d, 0⟩

/-- The shortest text that reads back as the number, without an exponent. -/
def display : Binary64 → String
  | nan => "NaN"
  | infinite negative => (if negative then "-" else "") ++ "inf"
  | finite negative mantissa exponent =>
    (if negative then "-" else "")
      ++ (if mantissa = 0 then "0" else (shortest mantissa exponent).positional)

end Binary64

end Declang
