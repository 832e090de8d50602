import Declang.Token.Kind
namespace Declang

/-- A step of a pattern over token kinds. -/
inductive Element where
  /-- One token of this kind. -/
  | one (kind : TokenKind)
  /-- One token of any of these kinds. -/
  | oneOf (kinds : List TokenKind)
  /-- The whole body, or nothing. -/
  | optional (body : List Element)
  /-- The body, any number of times. -/
  | repeated (body : List Element)
  deriving Repr

/-- A sequence of elements. -/
abbrev Pattern := List Element

/-- How many kinds `step` takes from the front of `kinds` when it is used over and over, until it
fails or takes nothing. -/
def greedy (step : List TokenKind → Option Nat) (kinds : List TokenKind) : Nat :=
  match step kinds with
  | some (n + 1) =>
    if kinds.length ≤ n then 0 else (n + 1) + greedy step (kinds.drop (n + 1))
  | _ => 0
termination_by kinds.length
decreasing_by simp only [List.length_drop]; omega

mutual

/-- How many kinds an element takes from the front of `kinds`. -/
def Element.take? : Element → List TokenKind → Option Nat
  | .one kind, kinds => if kinds.head? = some kind then some 1 else none
  | .oneOf choices, kinds => if kinds.head?.any choices.contains then some 1 else none
  | .optional body, kinds => some ((Pattern.take? body kinds).getD 0)
  | .repeated body, kinds => some (greedy (fun kinds => Pattern.take? body kinds) kinds)

/-- How many kinds a pattern takes from the front of `kinds`, its elements one after another and
each without regard to those after it. -/
def Pattern.take? : Pattern → List TokenKind → Option Nat
  | [], _ => some 0
  | element :: pattern, kinds =>
    match element.take? kinds with
    | none => none
    | some n => (Pattern.take? pattern (kinds.drop n)).map (n + ·)

end

end Declang
