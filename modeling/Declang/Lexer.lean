import Declang.Lexicon
import Declang.Token
namespace Declang

/-- The tokens of the rest of a line. -/
def lexLine (line : Nat) (cs : List Char) : Except LexError (List Token) :=
  if cs = [] then .ok []
  else
    match _hmatch : firstMatch? cs with
    | none => .error (.unmatched line (String.ofList (skipBlanks cs)))
    | some (kind, m) => do
      let token ← Token.make kind (String.ofList m.payload) line
      let tokens ← lexLine line m.rest
      return token :: tokens
termination_by cs.length
decreasing_by exact firstMatch?_rest_lt (by assumption)

/-- The tokens of consecutive lines, the first of them numbered `line`. -/
def lexLines (line : Nat) : List (List Char) → Except LexError (List Token)
  | [] => .ok []
  | cs :: more => do
    let tokens ← lexLine line (trimBlanks cs)
    let later ← lexLines (line + 1) more
    return tokens ++ later

/-- The tokens of a source text, or the first place where it has none. -/
def lex (source : String) : Except LexError (List Token) :=
  lexLines 1 (lines source.toList)

end Declang
