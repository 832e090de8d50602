import Declang.Token.Literal
namespace Declang

/-- A lexeme with its category, its source line counted from one, and its decoded value. -/
structure Token where
  kind : TokenKind
  text : String
  line : Nat
  literal : Option Literal
  decoded : kind.decode text = .ok literal
  deriving DecidableEq

/-- Why a text has no tokens. -/
inductive LexError where
  /-- No rule of the lexicon applies at the start of `remainder`. -/
  | unmatched (line : Nat) (remainder : String)
  /-- The text has the form of a literal and no value. -/
  | malformed (line : Nat) (text : String) (fault : LiteralFault)
  deriving DecidableEq, Repr

namespace LexError

def line : LexError → Nat
  | unmatched line _ | malformed line _ _ => line

def message : LexError → String
  | unmatched line remainder =>
    "Lexing error: invalid token on line " ++ toString line ++ " at '" ++ remainder ++ "'"
  | malformed line text fault =>
    "Lexing error: malformed literal '" ++ text ++ "' on line " ++ toString line ++ ": "
      ++ fault.reason

end LexError

namespace Token

/-- The token of this kind and text, if a literal kind can decode its text. -/
def make (kind : TokenKind) (text : String) (line : Nat) : Except LexError Token :=
  match h : kind.decode text with
  | .ok literal => .ok ⟨kind, text, line, literal, h⟩
  | .error fault => .error (.malformed line text fault)

def display (token : Token) : String :=
  "[" ++ token.kind.name ++ "] => " ++ token.text

@[ext]
theorem ext {s t : Token} (hkind : s.kind = t.kind) (htext : s.text = t.text)
    (hline : s.line = t.line) : s = t := by
  obtain ⟨_, _, _, _, hs⟩ := s
  obtain ⟨_, _, _, _, ht⟩ := t
  subst hkind htext hline
  have := hs.symm.trans ht
  simp_all

end Token

end Declang
