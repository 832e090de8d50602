import Declang.Lexer
import Declang.Parse.Build
namespace Declang

/-- Builds the production that matches at the start of `tokens` and says how many it took. -/
def feed (tokens : List Token) (position : Position) : Builder (Production × Nat × Position) :=
  match Production.find? position.location (tokens.map Token.kind) with
  | none => throw (.mismatch position.location tokens)
  | some (production, n) => do
    let position ← build production (tokens.take n) position
    return (production, n, position)

/-- Builds productions until the tokens are used up. -/
def consume (tokens : List Token) (position : Position) : Builder Position :=
  if tokens = [] then pure position
  else
    match _hfind : Production.find? position.location (tokens.map Token.kind) with
    | none => throw (.mismatch position.location tokens)
    | some (production, n) => do
      let position ← build production (tokens.take n) position
      consume (tokens.drop n) position
termination_by tokens.length
decreasing_by
  have hpos := Production.find?_pos (by assumption)
  have hne := List.length_pos_iff.2 (by assumption)
  simp only [List.length_drop]
  omega

/-- The program of a token list. -/
def parse (tokens : List Token) : Except ParseError Arena :=
  match consume tokens .start .empty with
  | (.error e, _) => .error e
  | (.ok position, arena) => do
    position.finish
    match arena.validate with
    | .error e => throw (.internal (.corrupted e))
    | .ok () => return arena

/-- Why a source text is no program. -/
inductive SourceError where
  | lex (error : LexError)
  | parse (error : ParseError)
  deriving DecidableEq, Repr

def SourceError.message : SourceError → String
  | lex error => error.message
  | parse error => error.message

/-- The program of a source text. -/
def process (source : String) : Except SourceError Arena :=
  match lex source with
  | .error e => .error (.lex e)
  | .ok tokens => (parse tokens).mapError .parse

end Declang
