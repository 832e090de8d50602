import Declang.Arena.Integrity
import Declang.Grammar.Production
import Declang.Token
namespace Declang

/-- A violated precondition of a build step. The grammar rules all of them out. -/
inductive Defect where
  | expected (production : Production) (kind : TokenKind) (offset : Nat) (found : Option TokenKind)
  | functionInside (cursor : NodeId) (location : Location)
  | headerLength (length : Nat)
  | declarationLength (length : Nat)
  | initializerNotLiteral
  | returnOutside
  | returnLength (length : Nat)
  | notReturnable (kind : TokenKind)
  | closeAtProgram
  | noParent (cursor : NodeId)
  | leftProgram
  | corrupted (error : IntegrityError)
  deriving DecidableEq, Repr

namespace Defect

/-- The activity that found the defect. -/
def context : Defect → String
  | expected production .. => production.name
  | functionInside .. | headerLength _ => Production.functionDefinition.name
  | declarationLength _ | initializerNotLiteral => Production.variableDeclaration.name
  | returnOutside | returnLength _ | notReturnable _ => Production.returnStatement.name
  | closeAtProgram | noParent _ => Production.closeBrace.name
  | leftProgram => "location stack"
  | corrupted _ => "tree integrity"

def detail : Defect → String
  | expected _ kind offset found =>
    "expected " ++ kind.name ++ " at offset " ++ toString offset ++ ", found "
      ++ (found.map TokenKind.name).getD "nothing"
  | functionInside cursor location =>
    "functions are only built at program level (cursor " ++ NodeId.display cursor ++ ", location "
      ++ location.description ++ ")"
  | headerLength length => toString length ++ " matched tokens do not encode a parameter list"
  | declarationLength length => "expected 3 or 5 matched tokens, got " ++ toString length
  | initializerNotLiteral => "initializer is not a literal"
  | returnOutside => "return statements are only built inside functions"
  | returnLength length => "expected 2 or 3 matched tokens, got " ++ toString length
  | notReturnable kind => kind.name ++ " cannot be a returned value"
  | closeAtProgram => "closing brace matched at program level"
  | noParent cursor => "cursor " ++ NodeId.display cursor ++ " has no parent to return to"
  | leftProgram => "attempted to leave the program location"
  | corrupted error => error.message

end Defect

/-- Why a parse or a step of it fails. -/
inductive ParseError where
  /-- No production legal at `location` matches what follows. -/
  | noMatch (location : Location) (line : Nat) (found : String)
  /-- The tokens end with `depth` blocks still open. -/
  | unterminated (location : Location) (depth : Nat)
  | internal (defect : Defect)
  /-- A node outside the arena was asked for. -/
  | missingNode (id : NodeId)
  deriving DecidableEq, Repr

namespace ParseError

/-- How many upcoming kinds a mismatch shows. -/
def shownKinds : Nat := 6

/-- The mismatch at the start of `tokens`. -/
def mismatch (location : Location) (tokens : List Token) : ParseError :=
  let shown := (tokens.take shownKinds).map (·.kind.name)
  let more := if shownKinds < tokens.length then ["..."] else []
  .noMatch location ((tokens.head?.map Token.line).getD 0) (" ".intercalate (shown ++ more))

def isInternal : ParseError → Bool
  | internal _ => true
  | _ => false

def message : ParseError → String
  | noMatch location line found =>
    "Parsing error: invalid syntax in " ++ location.description ++ " on line " ++ toString line
      ++ ", found: " ++ found
  | unterminated location depth =>
    "Parsing error: unexpected end of input inside " ++ location.description ++ " ("
      ++ toString depth ++ " unclosed block" ++ (if depth = 1 then "" else "s") ++ ")"
  | internal defect => "[BUG] " ++ defect.context ++ ": " ++ defect.detail
  | missingNode id => "no node " ++ NodeId.display id

end ParseError

end Declang
