import Declang.Proofs.Lexeme
import Declang.Proofs.Item
namespace Declang

/-- The types that a declaration can name. -/
inductive BaseType where
  | int
  | uint
  | byte
  deriving DecidableEq, Repr

def BaseType.text : BaseType → String
  | int => "int"
  | uint => "uint"
  | byte => "byte"

/-- A word that may name something. -/
structure Name where
  text : String
  isIdentifier : IsIdentifier text

/-- A literal as it is written: decimal digits, and a suffix where the value has no sign. -/
structure Numeral where
  digits : List Char
  unsigned : Bool
  isRun : digits ≠ [] ∧ digits.all Char.isDigit = true
  inRange : decimalValue digits < if unsigned then Nat.pow 2 32 else Nat.pow 2 31

namespace Numeral

def text (numeral : Numeral) : String :=
  String.ofList (numeral.digits ++ if numeral.unsigned then ['u'] else [])

def kind (numeral : Numeral) : TokenKind :=
  if numeral.unsigned then .unsignedLiteral else .integerLiteral

def literal (numeral : Numeral) : Literal :=
  if numeral.unsigned then .uint (.ofNat (decimalValue numeral.digits))
  else .int (.ofNat (decimalValue numeral.digits))

end Numeral

namespace Source

structure Parameter where
  type : BaseType
  name : Name

structure Variable where
  type : BaseType
  name : Name
  default : Option Numeral

structure Function where
  returnType : BaseType
  name : Name
  parameters : List Parameter

inductive Returned where
  | literal (numeral : Numeral)
  | name (name : Name)

inductive Statement where
  | declaration (declared : Variable)
  | return_ (returned : Option Returned)

/-- A declaration of the language as it is written. -/
inductive Item where
  | declaration (declared : Variable)
  | function (function : Function) (body : List Statement)

end Source

def BaseType.lexeme (type : BaseType) : Lexeme := ⟨.typeKeyword, type.text⟩

def Name.lexeme (name : Name) : Lexeme := ⟨.identifier, name.text⟩

def Numeral.lexeme (numeral : Numeral) : Lexeme := ⟨numeral.kind, numeral.text⟩

namespace Source

def Parameter.lexemes (p : Parameter) : List Lexeme :=
  [p.type.lexeme, p.name.lexeme]

def parameterLexemes : List Parameter → List Lexeme
  | [] => []
  | first :: later => first.lexemes ++ later.flatMap fun p => ⟨.comma, ","⟩ :: p.lexemes

def Function.lexemes (f : Function) : List Lexeme :=
  [f.returnType.lexeme, f.name.lexeme, ⟨.openParen, "("⟩]
    ++ (parameterLexemes f.parameters ++ [⟨.closeParen, ")"⟩, ⟨.openBrace, "\x7b"⟩])

def Variable.lexemes (v : Variable) : List Lexeme :=
  [v.type.lexeme, v.name.lexeme]
    ++ (v.default.elim [] (fun numeral => [⟨.assignment, "="⟩, numeral.lexeme])
      ++ [⟨.semicolon, ";"⟩])

def Returned.lexeme : Returned → Lexeme
  | literal numeral => numeral.lexeme
  | name word => word.lexeme

def Statement.lexemes : Statement → List Lexeme
  | declaration v => v.lexemes
  | return_ returned =>
    [⟨.returnKeyword, "return"⟩]
      ++ (returned.elim [] (fun r => [r.lexeme]) ++ [⟨.semicolon, ";"⟩])

/-- The words and symbols of a declaration in their order. -/
def Item.lexemes : Item → List Lexeme
  | declaration v => v.lexemes
  | function f body => f.lexemes ++ (body.flatMap Statement.lexemes ++ [⟨.closeBrace, "\x7d"⟩])

def Parameter.meaning (p : Parameter) : Declang.Parameter :=
  ⟨p.type.text, p.name.text⟩

def Variable.meaning (v : Variable) : Declang.Variable :=
  ⟨v.type.text, v.name.text, v.default.map Numeral.text⟩

def Function.meaning (f : Function) : Declang.Function :=
  ⟨f.returnType.text, f.name.text, f.parameters.map Parameter.meaning⟩

def Returned.meaning : Returned → Declang.Returned
  | literal numeral => .ofLiteral numeral.literal
  | name word => .name word.text

def Statement.meaning : Statement → Declang.Statement
  | declaration v => .declaration v.meaning
  | return_ returned => .return_ (returned.map Returned.meaning)

/-- What a tree keeps of a declaration: all but the spelling of returned literals. -/
def Item.meaning : Item → Declang.Item
  | declaration v => .declaration v.meaning
  | function f body => .function f.meaning (body.map Statement.meaning)

end Source

end Declang
