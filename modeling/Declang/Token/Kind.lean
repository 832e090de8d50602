namespace Declang

/-- The closed set of token categories. -/
inductive TokenKind where
  | openBrace
  | closeBrace
  | openParen
  | closeParen
  | comma
  | semicolon
  | minus
  | complement
  | negation
  | addition
  | multiply
  | divide
  | logicalAnd
  | logicalOr
  | bitwiseAnd
  | bitwiseOr
  | comparison
  | assignment
  | typeKeyword
  | returnKeyword
  | ifKeyword
  | elseKeyword
  | identifier
  | unsignedLiteral
  | integerLiteral
  deriving DecidableEq, Repr

namespace TokenKind

/-- The name of a kind in diagnostics and listings. -/
def name : TokenKind → String
  | openBrace => "OpenBrace"
  | closeBrace => "CloseBrace"
  | openParen => "OpenParen"
  | closeParen => "CloseParen"
  | comma => "Comma"
  | semicolon => "Semicolon"
  | minus => "Minus"
  | complement => "Complement"
  | negation => "Negation"
  | addition => "Addition"
  | multiply => "Multiply"
  | divide => "Divide"
  | logicalAnd => "LogicalAnd"
  | logicalOr => "LogicalOr"
  | bitwiseAnd => "BitwiseAnd"
  | bitwiseOr => "BitwiseOr"
  | comparison => "Comparison"
  | assignment => "Assignment"
  | typeKeyword => "TypeKeyword"
  | returnKeyword => "ReturnKeyword"
  | ifKeyword => "IfKeyword"
  | elseKeyword => "ElseKeyword"
  | identifier => "Identifier"
  | unsignedLiteral => "UnsignedIntegerLiteral"
  | integerLiteral => "IntegerLiteral"

def all : List TokenKind :=
  [openBrace, closeBrace, openParen, closeParen, comma, semicolon, minus, complement, negation,
    addition, multiply, divide, logicalAnd, logicalOr, bitwiseAnd, bitwiseOr, comparison,
    assignment, typeKeyword, returnKeyword, ifKeyword, elseKeyword, identifier, unsignedLiteral,
    integerLiteral]

def ofName? (name : String) : Option TokenKind :=
  all.find? (·.name == name)

/-- Literal tokens carry a decoded value. -/
def isLiteral : TokenKind → Bool
  | unsignedLiteral | integerLiteral => true
  | _ => false

theorem mem_all (kind : TokenKind) : kind ∈ all := by
  cases kind <;> decide

end TokenKind

end Declang
