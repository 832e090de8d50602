import Declang.Grammar.Element
namespace Declang

/-- The nesting contexts that decide which productions may match. -/
inductive Location where
  | program
  | function
  deriving DecidableEq, Repr

def Location.name : Location → String
  | program => "Program"
  | function => "Function"

def Location.description : Location → String
  | program => "program"
  | function => "function body"

def Location.all : List Location :=
  [.program, .function]

/-- The productions of the grammar. -/
inductive Production where
  | functionDefinition
  | variableDeclaration
  | returnStatement
  | closeBrace
  deriving DecidableEq, Repr

namespace Production

/-- The order in which productions are tried. -/
def all : List Production :=
  [functionDefinition, variableDeclaration, returnStatement, closeBrace]

def name : Production → String
  | functionDefinition => "function_definition"
  | variableDeclaration => "variable_declaration"
  | returnStatement => "return_statement"
  | closeBrace => "close_brace"

def ofName? (name : String) : Option Production :=
  all.find? (·.name == name)

/-- Functions stand at program level only, returns and closing braces inside functions only. -/
def legalAt : Production → Location → Bool
  | functionDefinition, .program => true
  | functionDefinition, .function => false
  | variableDeclaration, _ => true
  | returnStatement, location | closeBrace, location => location = .function

def pattern : Production → Pattern
  | functionDefinition =>
    [.one .typeKeyword, .one .identifier, .one .openParen,
      .optional [.one .typeKeyword, .one .identifier,
        .repeated [.one .comma, .one .typeKeyword, .one .identifier]],
      .one .closeParen, .one .openBrace]
  | variableDeclaration =>
    [.one .typeKeyword, .one .identifier,
      .optional [.one .assignment, .oneOf [.integerLiteral, .unsignedLiteral]],
      .one .semicolon]
  | returnStatement =>
    [.one .returnKeyword,
      .optional [.oneOf [.integerLiteral, .unsignedLiteral, .identifier]],
      .one .semicolon]
  | closeBrace => [.one .closeBrace]

/-- The first production, legal at `location`, that takes anything from the front of `kinds`, with
the number of kinds it takes. -/
def find? (location : Location) (kinds : List TokenKind) : Option (Production × Nat) :=
  (all.filter (·.legalAt location)).findSome? fun production =>
    match production.pattern.take? kinds with
    | none | some 0 => none
    | some (n + 1) => some (production, n + 1)

theorem find?_pos {location : Location} {kinds : List TokenKind} {production : Production} {n : Nat}
    (h : find? location kinds = some (production, n)) : 0 < n := by
  obtain ⟨_, _, h⟩ := List.exists_of_findSome?_eq_some h
  split at h <;> cases h
  exact Nat.succ_pos _

end Production

end Declang
