import Declang.Parse.Position
namespace Declang

/-- Steps that grow an arena and may fail on the way. What a step has done to the arena stays done
when it fails. -/
abbrev Builder := ExceptT ParseError (StateM Arena)

namespace Builder

def defect {α : Type} (d : Defect) : Builder α :=
  throw (.internal d)

def attach (parent : NodeId) (kind : NodeKind) : Builder NodeId := do
  match (← get).attach? parent kind with
  | none => throw (.missingNode parent)
  | some (id, arena) =>
    set arena
    return id

def parentOf (id : NodeId) : Builder (Option NodeId) := do
  match (← get).get? id with
  | none => throw (.missingNode id)
  | some node => return node.parent

end Builder

/-- The token at `offset`, which must be of this kind. -/
def expectKind (production : Production) (tokens : List Token) (offset : Nat) (kind : TokenKind) :
    Except Defect Token :=
  match tokens[offset]? with
  | none => .error (.expected production kind offset none)
  | some token =>
    if token.kind = kind then .ok token
    else .error (.expected production kind offset (some token.kind))

/-- The number of parameters of a function header of `length` tokens: five without parameters, two
more for the first and three for each further one. -/
def parameterCount (length : Nat) : Except Defect Nat :=
  if length = 5 then .ok 0
  else if 7 ≤ length ∧ (length - 7) % 3 = 0 then .ok ((length - 7) / 3 + 1)
  else .error (.headerLength length)

/-- The parameter number `i` of a function header. -/
def readParameter (tokens : List Token) (i : Nat) : Except Defect Parameter := do
  let expect := expectKind .functionDefinition tokens
  if 0 < i then
    discard (expect (3 * i + 2) .comma)
  let typeName ← expect (3 * i + 3) .typeKeyword
  let name ← expect (3 * i + 4) .identifier
  return ⟨typeName.text, name.text⟩

def readFunction (tokens : List Token) : Except Defect Function := do
  let count ← parameterCount tokens.length
  let returnType ← expectKind .functionDefinition tokens 0 .typeKeyword
  let name ← expectKind .functionDefinition tokens 1 .identifier
  let parameters ← (List.range count).mapM (readParameter tokens)
  return ⟨returnType.text, name.text, parameters⟩

/-- The default value of a declaration, by its length. -/
def readDefault (tokens : List Token) : Except Defect (Option String) := do
  let expect := expectKind .variableDeclaration tokens
  match tokens.length with
  | 3 =>
    discard (expect 2 .semicolon)
    return none
  | 5 =>
    discard (expect 2 .assignment)
    discard (expect 4 .semicolon)
    match tokens[3]?.filter (·.kind.isLiteral) with
    | none => throw .initializerNotLiteral
    | some literal => return some literal.text
  | length => throw (.declarationLength length)

def readVariable (tokens : List Token) : Except Defect Variable := do
  let defaultValue ← readDefault tokens
  let typeName ← expectKind .variableDeclaration tokens 0 .typeKeyword
  let name ← expectKind .variableDeclaration tokens 1 .identifier
  return ⟨typeName.text, name.text, defaultValue⟩

/-- The node of a returned value. -/
def readValue (token : Token) : Except Defect NodeKind :=
  match token.kind, token.literal with
  | .integerLiteral, some (.int value) => .ok (.int value)
  | .unsignedLiteral, some (.uint value) => .ok (.uint value)
  | .identifier, _ => .ok (.identifier token.text)
  | kind, _ => .error (.notReturnable kind)

/-- What a return statement returns; only the token in the middle is looked at. -/
def readReturned (tokens : List Token) : Except Defect (Option NodeKind) :=
  match tokens with
  | [_, _] => .ok none
  | [_, value, _] => (readValue value).map some
  | _ => .error (.returnLength tokens.length)

/-- Runs a reader that finds defects only. -/
def Builder.read {α : Type} (reading : Except Defect α) : Builder α :=
  match reading with
  | .ok a => pure a
  | .error d => defect d

/-- Adds the nodes of one matched production at the cursor. -/
def build (production : Production) (tokens : List Token) (position : Position) :
    Builder Position :=
  match production with
  | .functionDefinition => do
    if position.cursor ≠ Arena.root ∨ position.location ≠ .program then
      Builder.defect (.functionInside position.cursor position.location)
    let function ← Builder.read (readFunction tokens)
    let id ← Builder.attach position.cursor (.function function)
    return position.enter .function id
  | .variableDeclaration => do
    let declared ← Builder.read (readVariable tokens)
    discard (Builder.attach position.cursor (.declaration declared))
    return position
  | .returnStatement => do
    if position.location ≠ .function then
      Builder.defect .returnOutside
    let value ← Builder.read (readReturned tokens)
    let id ← Builder.attach position.cursor .return_
    if let some kind := value then
      discard (Builder.attach id kind)
    return position
  | .closeBrace => do
    discard (Builder.read (expectKind .closeBrace tokens 0 .closeBrace))
    if position.location = .program then
      Builder.defect .closeAtProgram
    match ← Builder.parentOf position.cursor with
    | none => Builder.defect (.noParent position.cursor)
    | some parent => position.leave parent

end Declang
