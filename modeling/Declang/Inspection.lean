import Declang.Arena.Integrity
import Declang.Inspection.Script
namespace Declang

/-- What a check found wrong. -/
inductive Complaint where
  | childCount (expected actual : Nat) (found : List String)
  | noSuchChild (index count : Nat)
  | brokenLink (index : Nat)
  | corrupted (error : IntegrityError)
  | label (expected actual : String)
  | kind (expected found : String)
  | int (expected actual : Int32)
  | uint (expected actual : UInt32)
  | identifier (expected actual : String)
  | functionName (expected actual : String)
  | returnType (expected actual : String)
  | parameters
  | variableType (expected actual : String)
  | variableName (expected actual : String)
  | defaultValue
  | noDefault
  deriving DecidableEq, Repr

namespace Complaint

def quoted (what expected actual : String) : String :=
  "Expected " ++ what ++ " '" ++ expected ++ "', but got '" ++ actual ++ "'"

def message : Complaint → String
  | childCount expected actual found =>
    "Expected " ++ toString expected ++ " children, found " ++ toString actual ++ ": ["
      ++ ", ".intercalate found ++ "]"
  | noSuchChild index count =>
    "Child index " ++ toString index ++ " out of bounds (" ++ toString count ++ " children)"
  | brokenLink index => "child " ++ toString index ++ " does not point back at its parent"
  | corrupted error => error.message
  | label expected actual => quoted "label" expected actual
  | kind expected found => "Expected " ++ expected ++ ", found " ++ found
  | int expected actual =>
    "Expected " ++ (NodeKind.int expected).label ++ ", found " ++ (NodeKind.int actual).label
  | uint expected actual =>
    "Expected " ++ (NodeKind.uint expected).label ++ ", found " ++ (NodeKind.uint actual).label
  | identifier expected actual =>
    "Expected " ++ (NodeKind.identifier expected).label ++ ", found "
      ++ (NodeKind.identifier actual).label
  | functionName expected actual => quoted "function name" expected actual
  | returnType expected actual => quoted "return type" expected actual
  | parameters => "Parameter mismatch"
  | variableType expected actual => quoted "type" expected actual
  | variableName expected actual => quoted "variable name" expected actual
  | defaultValue => "Default value mismatch"
  | noDefault => "Expected no default value"

end Complaint

/-- Why an inspection stops early. -/
inductive Stop where
  /-- A check failed at the node with this path. -/
  | failed (path : String) (complaint : Complaint)
  /-- A listed node is not in the arena. -/
  | missingNode (id : NodeId)
  deriving DecidableEq, Repr

/-- Checks that may stop, with the nodes entered so far. -/
abbrev Inspection := ExceptT Stop (StateM (List NodeId))

namespace Inspection

def fail {α : Type} (path : String) (complaint : Complaint) : Inspection α :=
  throw (.failed path complaint)

def require (path : String) (condition : Prop) [Decidable condition] (complaint : Complaint) :
    Inspection Unit :=
  if condition then pure () else fail path complaint

def nodeAt (arena : Arena) (id : NodeId) : Inspection Node :=
  match arena.get? id with
  | none => throw (.missingNode id)
  | some node => pure node

/-- The children of `id` must be as many as expected. -/
def checkChildCount (arena : Arena) (path : String) (id : NodeId) (expected : Nat) :
    Inspection Unit := do
  let children := (← nodeAt arena id).children
  if children.length ≠ expected then
    let found ← children.mapM fun child => return (← nodeAt arena child).kind.typeName
    fail path (.childCount expected children.length found)

/-- Enters a child, which must point back at its parent, and gives its path. -/
def enterChild (arena : Arena) (path : String) (id : NodeId) (index : Nat) :
    Inspection (NodeId × String) := do
  let children := (← nodeAt arena id).children
  match children[index]? with
  | none => fail path (.noSuchChild index children.length)
  | some child =>
    require path ((← nodeAt arena child).parent = some id) (.brokenLink index)
    modify (· ++ [child])
    return (child, path ++ "[" ++ toString index ++ "]")

/-- The part of a node's kind that `part?` selects, which must be there. -/
def select {α : Type} (path expected : String) (kind : NodeKind) (part? : NodeKind → Option α) :
    Inspection α :=
  match part? kind with
  | none => fail path (.kind expected kind.typeName)
  | some part => pure part

def checkVariable (path : String) (declared : Variable) : List VariableCheck → Inspection Unit
  | [] => pure ()
  | check :: checks => do
    match check with
    | .typeName expected =>
      require path (declared.typeName = expected) (.variableType expected declared.typeName)
    | .name expected =>
      require path (declared.name = expected) (.variableName expected declared.name)
    | .defaultValue expected => require path (declared.defaultValue = some expected) .defaultValue
    | .noDefault => require path (declared.defaultValue = none) .noDefault
    checkVariable path declared checks

mutual

/-- Runs the checks of the node `id` with this path. -/
def checkNode (arena : Arena) (path : String) (id : NodeId) : NodeScript → Inspection Unit
  | .done => pure ()
  | .label expected next => do
    let actual := (← nodeAt arena id).kind.label
    require path (actual = expected) (.label expected actual)
    checkNode arena path id next
  | .function script => do
    let function ← select path "Function" (← nodeAt arena id).kind NodeKind.function?
    checkFunction arena path id function script
  | .declaration checks => do
    let declared ←
      select path "VariableDeclaration" (← nodeAt arena id).kind NodeKind.declaration?
    checkVariable path declared checks
  | .return_ script => do
    let kind := (← nodeAt arena id).kind
    require path kind.isReturn (.kind "Return" kind.typeName)
    checkReturn arena path id script
  | .int expected => do
    let actual ← select path "IntLiteral" (← nodeAt arena id).kind NodeKind.int?
    require path (actual = expected) (.int expected actual)
  | .uint expected => do
    let actual ← select path "UIntLiteral" (← nodeAt arena id).kind NodeKind.uint?
    require path (actual = expected) (.uint expected actual)
  | .identifier expected => do
    let actual ← select path "Identifier" (← nodeAt arena id).kind NodeKind.identifier?
    require path (actual = expected) (.identifier expected actual)

def checkFunction (arena : Arena) (path : String) (id : NodeId) (function : Function) :
    FunctionScript → Inspection Unit
  | .done => pure ()
  | .name expected next => do
    require path (function.name = expected) (.functionName expected function.name)
    checkFunction arena path id function next
  | .returnType expected next => do
    require path (function.returnType = expected) (.returnType expected function.returnType)
    checkFunction arena path id function next
  | .parameters expected next => do
    require path (function.parameters = expected) .parameters
    checkFunction arena path id function next
  | .childCount expected next => do
    checkChildCount arena path id expected
    checkFunction arena path id function next
  | .child index script next => do
    let (child, childPath) ← enterChild arena (path ++ ".children") id index
    checkNode arena childPath child script
    checkFunction arena path id function next

def checkReturn (arena : Arena) (path : String) (id : NodeId) : ReturnScript → Inspection Unit
  | .done => pure ()
  | .noValue next => do
    checkChildCount arena path id 0
    checkReturn arena path id next
  | .value script next => do
    checkChildCount arena path id 1
    let (child, childPath) ← enterChild arena (path ++ ".value") id 0
    checkNode arena childPath child script
    checkReturn arena path id next

end

def rootPath : String := "root"

/-- Runs the checks of a program. -/
def checkProgram (arena : Arena) : List ProgramCheck → Inspection Unit
  | [] => pure ()
  | check :: checks => do
    match check with
    | .childCount expected => checkChildCount arena rootPath Arena.root expected
    | .child index script =>
      let (child, childPath) ← enterChild arena rootPath Arena.root index
      checkNode arena childPath child script
    | .isValid =>
      match arena.validate with
      | .error e => fail rootPath (.corrupted e)
      | .ok () => pure ()
    checkProgram arena checks

end Inspection

/-- The outcome of checking a program, and the nodes that the checks entered. -/
def Arena.inspect (arena : Arena) (checks : List ProgramCheck) : Except Stop Unit × List NodeId :=
  Inspection.checkProgram arena checks []

end Declang
