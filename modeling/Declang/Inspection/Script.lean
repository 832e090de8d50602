import Declang.Node
namespace Declang

/-- A check of a variable declaration. -/
inductive VariableCheck where
  | typeName (expected : String)
  | name (expected : String)
  | defaultValue (expected : String)
  | noDefault
  deriving DecidableEq, Repr

mutual

/-- The checks of one node: any labels first, then what the node must be. -/
inductive NodeScript where
  | done
  | label (expected : String) (next : NodeScript)
  | function (script : FunctionScript)
  | declaration (checks : List VariableCheck)
  | return_ (script : ReturnScript)
  | int (expected : Int32)
  | uint (expected : UInt32)
  | identifier (expected : String)

/-- The checks of a function. -/
inductive FunctionScript where
  | done
  | name (expected : String) (next : FunctionScript)
  | returnType (expected : String) (next : FunctionScript)
  | parameters (expected : List Parameter) (next : FunctionScript)
  | childCount (expected : Nat) (next : FunctionScript)
  | child (index : Nat) (script : NodeScript) (next : FunctionScript)

/-- The checks of a return statement. -/
inductive ReturnScript where
  | done
  | noValue (next : ReturnScript)
  | value (script : NodeScript) (next : ReturnScript)

end

/-- A check of a whole program. -/
inductive ProgramCheck where
  | childCount (expected : Nat)
  | child (index : Nat) (script : NodeScript)
  | isValid

end Declang
