namespace Declang

/-- A function parameter. -/
structure Parameter where
  typeName : String
  name : String
  deriving DecidableEq, Repr

def Parameter.label (parameter : Parameter) : String :=
  parameter.typeName ++ " " ++ parameter.name

@[ext]
structure Function where
  returnType : String
  name : String
  parameters : List Parameter
  deriving DecidableEq, Repr

def Function.parameterList (function : Function) : String :=
  ", ".intercalate (function.parameters.map Parameter.label)

/-- A variable declaration; its default value keeps the literal as written. -/
@[ext]
structure Variable where
  typeName : String
  name : String
  defaultValue : Option String
  deriving DecidableEq, Repr

/-- What a node of a program stands for. -/
inductive NodeKind where
  | program
  | function (function : Function)
  | declaration (declared : Variable)
  | return_
  | int (value : Int32)
  | uint (value : UInt32)
  | identifier (name : String)
  deriving DecidableEq, Repr

namespace NodeKind

/-- The name of the kind in snapshots and inspections. -/
def typeName : NodeKind → String
  | program => "Program"
  | function _ => "Function"
  | declaration _ => "VariableDeclaration"
  | return_ => "Return"
  | int _ => "IntLiteral"
  | uint _ => "UIntLiteral"
  | identifier _ => "Identifier"

/-- The one-line label of a node. -/
def label : NodeKind → String
  | program => "PROGRAM"
  | function f => "FUNCTION " ++ f.name ++ "(" ++ f.parameterList ++ ")"
  | declaration v =>
    "VAR " ++ v.typeName ++ " " ++ v.name ++ " = " ++ v.defaultValue.getD "<DEFAULT>"
  | return_ => "RETURN"
  | int value => "INT " ++ toString value.toInt
  | uint value => "UINT " ++ toString value.toNat
  | identifier name => "IDENT " ++ name

def function? : NodeKind → Option Function
  | function f => some f
  | _ => none

def declaration? : NodeKind → Option Variable
  | declaration v => some v
  | _ => none

def int? : NodeKind → Option Int32
  | int value => some value
  | _ => none

def uint? : NodeKind → Option UInt32
  | uint value => some value
  | _ => none

def identifier? : NodeKind → Option String
  | identifier name => some name
  | _ => none

def isReturn : NodeKind → Bool
  | return_ => true
  | _ => false

end NodeKind

end Declang
