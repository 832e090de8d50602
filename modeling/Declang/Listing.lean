import Declang.Json.Printer
import Declang.Token
namespace Declang

namespace Token

def entry (token : Token) : String :=
  token.kind.name ++ "(" ++ token.text ++ ")"

/-- The entries after one from `line`. -/
def listingAfter (line : Nat) : List Token → String
  | [] => "\n"
  | token :: tokens =>
    (if token.line = line then " " else "\n") ++ token.entry ++ listingAfter token.line tokens

/-- The tokens of each source line on a line of their own. -/
def listing : List Token → String
  | [] => ""
  | token :: tokens => token.entry ++ listingAfter token.line tokens

end Token

def Literal.toJson : Literal → Json
  | int value => .record [("Int", .number (toString value.toInt))]
  | uint value => .record [("UInt", .number (toString value.toNat))]

def Token.toJson (token : Token) : Json :=
  .record ([("kind", .string token.kind.name), ("text", .string token.text),
      ("line", .number (toString token.line))]
    ++ (token.literal.map fun literal => ("literal", literal.toJson)).toList)

end Declang
