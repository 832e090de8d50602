import Declang.Json.Reader
import Declang.Number.Binary64
import Declang.Snapshot
namespace Declang.Yaml

/-- A digit run of this base, of less than 128 bits, after its mark. -/
def isBased (mark : String) (base : Nat) (cs : List Char) : Bool :=
  mark.toList.isPrefixOf cs &&
    match (cs.drop mark.length).mapM Json.hexValue? with
    | none | some [] => false
    | some digits =>
      digits.all (· < base)
        && digits.foldl (fun value digit => base * value + digit) 0 < Nat.pow 2 128

/-- Digits only, or a decimal that does not overflow. -/
def isDecimal (cs : List Char) : Bool :=
  (cs.head? = some '0' && (readDigits? cs).isSome) ||
    match Decimal.read? cs with
    | none => false
    | some d => (Binary64.ofDecimal false d).isFinite

def isNumber (cs : List Char) : Bool :=
  let body := match cs with
    | '+' :: rest | '-' :: rest => rest
    | cs => cs
  isDecimal body || isBased "0x" 16 body || isBased "0o" 8 body || isBased "0b" 2 body

/-- The words that a plain scalar would read as something else than a text. -/
def reserved : List String :=
  ["", "~", "null", "Null", "NULL", "true", "True", "TRUE", "false", "False", "FALSE"]

/-- A plain scalar reads back as the text that it shows. -/
def isPlain (text : String) : Bool :=
  let cs := text.toList
  !reserved.contains text && !isNumber cs && cs.head? != some ' ' && cs.getLast? != some ' '

/-- Writes a text of one line, in single quotes where it would not be plain. -/
def scalar (text : String) : String :=
  if isPlain text then text
  else
    let doubled := text.toList.flatMap fun c => if c = '\'' then [c, c] else [c]
    "'" ++ String.ofList doubled ++ "'"

def entry (key value : String) : String :=
  scalar key ++ ": " ++ scalar value

/-- The lines of a sequence item. -/
def item : List String → List String
  | [] => []
  | first :: rest => ("- " ++ first) :: rest.map ("  " ++ ·)

end Yaml

namespace Snapshot

mutual

/-- The lines of a snapshot as a block mapping; empty attributes and children are left out. -/
def yamlLines : Snapshot → List String
  | node nodeType label attributes children =>
    [Yaml.entry "node_type" nodeType, Yaml.entry "label" label]
      ++ (if attributes.entries.isEmpty then []
        else "attributes:" :: attributes.entries.map fun (key, value) =>
          "  " ++ Yaml.entry key value)
      ++ (if children.isEmpty then [] else "children:" :: yamlItems children)

def yamlItems : List Snapshot → List String
  | [] => []
  | snapshot :: snapshots => Yaml.item (yamlLines snapshot) ++ yamlItems snapshots

end

def toYaml (snapshot : Snapshot) : String :=
  String.join (snapshot.yamlLines.map (· ++ "\n"))

end Snapshot

end Declang
