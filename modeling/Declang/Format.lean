import Declang.Listing
import Declang.Outline
import Declang.Snapshot.Json
import Declang.Snapshot.Yaml
namespace Declang

/-- What a format shows. -/
inductive Stage where
  | tokens
  | tree
  deriving DecidableEq, Repr

/-- The output formats. -/
inductive Format where
  | tokensSimple
  | tokensJson
  | treeOutline
  | treeJson
  | treeYaml
  deriving DecidableEq, Repr

inductive FormatError where
  | notFound (name : String)
  | wrongStage (format : Format)
  deriving DecidableEq, Repr

/-- The options of the tree formats. -/
structure FormatOptions where
  outline : OutlineOptions := {}
  prettyJson : Bool := true
  deriving DecidableEq, Repr

namespace Format

def all : List Format :=
  [tokensSimple, tokensJson, treeOutline, treeJson, treeYaml]

def name : Format → String
  | tokensSimple => "tokens-simple"
  | tokensJson => "tokens-json"
  | treeOutline => "ast-treeviz"
  | treeJson => "ast-json"
  | treeYaml => "ast-yaml"

def description : Format → String
  | tokensSimple => "One line per source line, Kind(text) per token"
  | tokensJson => "Token list with kinds, texts, lines and literal values"
  | treeOutline => "Visual tree with box-drawing connectors and icons"
  | treeJson => "Tree snapshot as JSON"
  | treeYaml => "Tree snapshot as YAML"

def stage : Format → Stage
  | tokensSimple | tokensJson => .tokens
  | treeOutline | treeJson | treeYaml => .tree

def ofName (name : String) : Except FormatError Format :=
  match all.find? (·.name == name) with
  | none => .error (.notFound name)
  | some format => .ok format

def renderTokens (format : Format) (tokens : List Token) : Except FormatError String :=
  match format with
  | tokensSimple => .ok (Token.listing tokens)
  | tokensJson => .ok ((Json.array (tokens.map Token.toJson)).render .pretty)
  | _ => .error (.wrongStage format)

def renderTree (format : Format) (options : FormatOptions) (tree : Tree) :
    Except FormatError String :=
  match format with
  | treeOutline => .ok (tree.outline options.outline)
  | treeJson =>
    .ok (tree.snapshot.toJsonText (if options.prettyJson then .pretty else .compact))
  | treeYaml => .ok tree.snapshot.toYaml
  | _ => .error (.wrongStage format)

end Format

def FormatError.message : FormatError → String
  | notFound name => "Format '" ++ name ++ "' not found"
  | wrongStage format =>
    "Serialization error: " ++ format.name ++
      match format.stage with
      | .tokens => " renders tokens, not program trees"
      | .tree => " renders program trees, not tokens"

end Declang
