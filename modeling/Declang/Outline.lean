import Declang.Arena.Walk
namespace Declang

/-- How an outline shows its nodes. -/
structure OutlineOptions where
  maxLabelWidth : Nat := 30
  showIcons : Bool := true
  deriving DecidableEq, Repr

def NodeKind.icon : NodeKind → String
  | program => "⧉"
  | function _ => "ƒ"
  | declaration _ => "≔"
  | return_ => "↩"
  | int _ | uint _ => "#"
  | identifier _ => "◦"

/-- Cuts a text after `width` characters and marks the cut. -/
def truncate (width : Nat) (text : String) : String :=
  if width < text.length then String.ofList (text.toList.take width) ++ "..." else text

/-- The line of a node without its branches. -/
def OutlineOptions.nodeText (options : OutlineOptions) (kind : NodeKind) : String :=
  let label := truncate options.maxLabelWidth kind.label
  if options.showIcons then kind.icon ++ " " ++ label else label

namespace Tree

mutual

/-- A node below the root with all its nodes, to the right of `margin`. -/
def branch (options : OutlineOptions) (margin : String) (last : Bool) : Tree → String
  | node kind children =>
    margin ++ (if last then "└─" else "├─") ++ " " ++ options.nodeText kind ++ "\n"
      ++ branches options (margin ++ (if last then "  " else "│ ")) children

def branches (options : OutlineOptions) (margin : String) : List Tree → String
  | [] => ""
  | tree :: trees => branch options margin trees.isEmpty tree ++ branches options margin trees

end

/-- A line for each node, with lines that connect it to its parent. -/
def outline (options : OutlineOptions) : Tree → String
  | node kind children => options.nodeText kind ++ "\n" ++ branches options "" children

end Tree

end Declang
