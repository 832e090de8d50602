import Declang.Node
namespace Declang

/-- The position of a node in its arena. -/
abbrev NodeId := Nat

def NodeId.display (id : NodeId) : String :=
  "#" ++ toString id

structure Node where
  kind : NodeKind
  parent : Option NodeId
  children : List NodeId
  deriving DecidableEq, Repr

/-- Nodes that refer to each other by position. The first one is the root; the links may be any. -/
structure Arena where
  nodes : Array Node
  nonempty : 0 < nodes.size
  deriving DecidableEq

namespace Arena

/-- The arena of these nodes, unless there are none. -/
def ofNodes? (nodes : Array Node) : Option Arena :=
  if h : 0 < nodes.size then some ⟨nodes, h⟩ else none

/-- A program without declarations. -/
def empty : Arena :=
  ⟨#[⟨.program, none, []⟩], Nat.one_pos⟩

def root : NodeId := 0

def size (arena : Arena) : Nat :=
  arena.nodes.size

def get? (arena : Arena) (id : NodeId) : Option Node :=
  arena.nodes[id]?

/-- The children listed by a node; a position outside the arena lists none. -/
def children (arena : Arena) (id : NodeId) : List NodeId :=
  ((arena.get? id).map Node.children).getD []

/-- Adds a node as the last child of `parent`. The parent is looked up among all nodes, the new one
included, so it fails only beyond that one. -/
def attach? (arena : Arena) (parent : NodeId) (kind : NodeKind) : Option (NodeId × Arena) :=
  if parent ≤ arena.size then
    let grown := arena.nodes.push ⟨kind, some parent, []⟩
    let linked := grown.modify parent fun node =>
      { node with children := node.children ++ [arena.size] }
    some (arena.size, ⟨linked, by simp [linked, grown]⟩)
  else none

end Arena

end Declang
