import Declang.Arena
namespace Declang

/-- A node with the trees below it. -/
inductive Tree where
  | node (kind : NodeKind) (children : List Tree)
  deriving Repr

namespace Tree

def kind : Tree → NodeKind
  | node kind _ => kind

end Tree

namespace Arena

/-- Takes nodes off `pending`, each replaced by its children. It fails outside the arena and after
`fuel` nodes. -/
def walk? (arena : Arena) : Nat → List NodeId → Option (List NodeId)
  | _, [] => some []
  | 0, _ :: _ => none
  | fuel + 1, id :: pending =>
    match arena.get? id with
    | none => none
    | some node => (walk? arena fuel (node.children ++ pending)).map (id :: ·)

/-- The root and the nodes below it in depth-first pre-order. A walk that meets more nodes than the
arena has fails. That is every walk in circles, but it can also be one that would end, where a node
is listed more than once. On an arena that passes the integrity check it gives every reachable node
once. -/
def descendants? (arena : Arena) : Option (List NodeId) :=
  arena.walk? arena.size [root]

/-- The tree below a node, as far as it is no deeper than `fuel`. -/
def treeAt? (arena : Arena) : Nat → NodeId → Option Tree
  | 0, _ => none
  | fuel + 1, id =>
    match arena.get? id with
    | none => none
    | some node => (node.children.mapM (treeAt? arena fuel)).map (.node node.kind)

/-- The tree below a node. A tree is no deeper than its arena has nodes, so only a node outside the
arena, a missing child or a circle makes it fail. -/
def tree? (arena : Arena) (id : NodeId) : Option Tree :=
  arena.treeAt? arena.size id

end Arena

end Declang
