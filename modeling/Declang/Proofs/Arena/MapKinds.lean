import Declang.Proofs.Arena.Preorder
namespace Declang

def Node.mapKind (f : NodeKind → NodeKind) (node : Node) : Node :=
  { node with kind := f node.kind }

namespace Tree

mutual

/-- The same tree with `f` applied to every kind. -/
def mapKinds (f : NodeKind → NodeKind) : Tree → Tree
  | node kind children => node (f kind) (mapAllKinds f children)

def mapAllKinds (f : NodeKind → NodeKind) : List Tree → List Tree
  | [] => []
  | tree :: trees => tree.mapKinds f :: mapAllKinds f trees

end

mutual

theorem size_mapKinds (f : NodeKind → NodeKind) (tree : Tree) :
    (tree.mapKinds f).size = tree.size := by
  cases tree with
  | node kind children => rw [mapKinds, size, size, sizes_mapAllKinds]

theorem sizes_mapAllKinds (f : NodeKind → NodeKind) (trees : List Tree) :
    sizes (mapAllKinds f trees) = sizes trees := by
  cases trees with
  | nil => rfl
  | cons tree trees => rw [mapAllKinds, sizes, sizes, size_mapKinds, sizes_mapAllKinds]

end

theorem starts_mapAllKinds (f : NodeKind → NodeKind) (base : NodeId) (trees : List Tree) :
    starts base (mapAllKinds f trees) = starts base trees := by
  induction trees generalizing base with
  | nil => rfl
  | cons tree trees ih => rw [mapAllKinds, starts, starts, size_mapKinds, ih]

mutual

theorem flatten_mapKinds (f : NodeKind → NodeKind) (parent : Option NodeId) (base : NodeId)
    (tree : Tree) :
    (tree.mapKinds f).flatten parent base = (tree.flatten parent base).map (Node.mapKind f) := by
  cases tree with
  | node kind children =>
    rw [mapKinds, flatten, flatten, List.map_cons, starts_mapAllKinds, flattens_mapAllKinds]
    rfl

theorem flattens_mapAllKinds (f : NodeKind → NodeKind) (parent base : NodeId)
    (trees : List Tree) :
    flattens parent base (mapAllKinds f trees) =
      (flattens parent base trees).map (Node.mapKind f) := by
  cases trees with
  | nil => rfl
  | cons tree trees =>
    rw [mapAllKinds, flattens, flattens, List.map_append, size_mapKinds, flatten_mapKinds,
      flattens_mapAllKinds]

end

end Tree

namespace Arena

def mapKinds (f : NodeKind → NodeKind) (arena : Arena) : Arena :=
  ⟨arena.nodes.map (Node.mapKind f), by simpa using arena.nonempty⟩

theorem mapKinds_ofTree (f : NodeKind → NodeKind) (tree : Tree) :
    (ofTree tree).mapKinds f = ofTree (tree.mapKinds f) := by
  apply eq_of_toList_nodes
  rw [toList_nodes_ofTree, Tree.flatten_mapKinds, mapKinds, Array.toList_map, toList_nodes_ofTree]

end Arena

end Declang
