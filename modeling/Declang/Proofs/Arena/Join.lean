import Declang.Proofs.Arena.Preorder
namespace Declang

/-- Where a node goes when `offset` nodes are put between it and the root. -/
def NodeId.shift (offset : Nat) (id : NodeId) : NodeId :=
  if id = Arena.root then Arena.root else id + offset

def Node.shift (offset : Nat) (node : Node) : Node :=
  { node with
    parent := node.parent.map (NodeId.shift offset)
    children := node.children.map (NodeId.shift offset) }

theorem NodeId.shift_of_pos {id : Nat} (h : 0 < id) (offset : Nat) :
    NodeId.shift offset id = id + offset :=
  if_neg (Nat.ne_of_gt h)

namespace Arena

/-- The nodes of the first arena, then those of the second one but its root. The first root lists
its own children and those of the second root. -/
def joinedNodes (arena other : Arena) : List Node :=
  arena.nodes.toList.modify root (fun node => { node with
      children := node.children ++ (other.children root).map (NodeId.shift (arena.size - 1)) })
    ++ other.nodes.toList.tail.map (Node.shift (arena.size - 1))

theorem joinedNodes_pos (arena other : Arena) : 0 < (arena.joinedNodes other).toArray.size := by
  have hpos := arena.nonempty
  simp only [joinedNodes, List.size_toArray, List.length_append, List.length_modify,
    Array.length_toList]
  omega

def join (arena other : Arena) : Arena :=
  ⟨(arena.joinedNodes other).toArray, arena.joinedNodes_pos other⟩

end Arena

namespace Tree

theorem starts_shift {base : Nat} (hbase : 0 < base) (offset : Nat) (trees : List Tree) :
    starts (base + offset) trees = (starts base trees).map (NodeId.shift offset) := by
  induction trees generalizing base with
  | nil => rfl
  | cons tree trees ih =>
    rw [starts, starts, List.map_cons, NodeId.shift_of_pos hbase, Nat.add_right_comm,
      ih (Nat.add_pos_left hbase _)]

mutual

theorem flatten_shift {base : Nat} (hbase : 0 < base) (offset : Nat) (parent : Option NodeId)
    (tree : Tree) :
    flatten (parent.map (NodeId.shift offset)) (base + offset) tree =
      (flatten parent base tree).map (Node.shift offset) := by
  cases tree with
  | node kind children =>
    have hbelow := flattens_shift (Nat.succ_pos base) offset base children
    rw [NodeId.shift_of_pos hbase, Nat.succ_eq_add_one, Nat.add_right_comm] at hbelow
    rw [flatten, flatten, List.map_cons, hbelow, Nat.add_right_comm,
      starts_shift (Nat.succ_pos base)]
    rfl

theorem flattens_shift {base : Nat} (hbase : 0 < base) (offset : Nat) (parent : NodeId)
    (trees : List Tree) :
    flattens (NodeId.shift offset parent) (base + offset) trees =
      (flattens parent base trees).map (Node.shift offset) := by
  cases trees with
  | nil => rfl
  | cons tree trees =>
    rw [flattens, flattens, List.map_append, Nat.add_right_comm,
      ← flatten_shift hbase offset (some parent) tree,
      ← flattens_shift (Nat.add_pos_left hbase _) offset parent trees]
    rfl

end

end Tree

/-- Arenas of trees are joined as their trees are, below the first root. -/
theorem Arena.join_ofTree (kind other : NodeKind) (children more : List Tree) :
    (ofTree (.node kind children)).join (ofTree (.node other more)) =
      ofTree (.node kind (children ++ more)) := by
  have hoffset : (ofTree (.node kind children)).size - 1 = Tree.sizes children := by
    rw [size_ofTree, Tree.size, Nat.add_sub_cancel_left]
  have hchildren : (ofTree (.node other more)).children root = Tree.starts 1 more :=
    children_eq (get?_ofTree .whole other more)
  apply eq_of_toList_nodes
  change joinedNodes _ _ = _
  rw [joinedNodes, hoffset, hchildren, toList_nodes_ofTree, toList_nodes_ofTree,
    toList_nodes_ofTree, Tree.flatten, Tree.flatten, Tree.flatten, Tree.starts_append,
    Tree.flattens_append, List.tail_cons]
  have hstarts := Tree.starts_shift Nat.one_pos (Tree.sizes children) more
  have hnodes := Tree.flattens_shift Nat.one_pos (Tree.sizes children) root more
  rw [root, Nat.zero_add, hstarts]
  exact congrArg _ hnodes.symm

end Declang
