import Declang.Arena.Walk
import Declang.Proofs.Arena.Linked
namespace Declang

namespace Tree

mutual

/-- The number of nodes of a tree. -/
def size : Tree → Nat
  | node _ children => 1 + sizes children

def sizes : List Tree → Nat
  | [] => 0
  | tree :: trees => tree.size + sizes trees

end

/-- Where trees start that stand one after another from `base` on. -/
def starts (base : NodeId) : List Tree → List NodeId
  | [] => []
  | tree :: trees => base :: starts (base + tree.size) trees

mutual

/-- The nodes of a tree in depth-first pre-order, linked as if the first one stood at `base`. -/
def flatten (parent : Option NodeId) (base : NodeId) : Tree → List Node
  | node kind children =>
    ⟨kind, parent, starts (base + 1) children⟩ :: flattens base (base + 1) children

def flattens (parent base : NodeId) : List Tree → List Node
  | [] => []
  | tree :: trees => flatten (some parent) base tree ++ flattens parent (base + tree.size) trees

end

mutual

/-- What `f` makes of a tree from the bottom up, where it sees each node with its position. -/
def foldFrom {α : Type} (f : NodeId → NodeKind → List α → α) (base : NodeId) : Tree → α
  | node kind children => f base kind (foldsFrom f (base + 1) children)

def foldsFrom {α : Type} (f : NodeId → NodeKind → List α → α) (base : NodeId) :
    List Tree → List α
  | [] => []
  | tree :: trees => foldFrom f base tree :: foldsFrom f (base + tree.size) trees

end

mutual

@[simp]
theorem length_flatten (parent : Option NodeId) (base : NodeId) (tree : Tree) :
    (flatten parent base tree).length = tree.size := by
  cases tree with
  | node kind children =>
    rw [flatten, size, List.length_cons, length_flattens, Nat.add_comm]

@[simp]
theorem length_flattens (parent base : NodeId) (trees : List Tree) :
    (flattens parent base trees).length = sizes trees := by
  cases trees with
  | nil => rfl
  | cons tree trees =>
    rw [flattens, sizes, List.length_append, length_flatten, length_flattens]

end

theorem starts_append (base : NodeId) (trees more : List Tree) :
    starts base (trees ++ more) = starts base trees ++ starts (base + sizes trees) more := by
  induction trees generalizing base with
  | nil => rfl
  | cons tree trees ih =>
    rw [List.cons_append, starts, starts, sizes, ih, Nat.add_assoc, List.cons_append]

theorem length_starts (base : NodeId) (trees : List Tree) :
    (starts base trees).length = trees.length := by
  induction trees generalizing base with
  | nil => rfl
  | cons tree trees ih => rw [starts, List.length_cons, List.length_cons, ih]

theorem getElem?_starts (base : NodeId) (front later : List Tree) (tree : Tree) :
    (starts base (front ++ tree :: later))[front.length]? = some (base + sizes front) := by
  rw [starts_append, ← length_starts base front, List.getElem?_append_right (Nat.le_refl _),
    Nat.sub_self]
  rfl

theorem flattens_append (parent base : NodeId) (trees more : List Tree) :
    flattens parent base (trees ++ more) =
      flattens parent base trees ++ flattens parent (base + sizes trees) more := by
  induction trees generalizing base with
  | nil => rfl
  | cons tree trees ih =>
    rw [List.cons_append, flattens, flattens, sizes, ih, Nat.add_assoc, List.append_assoc]

theorem flatten_node_concat (parent : Option NodeId) (base : NodeId) (kind : NodeKind)
    (children : List Tree) (last : Tree) :
    flatten parent base (node kind (children ++ [last])) =
      (⟨kind, parent, starts (base + 1) children ++ [base + 1 + sizes children]⟩
        :: flattens base (base + 1) children) ++
        flatten (some base) (base + 1 + sizes children) last := by
  simp [flatten, starts_append, flattens_append, starts, flattens]

/-- A tree with a hole behind all its other nodes. What is put there starts at `hole`, below
`parent`. -/
def Opens (context : Tree → Tree) (parent : Option NodeId) (hole : NodeId) : Prop :=
  ∃ before : List Node, before.length = hole ∧
    ∀ tree, flatten none 0 (context tree) = before ++ flatten parent hole tree

theorem Opens.whole : Opens id none 0 :=
  ⟨[], rfl, fun _ => rfl⟩

theorem Opens.child {context : Tree → Tree} {parent : Option NodeId} {hole : NodeId}
    (h : Opens context parent hole) (kind : NodeKind) (children : List Tree) :
    Opens (fun tree => context (node kind (children ++ [tree]))) (some hole)
      (hole + 1 + sizes children) := by
  obtain ⟨before, rfl, hflatten⟩ := h
  refine ⟨before ++
    (⟨kind, parent, starts (before.length + 1) children ++ [before.length + 1 + sizes children]⟩
      :: flattens before.length (before.length + 1) children), ?_, fun tree => ?_⟩
  · simp
    omega
  · rw [hflatten, flatten_node_concat, List.append_assoc]

end Tree

namespace Arena

/-- The arena of a tree, its nodes in depth-first pre-order. -/
def ofTree (tree : Tree) : Arena :=
  ⟨(tree.flatten none root).toArray, by cases tree; simp [Tree.flatten]⟩

theorem toList_nodes_ofTree (tree : Tree) :
    (ofTree tree).nodes.toList = tree.flatten none root :=
  rfl

theorem eq_of_toList_nodes {arena other : Arena} (h : arena.nodes.toList = other.nodes.toList) :
    arena = other := by
  obtain ⟨nodes, _⟩ := arena
  obtain ⟨others, _⟩ := other
  cases Array.toList_inj.1 h
  rfl

@[simp]
theorem size_ofTree (tree : Tree) : (ofTree tree).size = tree.size := by
  simp [size, ofTree]

theorem get?_of_toList {arena : Arena} {before after : List Node} {node : Node} {base : NodeId}
    (hbase : before.length = base) (h : arena.nodes.toList = before ++ node :: after) :
    arena.get? base = some node := by
  rw [get?, ← Array.getElem?_toList, h, ← hbase]
  simp

/-- The nodes of the tree stand in the arena from `base` on, the first one below `parent`. -/
def HasTree (arena : Arena) (parent : Option NodeId) (base : NodeId) (tree : Tree) : Prop :=
  ∃ before after : List Node, before.length = base ∧
    arena.nodes.toList = before ++ (tree.flatten parent base ++ after)

theorem hasTree_ofTree (tree : Tree) : (ofTree tree).HasTree none root tree :=
  ⟨[], [], rfl, by rw [toList_nodes_ofTree, List.append_nil, List.nil_append]⟩

theorem HasTree.get? {arena : Arena} {parent : Option NodeId} {base : NodeId} {kind : NodeKind}
    {children : List Tree} (h : arena.HasTree parent base (.node kind children)) :
    arena.get? base = some ⟨kind, parent, Tree.starts (base + 1) children⟩ := by
  obtain ⟨before, after, hbase, hnodes⟩ := h
  exact get?_of_toList hbase hnodes

theorem HasTree.child {arena : Arena} {parent : Option NodeId} {base : NodeId} {kind : NodeKind}
    {front later : List Tree} {tree : Tree}
    (h : arena.HasTree parent base (.node kind (front ++ tree :: later))) :
    arena.HasTree (some base) (base + 1 + Tree.sizes front) tree := by
  obtain ⟨before, after, rfl, hnodes⟩ := h
  rw [Tree.flatten, Tree.flattens_append, Tree.flattens] at hnodes
  refine ⟨before ++ ⟨kind, parent, Tree.starts (before.length + 1) (front ++ tree :: later)⟩ ::
    Tree.flattens before.length (before.length + 1) front,
    Tree.flattens before.length (before.length + 1 + Tree.sizes front + tree.size) later ++ after,
    ?_, ?_⟩
  · simp
    omega
  · rw [hnodes]
    simp

theorem modify_length_append {α : Type} (before : List α) (a : α) (after : List α) (f : α → α) :
    (before ++ a :: after).modify before.length f = before ++ f a :: after := by
  induction before with
  | nil => rfl
  | cons b before ih =>
    rw [List.cons_append, List.length_cons, List.modify_succ_cons, ih, List.cons_append]

theorem size_ofTree_opens {context : Tree → Tree} {parent : Option NodeId} {hole : NodeId}
    (h : Tree.Opens context parent hole) (tree : Tree) :
    (ofTree (context tree)).size = hole + tree.size := by
  obtain ⟨before, rfl, hflatten⟩ := h
  have hlength := congrArg List.length (hflatten tree)
  simp only [List.length_append, Tree.length_flatten] at hlength
  rw [size_ofTree, hlength]

/-- A node added below the last one that is still open comes last in pre-order. -/
theorem grow_ofTree {context : Tree → Tree} {parent : Option NodeId} {hole : NodeId}
    (h : Tree.Opens context parent hole) (kind : NodeKind) (children : List Tree)
    (new : NodeKind) :
    (ofTree (context (.node kind children))).grow hole new =
      ofTree (context (.node kind (children ++ [.node new []]))) := by
  have hsize : (ofTree (context (.node kind children))).size = hole + 1 + Tree.sizes children := by
    rw [size_ofTree_opens h, Tree.size, Nat.add_assoc]
  obtain ⟨before, rfl, hflatten⟩ := h
  apply eq_of_toList_nodes
  rw [toList_nodes_grow, hsize, toList_nodes_ofTree, toList_nodes_ofTree, root, hflatten, hflatten,
    Tree.flatten_node_concat, Tree.flatten, List.append_assoc, List.cons_append,
    modify_length_append]
  rfl

theorem get?_ofTree {context : Tree → Tree} {parent : Option NodeId} {hole : NodeId}
    (h : Tree.Opens context parent hole) (kind : NodeKind) (children : List Tree) :
    (ofTree (context (.node kind children))).get? hole =
      some ⟨kind, parent, Tree.starts (hole + 1) children⟩ := by
  obtain ⟨before, rfl, hflatten⟩ := h
  apply get?_of_toList rfl
  rw [toList_nodes_ofTree, root, hflatten, Tree.flatten]

/-- Reads the tree below a node from the bottom up, as far as it is no deeper than `fuel`. -/
def foldAt? {α : Type} (arena : Arena) (f : NodeId → NodeKind → List α → α) :
    Nat → NodeId → Option α
  | 0, _ => none
  | fuel + 1, id =>
    match arena.get? id with
    | none => none
    | some node => (node.children.mapM (foldAt? arena f fuel)).map (f id node.kind)

theorem treeAt?_eq_foldAt? (arena : Arena) (fuel : Nat) (id : NodeId) :
    arena.treeAt? fuel id = arena.foldAt? (fun _ => .node) fuel id := by
  induction fuel generalizing id with
  | zero => rfl
  | succ fuel ih =>
    have hfun : arena.treeAt? fuel = arena.foldAt? (fun _ => .node) fuel := funext ih
    rw [treeAt?, foldAt?]
    cases arena.get? id with
    | none => rfl
    | some node => exact congrArg (fun f => (node.children.mapM f).map (Tree.node node.kind)) hfun

mutual

theorem foldAt?_flatten {α : Type} {arena : Arena} (f : NodeId → NodeKind → List α → α)
    {before after : List Node} {parent : Option NodeId} {base : NodeId} {fuel : Nat} (tree : Tree)
    (hbase : before.length = base) (hfuel : tree.size ≤ fuel)
    (h : arena.nodes.toList = before ++ (tree.flatten parent base ++ after)) :
    arena.foldAt? f fuel base = some (tree.foldFrom f base) := by
  cases tree with
  | node kind children =>
    rw [Tree.size] at hfuel
    rw [Tree.flatten, List.cons_append] at h
    cases fuel with
    | zero => omega
    | succ fuel =>
      have hget : arena.get? base = some ⟨kind, parent, Tree.starts (base + 1) children⟩ :=
        get?_of_toList hbase h
      rw [List.append_cons] at h
      have hmap := mapM_foldAt?_flattens f children (by simp [hbase])
        (Nat.le_of_succ_le_succ (Nat.add_comm 1 _ ▸ hfuel)) h
      rw [foldAt?, hget, Tree.foldFrom]
      simp only
      rw [hmap]
      rfl

theorem mapM_foldAt?_flattens {α : Type} {arena : Arena} (f : NodeId → NodeKind → List α → α)
    {before after : List Node} {parent base : NodeId} {fuel : Nat} (trees : List Tree)
    (hbase : before.length = base) (hfuel : Tree.sizes trees ≤ fuel)
    (h : arena.nodes.toList = before ++ (Tree.flattens parent base trees ++ after)) :
    (Tree.starts base trees).mapM (arena.foldAt? f fuel) =
      some (Tree.foldsFrom f base trees) := by
  cases trees with
  | nil => rfl
  | cons tree trees =>
    rw [Tree.sizes] at hfuel
    rw [Tree.flattens, List.append_assoc] at h
    have hfirst := foldAt?_flatten f tree hbase (Nat.le_of_add_right_le hfuel) h
    rw [← List.append_assoc] at h
    have hlater := mapM_foldAt?_flattens f trees (by simp [hbase]) (Nat.le_of_add_left_le hfuel) h
    rw [Tree.starts, List.mapM_cons, hfirst, hlater]
    rfl

end

theorem foldAt?_ofTree {α : Type} (f : NodeId → NodeKind → List α → α) (tree : Tree) :
    (ofTree tree).foldAt? f (ofTree tree).size root = some (tree.foldFrom f root) := by
  apply @foldAt?_flatten _ _ f [] [] none _ _ _ rfl
  · exact Nat.le_of_eq (size_ofTree tree).symm
  · rw [toList_nodes_ofTree, List.append_nil]
    rfl

mutual

theorem foldFrom_node (base : NodeId) (tree : Tree) :
    tree.foldFrom (fun _ => .node) base = tree := by
  cases tree with
  | node kind children => rw [Tree.foldFrom, foldsFrom_node]

theorem foldsFrom_node (base : NodeId) (trees : List Tree) :
    Tree.foldsFrom (fun _ => .node) base trees = trees := by
  cases trees with
  | nil => rfl
  | cons tree trees => rw [Tree.foldsFrom, foldFrom_node, foldsFrom_node]

end

@[simp]
theorem tree?_ofTree (tree : Tree) : (ofTree tree).tree? root = some tree := by
  rw [tree?, treeAt?_eq_foldAt?, foldAt?_ofTree, foldFrom_node]

theorem ofTree_inj {tree other : Tree} (h : ofTree tree = ofTree other) : tree = other := by
  have hread := congrArg (tree? · root) h
  simpa using hread

mutual

theorem walk?_flatten {arena : Arena} {before after : List Node} {parent : Option NodeId}
    {base : NodeId} (tree : Tree) (hbase : before.length = base)
    (h : arena.nodes.toList = before ++ (tree.flatten parent base ++ after)) (fuel : Nat)
    (pending : List NodeId) :
    arena.walk? (tree.size + fuel) (base :: pending) =
      (arena.walk? fuel pending).map (List.range' base tree.size ++ ·) := by
  cases tree with
  | node kind children =>
    rw [Tree.flatten, List.cons_append] at h
    have hget : arena.get? base = some ⟨kind, parent, Tree.starts (base + 1) children⟩ :=
      get?_of_toList hbase h
    rw [List.append_cons] at h
    rw [Tree.size, Nat.add_comm 1, Nat.add_right_comm, walk?, hget]
    simp only
    rw [walk?_flattens children (by simp [hbase]) h, Option.map_map]
    rfl

theorem walk?_flattens {arena : Arena} {before after : List Node} {parent base : NodeId}
    (trees : List Tree) (hbase : before.length = base)
    (h : arena.nodes.toList = before ++ (Tree.flattens parent base trees ++ after)) (fuel : Nat)
    (pending : List NodeId) :
    arena.walk? (Tree.sizes trees + fuel) (Tree.starts base trees ++ pending) =
      (arena.walk? fuel pending).map (List.range' base (Tree.sizes trees) ++ ·) := by
  cases trees with
  | nil =>
    rw [Tree.sizes, Nat.zero_add]
    exact (Option.map_id_apply).symm
  | cons tree trees =>
    rw [Tree.flattens, List.append_assoc] at h
    have hfirst := walk?_flatten tree hbase h
    rw [← List.append_assoc] at h
    have hlater := walk?_flattens trees (by simp [hbase]) h
    rw [Tree.sizes, Tree.starts, List.cons_append, Nat.add_assoc, hfirst, hlater, Option.map_map,
      ← List.range'_append_1]
    simp only [Function.comp_def, List.append_assoc]

end

/-- A walk of the arena of a tree meets the nodes in the order of their positions. -/
theorem descendants?_ofTree (tree : Tree) :
    (ofTree tree).descendants? = some (List.range tree.size) := by
  have hnodes : (ofTree tree).nodes.toList = [] ++ (tree.flatten none root ++ []) := by
    rw [toList_nodes_ofTree, List.append_nil, List.nil_append]
  have hwalk := walk?_flatten tree rfl hnodes 0 []
  rw [walk?, Option.map_some, List.append_nil] at hwalk
  rw [descendants?, size_ofTree, List.range_eq_range']
  exact hwalk

end Arena

end Declang
