import Declang.Proofs.Arena.Grove
import Declang.Proofs.Arena.Validity
import Declang.Proofs.Snapshot.ReadBack
namespace Declang

namespace Snapshot

mutual

/-- The type and the label of every node, in depth-first pre-order. -/
def captions : Snapshot → List (String × String)
  | node nodeType label _ children => (nodeType, label) :: allCaptions children

def allCaptions : List Snapshot → List (String × String)
  | [] => []
  | snapshot :: snapshots => snapshot.captions ++ allCaptions snapshots

end

end Snapshot

namespace Arena

/-- The snapshot of the tree below a node. -/
def snapshotAt? (arena : Arena) (id : NodeId) : Option Snapshot :=
  (arena.tree? id).map Tree.snapshot

def caption? (arena : Arena) (id : NodeId) : Option (String × String) :=
  (arena.get? id).map fun node => (node.kind.typeName, node.kind.label)

variable {arena : Arena}

theorem Grove.map_caption? {ids order : List NodeId} {trees : List Tree}
    (h : arena.Grove ids order trees) :
    order.map arena.caption? = (Snapshot.allCaptions (Tree.snapshots trees)).map some := by
  induction h with
  | nil => rfl
  | cons hfound _ _ ihInner ihBeside =>
    rw [List.map_cons, List.map_append, ihInner, ihBeside, Tree.snapshots, Snapshot.allCaptions,
      Tree.snapshot, Snapshot.captions, List.cons_append, List.map_cons, List.map_append, caption?,
      hfound]
    rfl

theorem Grove.mapM_snapshotAt? {ids order : List NodeId} {trees : List Tree}
    (h : arena.Grove ids order trees) (hlength : order.length ≤ arena.size) :
    ids.mapM arena.snapshotAt? = some (trees.map Tree.snapshot) := by
  have htrees := mapM_eq_some_iff.1 (h.mapM_treeAt? hlength)
  rw [mapM_eq_some_iff, List.forall₂_map_right_iff]
  apply htrees.imp
  intro id tree htree
  rw [snapshotAt?, tree?, htree, Option.map_some]

/-- In an arena that passes the integrity check the walk and the snapshots meet the same nodes in
the same order. The walk ends and visits each node below the root once. A snapshot is taken of each
of these nodes, and its children are the snapshots of the listed children in their order. -/
theorem traversals_agree (h : arena.validate = .ok ()) :
    (∃ order snapshot, arena.descendants? = some order ∧ order.Nodup ∧
      (∀ id, id ∈ order ↔ arena.Reachable id) ∧ arena.snapshot? = some snapshot ∧
      order.map arena.caption? = snapshot.captions.map some) ∧
    ∀ id, arena.Reachable id → ∃ node children, arena.get? id = some node ∧
      node.children.mapM arena.snapshotAt? = some children ∧
      arena.snapshotAt? id =
        some (.node node.kind.typeName node.kind.label node.kind.attributes children) := by
  obtain ⟨order, tree, horder, hnodup, hmem, hgrove, hlength⟩ :=
    (linked_of_validate_eq_ok h).exists_grove
  constructor
  · have hroot := mapM_eq_some_iff.1 (hgrove.mapM_snapshotAt? hlength)
    rw [List.map_singleton, List.forall₂_cons] at hroot
    have hcaptions := hgrove.map_caption?
    rw [Tree.snapshots, Tree.snapshots, Snapshot.allCaptions, Snapshot.allCaptions,
      List.append_nil] at hcaptions
    exact ⟨order, tree.snapshot, horder, hnodup, hmem, hroot.1, hcaptions⟩
  · intro id hid
    obtain ⟨node, below, children, hnode, hbelow, hlt⟩ := hgrove.exists_of_mem ((hmem id).2 hid)
    have hsize := Nat.lt_of_lt_of_le hlt hlength
    refine ⟨node, children.map Tree.snapshot, hnode, hbelow.mapM_snapshotAt? hsize.le, ?_⟩
    rw [snapshotAt?, hbelow.tree?_eq hnode hsize, Option.map_some, Tree.snapshot,
      Tree.snapshots_eq_map]

theorem traversals_agree_littered :
    litteredArena.validate = .ok () ∧
      (∃ order snapshot, litteredArena.descendants? = some order ∧ order.Nodup ∧
        (∀ id, id ∈ order ↔ litteredArena.Reachable id) ∧
        litteredArena.snapshot? = some snapshot ∧
        order.map litteredArena.caption? = snapshot.captions.map some) ∧
      ∀ id, litteredArena.Reachable id → ∃ node children, litteredArena.get? id = some node ∧
        node.children.mapM litteredArena.snapshotAt? = some children ∧
        litteredArena.snapshotAt? id =
          some (.node node.kind.typeName node.kind.label node.kind.attributes children) :=
  ⟨validate_litteredArena, traversals_agree validate_litteredArena⟩

end Arena

end Declang
