import Declang.Proofs.Arena.Validity
import Declang.Proofs.Arena.Walk
namespace Declang.Arena

/-- Nodes beside one another with all that is below them: `order` are these nodes in depth-first
pre-order, and `trees` are the trees that they form. -/
inductive Grove (arena : Arena) : (ids order : List NodeId) → (trees : List Tree) → Prop where
  | nil : Grove arena [] [] []
  | cons {id : NodeId} {node : Node} {ids below later : List NodeId} {children trees : List Tree}
    (found : arena.get? id = some node) (inner : Grove arena node.children below children)
    (beside : Grove arena ids later trees) :
    Grove arena (id :: ids) (id :: (below ++ later)) (.node node.kind children :: trees)

variable {arena : Arena}

namespace Grove

variable {ids order : List NodeId} {trees : List Tree}

theorem length_eq (h : arena.Grove ids order trees) : ids.length = trees.length := by
  induction h with
  | nil => rfl
  | cons _ _ _ _ ih => rw [List.length_cons, List.length_cons, ih]

theorem of_append {more : List NodeId} (h : arena.Grove (ids ++ more) order trees) :
    ∃ front later fronts laters, order = front ++ later ∧ arena.Grove ids front fronts ∧
      arena.Grove more later laters := by
  induction ids generalizing order trees with
  | nil => exact ⟨[], order, [], trees, rfl, .nil, h⟩
  | cons id ids ih =>
    cases h with
    | @cons _ _ _ below _ _ _ hfound hinner hbeside =>
      obtain ⟨front, later, _, _, rfl, hfront, hlater⟩ := ih hbeside
      refine ⟨id :: (below ++ front), later, _, _, ?_, .cons hfound hinner hfront, hlater⟩
      rw [List.cons_append, List.append_assoc]

/-- A walk that ends has gone through a grove. -/
theorem exists_of_walk? {fuel : Nat} {pending : List NodeId}
    (h : arena.walk? fuel pending = some order) :
    ∃ trees, arena.Grove pending order trees ∧ order.length ≤ fuel := by
  induction fuel generalizing pending order with
  | zero =>
    cases pending with
    | nil =>
      cases h
      exact ⟨[], .nil, Nat.le_refl 0⟩
    | cons id pending => cases h
  | succ fuel ih =>
    cases pending with
    | nil =>
      cases h
      exact ⟨[], .nil, Nat.zero_le _⟩
    | cons id pending =>
      rw [walk?] at h
      split at h
      · cases h
      · next node hnode =>
        obtain ⟨rest, hrest, rfl⟩ := Option.map_eq_some_iff.1 h
        obtain ⟨_, hgrove, hlength⟩ := ih hrest
        obtain ⟨_, _, _, _, rfl, hinner, hbeside⟩ := hgrove.of_append
        exact ⟨_, .cons hnode hinner hbeside, Nat.succ_le_succ hlength⟩

theorem mapM_treeAt? (h : arena.Grove ids order trees) {fuel : Nat} (hfuel : order.length ≤ fuel) :
    ids.mapM (arena.treeAt? fuel) = some trees := by
  induction h generalizing fuel with
  | nil => rfl
  | cons hfound _ _ ihInner ihBeside =>
    rw [List.length_cons, List.length_append] at hfuel
    cases fuel with
    | zero => cases hfuel
    | succ fuel =>
      have hchildren := ihInner (Nat.le_of_add_right_le (Nat.le_of_succ_le_succ hfuel))
      have hlater := @ihBeside (fuel + 1) (by omega)
      rw [List.mapM_cons, hlater, treeAt?, hfound]
      simp only [hchildren]
      rfl

theorem exists_of_mem (h : arena.Grove ids order trees) {id : NodeId} (hid : id ∈ order) :
    ∃ node below children, arena.get? id = some node ∧
      arena.Grove node.children below children ∧ below.length < order.length := by
  induction h with
  | nil => cases hid
  | cons hfound hinner _ ihInner ihBeside =>
    rw [List.length_cons, List.length_append]
    rcases List.mem_cons.1 hid with rfl | hid
    · exact ⟨_, _, _, hfound, hinner, by omega⟩
    · rcases List.mem_append.1 hid with hbelow | hlater
      · obtain ⟨node, below, children, hnode, hgrove, hlength⟩ := ihInner hbelow
        exact ⟨node, below, children, hnode, hgrove, by omega⟩
      · obtain ⟨node, below, children, hnode, hgrove, hlength⟩ := ihBeside hlater
        exact ⟨node, below, children, hnode, hgrove, by omega⟩

theorem tree?_eq {id : NodeId} {node : Node} {below : List NodeId} {children : List Tree}
    (h : arena.Grove node.children below children) (hnode : arena.get? id = some node)
    (hlength : below.length < arena.size) :
    arena.tree? id = some (.node node.kind children) := by
  obtain ⟨depth, hdepth⟩ := Nat.exists_eq_add_one_of_ne_zero (Nat.ne_zero_of_lt hlength)
  have hchildren := h.mapM_treeAt? (Nat.le_of_lt_succ (hdepth ▸ hlength))
  rw [tree?, hdepth, treeAt?, hnode]
  simp only [hchildren, Option.map_some]

end Grove

theorem Linked.exists_grove (hlinked : arena.Linked) :
    ∃ order tree, arena.descendants? = some order ∧ order.Nodup ∧
      (∀ id, id ∈ order ↔ arena.Reachable id) ∧ arena.Grove [root] order [tree] ∧
      order.length ≤ arena.size := by
  obtain ⟨order, horder, hnodup, hmem⟩ := hlinked.exists_descendants?
  obtain ⟨trees, hgrove, hlength⟩ := Grove.exists_of_walk? horder
  obtain ⟨tree, rfl⟩ := List.length_eq_one_iff.1 hgrove.length_eq.symm
  exact ⟨order, tree, horder, hnodup, hmem, hgrove, hlength⟩

/-- A program whose nodes are not in pre-order. One of them is not below the root, and its links lead
to itself, to the root and out of the arena. -/
def litteredArena : Arena :=
  ⟨#[⟨.program, none, [3, 1]⟩, ⟨.function ⟨"int", "f", []⟩, some 0, [4, 5]⟩,
    ⟨.return_, some 9, [2, 0, 12]⟩, ⟨.function ⟨"byte", "g", []⟩, some 0, [6]⟩,
    ⟨.declaration ⟨"uint", "x", none⟩, some 1, []⟩, ⟨.return_, some 1, []⟩,
    ⟨.return_, some 3, [7]⟩, ⟨.identifier "y", some 6, []⟩], by decide⟩

theorem validate_litteredArena : litteredArena.validate = .ok () := by
  have hvalid : litteredArena.validate? = some (.ok ()) := by decide
  rw [validate?_eq_some] at hvalid
  exact Option.some.inj hvalid

example : litteredArena.descendants? = some [0, 3, 6, 7, 1, 4, 5] := by decide

end Declang.Arena
