import Mathlib.Data.List.Perm.Subperm
import Declang.Arena.Walk
import Declang.Proofs.Arena.Linked
namespace Declang.Arena

variable {arena : Arena}

/-- What holds between two visits of a walk: the nodes found so far were visited or wait for it,
and each was found at the visit of its parent. -/
structure Walked (arena : Arena) (visited pending : List NodeId) : Prop where
  nodup : (visited ++ pending).Nodup
  root_found : root ∈ visited ++ pending
  reached {id : NodeId} (found : id ∈ visited ++ pending) : arena.Reachable id
  child_found {id child : NodeId} (before : id ∈ visited) (listed : child ∈ arena.children id) :
    child ∈ visited ++ pending
  parent_visited {id parent : NodeId} (found : id ∈ visited ++ pending)
    (recorded : arena.parent? id = some parent) : parent ∈ visited

theorem Linked.lt_size (hlinked : arena.Linked) {id : NodeId} (h : arena.Reachable id) :
    id < arena.size := by
  cases h with
  | root => exact arena.nonempty
  | child hid hlisted => exact lt_size_of_parent? (hlinked.child_parent hid hlisted)

namespace Walked

variable {visited pending : List NodeId} {id : NodeId}

theorem start (hlinked : arena.Linked) : arena.Walked [] [root] := by
  constructor
  · exact List.nodup_singleton root
  · exact List.mem_singleton_self root
  · intro id hid
    rw [List.mem_singleton.1 hid]
    exact .root
  · intro id child hid
    cases hid
  · intro id parent hid hparent
    rw [List.mem_singleton.1 hid, hlinked.root_parent] at hparent
    cases hparent

theorem not_found (hlinked : arena.Linked) (h : arena.Walked visited (id :: pending))
    {child : NodeId} (hchild : child ∈ arena.children id) : child ∉ visited ++ id :: pending := by
  intro hfound
  have hid : arena.Reachable id := h.reached (List.mem_append_right _ (List.mem_cons_self ..))
  have hvisited : id ∈ visited := h.parent_visited hfound (hlinked.child_parent hid hchild)
  exact (List.disjoint_of_nodup_append h.nodup) hvisited (List.mem_cons_self ..)

theorem visit (hlinked : arena.Linked) (h : arena.Walked visited (id :: pending)) :
    arena.Walked (visited ++ [id]) (arena.children id ++ pending) := by
  have hid : arena.Reachable id := h.reached (List.mem_append_right _ (List.mem_cons_self ..))
  -- The nodes found by then are those found before and the children of the visited node.
  have hperm : ((visited ++ [id]) ++ (arena.children id ++ pending)).Perm
      (arena.children id ++ (visited ++ id :: pending)) := by
    rw [List.append_cons visited id pending]
    exact List.perm_append_comm_assoc (visited ++ [id]) (arena.children id) pending
  have hmem (other : NodeId) : other ∈ (visited ++ [id]) ++ (arena.children id ++ pending) ↔
      other ∈ arena.children id ∨ other ∈ visited ++ id :: pending := by
    rw [hperm.mem_iff, List.mem_append]
  constructor
  · rw [hperm.nodup_iff, List.nodup_append']
    refine ⟨hlinked.nodup hid, h.nodup, ?_⟩
    intro child hchild
    exact h.not_found hlinked hchild
  · rw [hmem]
    exact .inr h.root_found
  · intro other hother
    rcases (hmem other).1 hother with hchild | hfound
    · exact hid.child hchild
    · exact h.reached hfound
  · intro other child hother hlisted
    rw [hmem]
    rcases List.mem_append.1 hother with hbefore | hlast
    · exact .inr (h.child_found hbefore hlisted)
    · rw [List.mem_singleton.1 hlast] at hlisted
      exact .inl hlisted
  · intro other parent hother hparent
    rw [List.mem_append]
    rcases (hmem other).1 hother with hchild | hfound
    · rw [hlinked.child_parent hid hchild] at hparent
      cases hparent
      exact .inr (List.mem_singleton_self id)
    · exact .inl (h.parent_visited hfound hparent)

theorem mem_iff (h : arena.Walked visited []) (id : NodeId) :
    id ∈ visited ++ [] ↔ arena.Reachable id := by
  constructor
  · exact h.reached
  · intro hid
    induction hid with
    | root => exact h.root_found
    | child _ hlisted ih =>
      rw [List.append_nil] at ih
      exact h.child_found ih hlisted

theorem length_le (hlinked : arena.Linked) (h : arena.Walked visited pending) :
    visited.length + pending.length ≤ arena.size := by
  have hsubset : visited ++ pending ⊆ List.range arena.size := by
    intro id hid
    exact List.mem_range.2 (hlinked.lt_size (h.reached hid))
  have hle := (List.subperm_of_subset h.nodup hsubset).length_le
  rwa [List.length_append, List.length_range] at hle

theorem exists_walk? (hlinked : arena.Linked) {fuel : Nat} (h : arena.Walked visited pending)
    (hfuel : arena.size ≤ visited.length + fuel) :
    ∃ order, arena.walk? fuel pending = some order ∧ (visited ++ order).Nodup ∧
      ∀ id, id ∈ visited ++ order ↔ arena.Reachable id := by
  induction fuel generalizing visited pending with
  | zero =>
    have hlength := h.length_le hlinked
    have hnil : pending = [] := List.length_eq_zero_iff.1 (by omega)
    subst hnil
    exact ⟨[], rfl, h.nodup, h.mem_iff⟩
  | succ fuel ih =>
    cases pending with
    | nil => exact ⟨[], rfl, h.nodup, h.mem_iff⟩
    | cons id pending =>
      obtain ⟨node, hnode⟩ := exists_node
        (hlinked.lt_size (h.reached (List.mem_append_right _ (List.mem_cons_self ..))))
      have hlater : arena.size ≤ (visited ++ [id]).length + fuel := by
        rw [List.length_append, List.length_singleton]
        omega
      obtain ⟨order, horder, hnodup, hmem⟩ := ih (h.visit hlinked) hlater
      rw [List.append_assoc] at hnodup hmem
      refine ⟨id :: order, ?_, hnodup, hmem⟩
      rw [children_eq hnode] at horder
      rw [walk?, hnode]
      simp only [horder, Option.map_some]

end Walked

/-- The walk of a linked arena visits each node below the root once. -/
theorem Linked.exists_descendants? (hlinked : arena.Linked) :
    ∃ order, arena.descendants? = some order ∧ order.Nodup ∧
      ∀ id, id ∈ order ↔ arena.Reachable id :=
  (Walked.start hlinked).exists_walk? hlinked (Nat.le_of_eq (Nat.zero_add _).symm)

end Declang.Arena
