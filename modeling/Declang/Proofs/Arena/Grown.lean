import Mathlib.Data.List.Count
import Declang.Proofs.Arena.Linked
namespace Declang.Arena

/-- An arena made from the empty program by attaching nodes. The parent of a node is looked up when
the node is already there, so it may be the node itself. -/
inductive Attached : Arena → Prop where
  | empty : Attached .empty
  | grow {arena : Arena} {parent : NodeId} (attached : Attached arena) (bound : parent ≤ arena.size)
    (kind : NodeKind) : Attached (arena.grow parent kind)

/-- An arena made from the empty program, each node added below one that was there before. -/
inductive Grown : Arena → Prop where
  | empty : Grown .empty
  | grow {arena : Arena} {parent : NodeId} (grown : Grown arena) (present : parent < arena.size)
    (kind : NodeKind) : Grown (arena.grow parent kind)

variable {arena : Arena}

namespace Attached

theorem root_parent (h : arena.Attached) : arena.parent? root = none := by
  induction h with
  | empty => rfl
  | @grow arena parent _ _ kind ih =>
    have hroot : root ≠ arena.size := Nat.ne_of_lt arena.nonempty
    rw [parent?_grow, if_neg hroot, ih]

/-- A node lists the nodes that record it as their parent, in the order in which they came. -/
theorem children_eq_filter (h : arena.Attached) (id : NodeId) :
    arena.children id = (List.range arena.size).filter (arena.parent? · = some id) := by
  induction h with
  | empty => cases id <;> rfl
  | @grow arena parent _ hbound kind ih =>
    have hold : (List.range arena.size).filter ((arena.grow parent kind).parent? · = some id) =
        arena.children id := by
      rw [ih]
      apply List.filter_congr
      intro other hother
      rw [parent?_grow, if_neg (Nat.ne_of_lt (List.mem_range.1 hother))]
    have hlast : [arena.size].filter ((arena.grow parent kind).parent? · = some id) =
        if id = parent then [arena.size] else [] := by
      rw [List.filter_singleton, parent?_grow, if_pos rfl]
      simp only [Option.some.injEq, eq_comm, Bool.cond_decide]
    rw [size_grow, List.range_succ, List.filter_append, hold, hlast, children_grow hbound]

theorem mem_children_iff (h : arena.Attached) {id parent : NodeId} :
    id ∈ arena.children parent ↔ arena.parent? id = some parent := by
  rw [h.children_eq_filter, List.mem_filter, List.mem_range, decide_eq_true_iff]
  constructor
  · exact And.right
  · intro hparent
    exact ⟨lt_size_of_parent? hparent, hparent⟩

theorem nodup_children (h : arena.Attached) (id : NodeId) : (arena.children id).Nodup := by
  rw [h.children_eq_filter]
  exact List.nodup_range.filter _

/-- However nodes are attached, those below the root form a tree. -/
theorem linked (h : arena.Attached) : arena.Linked := by
  constructor
  · exact h.root_parent
  · intro id child _ hlisted
    exact h.mem_children_iff.1 hlisted
  · intro id _
    exact h.nodup_children id

end Attached

namespace Grown

theorem attached (h : arena.Grown) : arena.Attached := by
  induction h with
  | empty => exact .empty
  | grow _ hpresent kind ih => exact ih.grow (Nat.le_of_lt hpresent) kind

theorem linked (h : arena.Grown) : arena.Linked :=
  h.attached.linked

theorem parent?_lt (h : arena.Grown) {id parent : Nat} (hparent : arena.parent? id = some parent) :
    parent < id := by
  induction h with
  | empty => cases id <;> cases hparent
  | grow _ hpresent kind ih =>
    rw [parent?_grow] at hparent
    split_ifs at hparent with hnew
    · cases hparent
      rw [hnew]
      exact hpresent
    · exact ih hparent

theorem exists_parent? (h : arena.Grown) {id : Nat} (hid : id < arena.size) (hne : id ≠ root) :
    ∃ parent, arena.parent? id = some parent := by
  induction h with
  | empty => exact absurd (Nat.lt_one_iff.1 hid) hne
  | @grow arena parent _ hpresent kind ih =>
    rw [parent?_grow]
    split_ifs with hnew
    · exact ⟨parent, rfl⟩
    · rw [size_grow] at hid
      exact ih (Nat.lt_of_le_of_ne (Nat.le_of_lt_succ hid) hnew)

theorem reachable (h : arena.Grown) {id : Nat} (hid : id < arena.size) : arena.Reachable id := by
  induction id using Nat.strongRecOn with
  | ind id ih =>
    by_cases hroot : id = root
    · rw [hroot]
      exact .root
    · obtain ⟨parent, hparent⟩ := h.exists_parent? hid hroot
      have hlt := h.parent?_lt hparent
      exact (ih parent hlt (Nat.lt_trans hlt hid)).child (h.attached.mem_children_iff.2 hparent)

theorem orphan_iff (h : arena.Grown) {id : NodeId} {node : Node}
    (hnode : arena.get? id = some node) : node.parent = none ↔ id = root := by
  rw [← parent?_eq hnode]
  constructor
  · intro hnone
    by_contra hne
    obtain ⟨parent, hparent⟩ := h.exists_parent? (lt_size_of_get? hnode) hne
    rw [hnone] at hparent
    cases hparent
  · intro hroot
    rw [hroot]
    exact h.linked.root_parent

theorem count_children (h : arena.Grown) {id parent : NodeId}
    (hparent : arena.parent? id = some parent) : (arena.children parent).count id = 1 :=
  List.count_eq_one_of_mem (h.attached.nodup_children parent)
    (h.attached.mem_children_iff.2 hparent)

end Grown

/-- No node is its own parent. -/
def Loopless (arena : Arena) : Prop :=
  ∀ id, arena.parent? id ≠ some id

theorem loopless_grow_iff {parent : NodeId} (h : parent ≤ arena.size) (kind : NodeKind) :
    (arena.grow parent kind).Loopless ↔ arena.Loopless ∧ parent < arena.size := by
  constructor
  · intro hgrown
    constructor
    · intro id hid
      have hne : id ≠ arena.size := Nat.ne_of_lt (lt_size_of_parent? hid)
      apply hgrown id
      rw [parent?_grow, if_neg hne, hid]
    · apply Nat.lt_of_le_of_ne h
      intro heq
      apply hgrown arena.size
      rw [parent?_grow, if_pos rfl, heq]
  · rintro ⟨hold, hlt⟩ id hid
    rw [parent?_grow] at hid
    split_ifs at hid with hnew
    · cases hid
      exact Nat.ne_of_lt hlt hnew
    · exact hold id hid

namespace Attached

theorem grown (h : arena.Attached) (hloopless : arena.Loopless) : arena.Grown := by
  induction h with
  | empty => exact .empty
  | grow _ hbound kind ih =>
    obtain ⟨hold, hlt⟩ := (loopless_grow_iff hbound kind).1 hloopless
    exact (ih hold).grow hlt kind

/-- All nodes are below the root unless one of them is its own parent. -/
theorem forall_reachable_iff (h : arena.Attached) :
    (∀ id, id < arena.size → arena.Reachable id) ↔ arena.Loopless := by
  constructor
  · intro hall id hloop
    have hreached : arena.Reachable id := hall id (lt_size_of_parent? hloop)
    clear hall
    -- A walk comes to a node by its parent, so it would have to be at this one before.
    induction hreached with
    | root =>
      rw [h.root_parent] at hloop
      cases hloop
    | child _ hlisted ih =>
      have hparent := h.mem_children_iff.1 hlisted
      rw [hparent, Option.some.injEq] at hloop
      subst hloop
      exact ih hparent
  · intro hloopless id hid
    exact (h.grown hloopless).reachable hid

end Attached

end Declang.Arena
