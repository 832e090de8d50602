import Mathlib.Data.List.Induction
import Mathlib.Logic.Relation
import Declang.Proofs.Arena.Linked
namespace Declang.Arena

/-- A scan in single visits. It fails at a node outside the arena, and after `fuel` visits. -/
def scan? (arena : Arena) :
    Nat → Vector Bool arena.size → List NodeId → Option (Except IntegrityError Unit)
  | _, _, [] => some (.ok ())
  | 0, _, _ :: _ => none
  | fuel + 1, seen, id :: pending =>
    match arena.get? id with
    | none => none
    | some node =>
      match arena.markChildren id node.children seen with
      | .error e => some (.error e)
      | .ok seen => scan? arena fuel seen (node.children.reverse ++ pending)

/-- The integrity check with no access taken for granted, and no more visits than there are
nodes. -/
def validate? (arena : Arena) : Option (Except IntegrityError Unit) :=
  match arena.get? root with
  | none => none
  | some node =>
    match node.parent with
    | some parent => some (.error (.rootHasParent parent))
    | none =>
      arena.scan? arena.size ((Vector.replicate arena.size false).set 0 true arena.nonempty) [root]

/-- The node at the end of a path of child links from the root, where each link is given by its
place in a list of children. -/
def follow? (arena : Arena) (path : List Nat) : Option NodeId :=
  path.foldlM (fun id i => (arena.children id)[i]?) root

theorem follow?_concat (arena : Arena) (path : List Nat) (i : Nat) :
    arena.follow? (path ++ [i]) = (arena.follow? path).bind fun id => (arena.children id)[i]? := by
  rw [follow?, List.foldlM_append]
  simp only [List.foldlM_cons, List.foldlM_nil, bind_pure]
  rfl

theorem scan?_eq_some {arena : Arena} {fuel : Nat} {seen : Vector Bool arena.size}
    {pending : List NodeId} (hpending : ∀ id ∈ pending, id < arena.size)
    (hfuel : seen.count false + pending.length ≤ fuel) :
    arena.scan? fuel seen pending = some (arena.scan seen pending) := by
  -- A visit takes one node off the pending ones and moves its children there from the unseen ones.
  induction fuel generalizing seen pending with
  | zero =>
    have hnil : pending = [] := List.length_eq_zero_iff.1 (by omega)
    rw [hnil, scan?, scan]
  | succ fuel ih =>
    cases pending with
    | nil => rw [scan?, scan]
    | cons id pending =>
      obtain ⟨hid, hpending⟩ := List.forall_mem_cons.1 hpending
      obtain ⟨node, hnode⟩ := exists_node hid
      rw [scan?, hnode, scan]
      simp only
      rw [← children_eq hnode]
      split
      · next error herror =>
        rw [herror]
      · next marked hmarked =>
        rw [hmarked]
        apply ih
        · intro other hother
          rcases List.mem_append.1 hother with hchild | hother
          · have hback := (of_markChildren_eq_ok hmarked).2 other (List.mem_reverse.1 hchild)
            exact lt_size_of_parent? hback.1
          · exact hpending other hother
        · have hcount := markChildren_count hmarked
          rw [List.length_append, List.length_reverse]
          rw [List.length_cons] at hfuel
          omega

/-- The integrity check never looks outside the arena, and its visits are no more than the
nodes. -/
theorem validate?_eq_some (arena : Arena) : arena.validate? = some arena.validate := by
  have hpos : 0 < arena.size := arena.nonempty
  have hunseen : ((Vector.replicate arena.size false).set 0 true hpos).count false + 1 =
      arena.size := by
    rw [Vector.count_set, Vector.count_replicate_self, Vector.getElem_replicate]
    exact Nat.sub_add_cancel hpos
  obtain ⟨node, hnode⟩ := exists_node hpos
  change arena.get? root = some node at hnode
  rw [validate?, validate, hnode, Option.bind_some]
  simp only
  cases node.parent with
  | some parent => rfl
  | none =>
    apply scan?_eq_some
    · intro id hid
      rw [List.mem_singleton.1 hid]
      exact hpos
    · exact Nat.le_of_eq hunseen

theorem checked_of_scan_eq_ok {arena : Arena} {seen : Vector Bool arena.size}
    {pending : List NodeId} (h : arena.scan seen pending = .ok ()) {start id : NodeId}
    (hstart : start ∈ pending)
    (hbelow : Relation.ReflTransGen (fun id child => child ∈ arena.children id) start id) :
    (arena.children id).Nodup ∧ ∀ child ∈ arena.children id, arena.parent? child = some id := by
  -- Success means that every pending node had its turn, so the marks need no invariant here.
  fun_induction arena.scan seen pending generalizing start with
  | case1 => cases hstart
  | case2 => cases h
  | case3 seen first pending marked hmarked ih =>
    rcases List.mem_cons.1 hstart with rfl | hstart
    · rcases hbelow.cases_head with rfl | ⟨child, hchild, hbelow⟩
      · obtain ⟨hnodup, hchildren⟩ := of_markChildren_eq_ok hmarked
        exact ⟨hnodup, fun child hchild => (hchildren child hchild).1⟩
      · exact ih h (List.mem_append_left _ (List.mem_reverse.2 hchild)) hbelow
    · exact ih h (List.mem_append_right _ hstart) hbelow

theorem Reachable.reflTransGen {arena : Arena} {id : NodeId} (h : arena.Reachable id) :
    Relation.ReflTransGen (fun id child => child ∈ arena.children id) Arena.root id := by
  induction h with
  | root => exact .refl
  | child _ hlisted ih => exact ih.tail hlisted

theorem linked_of_validate_eq_ok {arena : Arena} (h : arena.validate = .ok ()) : arena.Linked := by
  rw [validate] at h
  split at h
  · cases h
  · next hroot =>
    have hchecked {id : NodeId} (hid : arena.Reachable id) :=
      checked_of_scan_eq_ok h (List.mem_singleton_self root) hid.reflTransGen
    exact ⟨hroot, fun hid hlisted => (hchecked hid).2 _ hlisted, fun hid => (hchecked hid).1⟩

theorem linked_iff (arena : Arena) :
    arena.Linked ↔ arena.parent? root = none ∧
      ∀ id, arena.Reachable id → ∀ child ∈ arena.children id,
        child < arena.size ∧ arena.parent? child = some id ∧
          (arena.children id).count child = 1 := by
  constructor
  · intro h
    apply And.intro h.root_parent
    intro id hid child hchild
    have hparent := h.child_parent hid hchild
    exact ⟨lt_size_of_parent? hparent, hparent,
      List.nodup_iff_count_eq_one.1 (h.nodup hid) child hchild⟩
  · intro ⟨hroot, hchecked⟩
    have hnodup {id : NodeId} (hid : arena.Reachable id) : (arena.children id).Nodup :=
      List.nodup_iff_count_eq_one.2 fun child hchild => (hchecked id hid child hchild).2.2
    exact ⟨hroot, fun hid hchild => (hchecked _ hid _ hchild).2.1, hnodup⟩

section Path

variable {arena : Arena} {id : NodeId}

theorem exists_follow? (h : arena.Reachable id) : ∃ path, arena.follow? path = some id := by
  induction h with
  | root => exact ⟨[], rfl⟩
  | child _ hlisted ih =>
    obtain ⟨path, hpath⟩ := ih
    obtain ⟨i, hi⟩ := List.mem_iff_getElem?.1 hlisted
    exact ⟨path ++ [i], by rw [follow?_concat, hpath, Option.bind_some, hi]⟩

theorem exists_of_follow?_concat {path : List Nat} {i : Nat}
    (h : arena.follow? (path ++ [i]) = some id) :
    ∃ parent, arena.follow? path = some parent ∧ (arena.children parent)[i]? = some id := by
  rw [follow?_concat] at h
  exact Option.bind_eq_some_iff.1 h

theorem reachable_of_follow? {path : List Nat} (h : arena.follow? path = some id) :
    arena.Reachable id := by
  induction path using List.reverseRecOn generalizing id with
  | nil =>
    cases h
    exact .root
  | append_singleton path i ih =>
    obtain ⟨parent, hpath, hi⟩ := exists_of_follow?_concat h
    exact (ih hpath).child (List.mem_of_getElem? hi)

theorem Linked.parent?_of_follow? (hlinked : arena.Linked) {path : List Nat} {parent : NodeId}
    {i : Nat} (hpath : arena.follow? path = some parent)
    (hi : (arena.children parent)[i]? = some id) : arena.parent? id = some parent :=
  hlinked.child_parent (reachable_of_follow? hpath) (List.mem_of_getElem? hi)

/-- Paths to one node come through its parent, so they agree from their ends on. -/
theorem Linked.follow?_inj (hlinked : arena.Linked) {path other : List Nat}
    (hpath : arena.follow? path = some id) (hother : arena.follow? other = some id) :
    path = other := by
  induction path using List.reverseRecOn generalizing other id with
  | nil =>
    cases hpath
    cases other using List.reverseRecOn with
    | nil => rfl
    | append_singleton other j =>
      obtain ⟨parent, hother, hj⟩ := exists_of_follow?_concat hother
      have hparent := hlinked.parent?_of_follow? hother hj
      rw [hlinked.root_parent] at hparent
      cases hparent
  | append_singleton path i ih =>
    obtain ⟨parent, hpath, hi⟩ := exists_of_follow?_concat hpath
    have hparent := hlinked.parent?_of_follow? hpath hi
    cases other using List.reverseRecOn with
    | nil =>
      cases hother
      rw [hlinked.root_parent] at hparent
      cases hparent
    | append_singleton other j =>
      obtain ⟨parent', hother, hj⟩ := exists_of_follow?_concat hother
      rw [hlinked.parent?_of_follow? hother hj] at hparent
      cases hparent
      obtain ⟨hlt, heq⟩ := List.getElem?_eq_some_iff.1 hi
      have hij : i = j := by
        apply (hlinked.nodup (reachable_of_follow? hpath)).getElem_inj_iff.1
        exact heq.trans (List.getElem?_eq_some_iff.1 hj).2.symm
      rw [ih hpath hother, hij]

end Path

/-- The integrity check decides whether the nodes below the root form a tree. -/
theorem validate_decides_tree (arena : Arena) :
    arena.validate? = some arena.validate ∧
      (arena.validate = .ok () ↔
        arena.parent? root = none ∧
          ∀ id, arena.Reachable id → ∀ child ∈ arena.children id,
            child < arena.size ∧ arena.parent? child = some id ∧
              (arena.children id).count child = 1) ∧
      (arena.validate = .ok () →
        ∀ id, arena.Reachable id → ∃! path, arena.follow? path = some id) := by
  apply And.intro arena.validate?_eq_some
  constructor
  · rw [← linked_iff]
    exact ⟨linked_of_validate_eq_ok, Linked.validate_eq_ok⟩
  · intro h id hid
    obtain ⟨path, hpath⟩ := exists_follow? hid
    apply ExistsUnique.intro path hpath
    intro other hother
    exact (linked_of_validate_eq_ok h).follow?_inj hother hpath

end Declang.Arena
