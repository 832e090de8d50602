import Mathlib.Data.List.Nodup
import Declang.Arena.Integrity
namespace Declang.Arena

def parent? (arena : Arena) (id : NodeId) : Option NodeId :=
  (arena.get? id).bind Node.parent

/-- The nodes below the root, along the child lists. -/
inductive Reachable (arena : Arena) : NodeId → Prop where
  | root : Reachable arena root
  | child {id child : NodeId} (reached : Reachable arena id) (listed : child ∈ arena.children id) :
    Reachable arena child

/-- Every node below the root is listed once, by the parent it records. -/
structure Linked (arena : Arena) : Prop where
  root_parent : arena.parent? root = none
  child_parent {id child : NodeId} (reached : arena.Reachable id)
    (listed : child ∈ arena.children id) : arena.parent? child = some id
  nodup {id : NodeId} (reached : arena.Reachable id) : (arena.children id).Nodup

theorem lt_size_of_get? {arena : Arena} {id : NodeId} {node : Node}
    (h : arena.get? id = some node) : id < arena.size :=
  (Array.getElem?_eq_some_iff.1 h).1

theorem exists_node {arena : Arena} {id : NodeId} (h : id < arena.size) :
    ∃ node, arena.get? id = some node :=
  ⟨_, Array.getElem?_eq_getElem h⟩

theorem parent?_eq {arena : Arena} {id : NodeId} {node : Node} (h : arena.get? id = some node) :
    arena.parent? id = node.parent := by
  rw [parent?, h, Option.bind_some]

theorem children_eq {arena : Arena} {id : NodeId} {node : Node} (h : arena.get? id = some node) :
    arena.children id = node.children := by
  rw [children, h]
  rfl

theorem lt_size_of_parent? {arena : Arena} {id parent : NodeId}
    (h : arena.parent? id = some parent) : id < arena.size := by
  obtain ⟨node, hnode, -⟩ := Option.bind_eq_some_iff.1 h
  exact lt_size_of_get? hnode

theorem markChildren_eq_ok {arena : Arena} {parent : NodeId} {children : List NodeId}
    {seen : Vector Bool arena.size} (hnodup : children.Nodup)
    (hchildren : ∀ child ∈ children,
      arena.parent? child = some parent ∧ seen[child]? = some false) :
    ∃ marked, arena.markChildren parent children seen = .ok marked ∧
      ∀ id, marked[id]? = if id ∈ children then some true else seen[id]? := by
  induction children generalizing seen with
  | nil => exact ⟨seen, rfl, fun id => by simp⟩
  | cons child children ih =>
    obtain ⟨hnew, hnodup⟩ := List.nodup_cons.1 hnodup
    obtain ⟨⟨hparent, hunseen⟩, hchildren⟩ := List.forall_mem_cons.1 hchildren
    have hlt := lt_size_of_parent? hparent
    have hrecorded : arena.nodes[child].parent = some parent := by
      obtain ⟨node, hnode, hnode'⟩ := Option.bind_eq_some_iff.1 hparent
      obtain ⟨_, rfl⟩ := Array.getElem?_eq_some_iff.1 hnode
      exact hnode'
    have hseen : seen[child] = false := by
      obtain ⟨_, hseen⟩ := Vector.getElem?_eq_some_iff.1 hunseen
      exact hseen
    have hset (id : NodeId) : (seen.set child true)[id]? =
        if id = child then some true else seen[id]? := by
      rw [Vector.getElem?_set]
      simp only [eq_comm]
    obtain ⟨marked, hmarked, hlookup⟩ := @ih (seen.set child true) hnodup fun id hid => by
      have hne : id ≠ child := fun heq => hnew (heq ▸ hid)
      rw [hset, if_neg hne]
      exact hchildren id hid
    refine ⟨marked, ?_, fun id => ?_⟩
    · rw [markChildren]
      simp [hlt, hrecorded, hseen, hmarked]
    · rw [hlookup, hset]
      simp only [List.mem_cons]
      split_ifs <;> simp_all

theorem of_markChildren_eq_ok {arena : Arena} {parent : NodeId} {children : List NodeId}
    {seen marked : Vector Bool arena.size}
    (h : arena.markChildren parent children seen = .ok marked) :
    children.Nodup ∧ ∀ child ∈ children,
      arena.parent? child = some parent ∧ seen[child]? = some false := by
  induction children generalizing seen with
  | nil =>
    apply And.intro List.nodup_nil
    intro child hchild
    cases hchild
  | cons child children ih =>
    rw [markChildren] at h
    split at h
    case isFalse => cases h
    next hlt =>
    simp only at h
    split at h
    case isTrue => cases h
    next hrecorded =>
    split at h
    case isTrue => cases h
    next hunseen =>
    obtain ⟨hnodup, hchildren⟩ := ih h
    -- The first child is marked by now, and the later ones are not.
    have hnew : child ∉ children := by
      intro hmem
      have hseen := (hchildren child hmem).2
      rw [Vector.getElem?_set_self hlt] at hseen
      cases hseen
    have hparent : arena.parent? child = some parent := by
      rw [parent?, get?, Array.getElem?_eq_getElem hlt]
      exact not_not.1 hrecorded
    apply And.intro (List.nodup_cons.2 ⟨hnew, hnodup⟩)
    intro other hother
    rcases List.mem_cons.1 hother with rfl | hother
    · apply And.intro hparent
      rw [Vector.getElem?_eq_getElem hlt, Bool.eq_false_iff.2 hunseen]
    · have hne : child ≠ other := fun heq => hnew (heq ▸ hother)
      obtain ⟨hback, hseen⟩ := hchildren other hother
      rw [Vector.getElem?_set_ne hlt hne] at hseen
      exact ⟨hback, hseen⟩

theorem getElem?_of_markChildren {arena : Arena} {parent : NodeId} {children : List NodeId}
    {seen marked : Vector Bool arena.size}
    (h : arena.markChildren parent children seen = .ok marked) (id : NodeId) :
    marked[id]? = if id ∈ children then some true else seen[id]? := by
  obtain ⟨hnodup, hchildren⟩ := of_markChildren_eq_ok h
  obtain ⟨marked', hmarked, hlookup⟩ := markChildren_eq_ok hnodup hchildren
  rw [h] at hmarked
  cases hmarked
  exact hlookup id

/-- What holds while the pending nodes wait for a visit: a node was found at the visit of its
parent. -/
structure Frontier (arena : Arena) (seen : Vector Bool arena.size) (pending : List NodeId) :
    Prop where
  nodup : pending.Nodup
  reached {id : NodeId} (waits : id ∈ pending) : arena.Reachable id
  found {id : NodeId} (waits : id ∈ pending) : seen[id]? = some true
  visited {id parent : NodeId} (marked : seen[id]? = some true)
    (child : arena.parent? id = some parent) : seen[parent]? = some true ∧ parent ∉ pending

theorem Frontier.unseen {arena : Arena} {seen : Vector Bool arena.size} {id child : NodeId}
    {pending : List NodeId} (hlinked : arena.Linked) (h : arena.Frontier seen (id :: pending))
    (hchild : child ∈ arena.children id) : seen[child]? = some false := by
  have hparent := hlinked.child_parent (h.reached (List.mem_cons_self ..)) hchild
  have hlt := lt_size_of_parent? hparent
  cases hseen : seen[child] with
  | false => rw [Vector.getElem?_eq_getElem hlt, hseen]
  | true =>
    have hfound : seen[child]? = some true := by rw [Vector.getElem?_eq_getElem hlt, hseen]
    exact absurd (List.mem_cons_self ..) (h.visited hfound hparent).2

theorem Frontier.step {arena : Arena} {seen marked : Vector Bool arena.size} {id : NodeId}
    {pending : List NodeId} (h : arena.Frontier seen (id :: pending))
    (hmark : arena.markChildren id (arena.children id) seen = .ok marked) :
    arena.Frontier marked ((arena.children id).reverse ++ pending) := by
  have hid := h.reached (List.mem_cons_self ..)
  have hmarked := getElem?_of_markChildren hmark
  obtain ⟨hdistinct, hchildren⟩ := of_markChildren_eq_ok hmark
  obtain ⟨hnew, hnodup⟩ := List.nodup_cons.1 h.nodup
  refine ⟨?_, ?_, ?_, ?_⟩
  · refine List.nodup_append'.2 ⟨List.nodup_reverse.2 hdistinct, hnodup, ?_⟩
    intro child hchild hpending
    have hseen := h.found (List.mem_cons_of_mem _ hpending)
    rw [(hchildren child (List.mem_reverse.1 hchild)).2] at hseen
    cases hseen
  · intro other hother
    rcases List.mem_append.1 hother with hchild | hpending
    · exact hid.child (List.mem_reverse.1 hchild)
    · exact h.reached (List.mem_cons_of_mem _ hpending)
  · intro other hother
    rw [hmarked]
    split_ifs with hchild
    · rfl
    · rcases List.mem_append.1 hother with hchild' | hpending
      · exact absurd (List.mem_reverse.1 hchild') hchild
      · exact h.found (List.mem_cons_of_mem _ hpending)
  · intro other parent hother hparent
    -- A node that was seen before stays seen, and is no child of the visited one.
    have hkept {node : NodeId} (hseen : seen[node]? = some true) :
        node ∉ arena.children id ∧ marked[node]? = some true := by
      have hno : node ∉ arena.children id := fun hchild => by
        simp [(hchildren node hchild).2] at hseen
      exact ⟨hno, by rw [hmarked, if_neg hno, hseen]⟩
    have hparts {node : NodeId} (hno : node ∉ arena.children id) (hpending : node ∉ pending) :
        node ∉ (arena.children id).reverse ++ pending := by
      simp [hno, hpending]
    by_cases hchild : other ∈ arena.children id
    · have heq := (hchildren other hchild).1
      rw [hparent, Option.some.injEq] at heq
      subst heq
      obtain ⟨hno, hseen⟩ := hkept (h.found (List.mem_cons_self ..))
      exact ⟨hseen, hparts hno hnew⟩
    · rw [hmarked, if_neg hchild] at hother
      obtain ⟨hseen, hpending⟩ := h.visited hother hparent
      obtain ⟨hno, hseen⟩ := hkept hseen
      exact ⟨hseen, hparts hno fun hmem => hpending (List.mem_cons_of_mem _ hmem)⟩

theorem Frontier.start {arena : Arena} (hroot : arena.parent? root = none) :
    arena.Frontier ((Vector.replicate arena.size false).set 0 true arena.nonempty) [root] := by
  have hpos : 0 < arena.size := arena.nonempty
  have hseen (id : NodeId) :
      ((Vector.replicate arena.size false).set 0 true hpos)[id]? = some true ↔ id = root := by
    rw [Vector.getElem?_set, Vector.getElem?_replicate, root]
    by_cases hid : id = 0
    · simp [hid]
    · simp [hid, Ne.symm hid]
  refine ⟨List.nodup_singleton _, ?_, ?_, ?_⟩
  · intro id hid
    rw [List.mem_singleton.1 hid]
    exact .root
  · intro id hid
    exact (hseen id).2 (List.mem_singleton.1 hid)
  · intro id parent hid hparent
    rw [(hseen id).1 hid, hroot] at hparent
    cases hparent

/-- The scan of a linked arena never meets a node twice. -/
theorem Linked.scan_eq_ok {arena : Arena} (hlinked : arena.Linked) {seen : Vector Bool arena.size}
    {pending : List NodeId} (h : arena.Frontier seen pending) :
    arena.scan seen pending = .ok () := by
  fun_induction arena.scan seen pending with
  | case1 => rfl
  | case2 seen id pending error herror =>
    have hid := h.reached (List.mem_cons_self ..)
    obtain ⟨marked, hmarked, -⟩ := markChildren_eq_ok (hlinked.nodup hid) fun child hchild =>
      ⟨hlinked.child_parent hid hchild, h.unseen hlinked hchild⟩
    rw [herror] at hmarked
    cases hmarked
  | case3 seen id pending marked hmarked ih => exact ih (h.step hmarked)

theorem Linked.validate_eq_ok {arena : Arena} (hlinked : arena.Linked) :
    arena.validate = .ok () := by
  have hroot := hlinked.root_parent
  rw [parent?] at hroot
  rw [validate, hroot]
  exact hlinked.scan_eq_ok (Frontier.start hlinked.root_parent)

def grownNodes (arena : Arena) (parent : NodeId) (kind : NodeKind) : Array Node :=
  (arena.nodes.push ⟨kind, some parent, []⟩).modify parent fun node =>
    { node with children := node.children ++ [arena.size] }

theorem size_grownNodes (arena : Arena) (parent : NodeId) (kind : NodeKind) :
    (arena.grownNodes parent kind).size = arena.size + 1 := by
  rw [grownNodes, Array.size_modify, Array.size_push]
  rfl

theorem grownNodes_pos (arena : Arena) (parent : NodeId) (kind : NodeKind) :
    0 < (arena.grownNodes parent kind).size := by
  rw [size_grownNodes]
  exact Nat.succ_pos _

/-- The arena with one more node, as the last child of `parent`. -/
def grow (arena : Arena) (parent : NodeId) (kind : NodeKind) : Arena :=
  ⟨arena.grownNodes parent kind, arena.grownNodes_pos parent kind⟩

theorem toList_nodes_grow (arena : Arena) (parent : NodeId) (kind : NodeKind) :
    (arena.grow parent kind).nodes.toList =
      (arena.nodes.toList ++ [Node.mk kind (some parent) []]).modify parent fun node =>
        { node with children := node.children ++ [arena.size] } := by
  change (arena.grownNodes parent kind).toList = _
  rw [grownNodes, Array.toList_modify, Array.toList_push]

theorem attach?_eq (arena : Arena) (parent : NodeId) (kind : NodeKind) :
    arena.attach? parent kind =
      if parent ≤ arena.size then some (arena.size, arena.grow parent kind) else none :=
  rfl

@[simp]
theorem size_grow (arena : Arena) (parent : NodeId) (kind : NodeKind) :
    (arena.grow parent kind).size = arena.size + 1 :=
  arena.size_grownNodes parent kind

theorem size_le_size_grow (arena : Arena) (parent : NodeId) (kind : NodeKind) :
    arena.size ≤ (arena.grow parent kind).size := by
  rw [size_grow]
  exact Nat.le_succ _

/-- What is found at each position, also when the new node is its own parent. -/
theorem get?_grow (arena : Arena) (parent : NodeId) (kind : NodeKind) (id : NodeId) :
    (arena.grow parent kind).get? id =
      (if id = arena.size then some ⟨kind, some parent, []⟩ else arena.get? id).map fun node =>
        { node with children := node.children ++ if id = parent then [arena.size] else [] } := by
  simp only [get?, grow, grownNodes, size, Array.getElem?_modify, Array.getElem?_push]
  by_cases hid : id = parent
  · subst hid
    simp only [if_true]
    rfl
  · simp only [hid, Ne.symm hid, if_false, List.append_nil, Option.map_id']
    rfl

theorem parent?_grow (arena : Arena) (parent : NodeId) (kind : NodeKind) (id : NodeId) :
    (arena.grow parent kind).parent? id =
      if id = arena.size then some parent else arena.parent? id := by
  rw [parent?, get?_grow, parent?]
  by_cases hnew : id = arena.size
  · rw [if_pos hnew, if_pos hnew]
    rfl
  · rw [if_neg hnew, if_neg hnew]
    cases arena.get? id <;> rfl

theorem children_of_size_le {arena : Arena} {id : NodeId} (h : arena.size ≤ id) :
    arena.children id = [] := by
  rw [children, get?, Array.getElem?_eq_none h]
  rfl

theorem children_grow {arena : Arena} {parent : NodeId} (h : parent ≤ arena.size) (kind : NodeKind)
    (id : NodeId) :
    (arena.grow parent kind).children id =
      arena.children id ++ if id = parent then [arena.size] else [] := by
  rw [children, get?_grow]
  by_cases hnew : id = arena.size
  · rw [if_pos hnew, children_of_size_le (Nat.le_of_eq hnew.symm)]
    rfl
  · rw [if_neg hnew]
    rcases Nat.lt_or_gt_of_ne hnew with hlt | hgt
    · obtain ⟨node, hnode⟩ := exists_node hlt
      rw [children_eq hnode, hnode]
      rfl
    · have hne : id ≠ parent := fun heq => Nat.not_le_of_lt hgt (heq ▸ h)
      have hnone : arena.get? id = none := Array.getElem?_eq_none (Nat.le_of_lt hgt)
      rw [children_of_size_le (Nat.le_of_lt hgt), if_neg hne, hnone]
      rfl

theorem children_grow_of_ne {arena : Arena} {parent id : NodeId} (h : parent ≤ arena.size)
    (hne : id ≠ parent) (kind : NodeKind) :
    (arena.grow parent kind).children id = arena.children id := by
  rw [children_grow h, if_neg hne, List.append_nil]

end Declang.Arena
