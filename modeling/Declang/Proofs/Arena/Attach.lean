import Declang.Proofs.Arena.Grown
import Declang.Proofs.Arena.Walk
namespace Declang.Arena

/-- Every node is still there in `later`, of the same kind and below the same parent. -/
def Kept (arena later : Arena) : Prop :=
  ∀ id node, arena.get? id = some node →
    ∃ node', later.get? id = some node' ∧ node'.kind = node.kind ∧ node'.parent = node.parent

/-- The arena after calls of `attach?` one after another. -/
def attachAll? (arena : Arena) : List (NodeId × NodeKind) → Option Arena
  | [] => some arena
  | (parent, kind) :: calls =>
    (arena.attach? parent kind).bind fun added => added.2.attachAll? calls

/-- Each call names a parent that is in the arena when the call is made. -/
def Timely (arena : Arena) : List (NodeId × NodeKind) → Prop
  | [] => True
  | (parent, kind) :: calls =>
    parent < arena.size ∧ ∀ added ∈ arena.attach? parent kind, added.2.Timely calls

instance decidableTimely (arena : Arena) :
    (calls : List (NodeId × NodeKind)) → Decidable (arena.Timely calls)
  | [] => inferInstanceAs (Decidable True)
  | (parent, kind) :: calls =>
    have (added : NodeId × Arena) := decidableTimely added.2 calls
    inferInstanceAs (Decidable (parent < arena.size ∧ ∀ added ∈ arena.attach? parent kind,
      added.2.Timely calls))

/-- A tree whose nodes came one after another, each below an earlier one. -/
structure Chronological (arena : Arena) : Prop where
  valid : arena.validate = .ok ()
  visited : ∃ order, arena.descendants? = some order ∧ order.Perm (List.range arena.size)
  parent_lt {id : Nat} (present : id < arena.size) (below : id ≠ root) :
    ∃ parent, arena.parent? id = some parent ∧ parent < id
  sorted (id : NodeId) : (arena.children id).Pairwise (· < ·)

variable {arena : Arena}

theorem Kept.refl (arena : Arena) : arena.Kept arena := by
  intro id node hnode
  exact ⟨node, hnode, rfl, rfl⟩

theorem Kept.trans {later last : Arena} (h : arena.Kept later) (hlater : later.Kept last) :
    arena.Kept last := by
  intro id node hnode
  obtain ⟨node', hnode', hkind, hparent⟩ := h id node hnode
  obtain ⟨node'', hnode'', hkind', hparent'⟩ := hlater id node' hnode'
  exact ⟨node'', hnode'', hkind'.trans hkind, hparent'.trans hparent⟩

theorem Kept.grow (arena : Arena) (parent : NodeId) (kind : NodeKind) :
    arena.Kept (arena.grow parent kind) := by
  intro id node hnode
  rw [get?_grow, if_neg (Nat.ne_of_lt (lt_size_of_get? hnode)), hnode]
  exact ⟨_, rfl, rfl, rfl⟩

theorem attachAll?_append (arena : Arena) (calls more : List (NodeId × NodeKind)) :
    arena.attachAll? (calls ++ more) = (arena.attachAll? calls).bind (attachAll? · more) := by
  induction calls generalizing arena with
  | nil => rfl
  | cons call calls ih =>
    rw [List.cons_append, attachAll?, attachAll?, Option.bind_assoc]
    simp only [ih]

theorem Timely.of_append {calls more : List (NodeId × NodeKind)}
    (h : arena.Timely (calls ++ more)) :
    arena.Timely calls ∧ ∀ next, arena.attachAll? calls = some next → next.Timely more := by
  induction calls generalizing arena with
  | nil =>
    apply And.intro trivial
    intro next hnext
    cases hnext
    exact h
  | cons call calls ih =>
    obtain ⟨hpresent, hlater⟩ := h
    constructor
    · apply And.intro hpresent
      intro added hadded
      exact (ih (hlater added hadded)).1
    · intro last hlast
      obtain ⟨added, hadded, hlast⟩ := Option.bind_eq_some_iff.1 hlast
      exact (ih (hlater added hadded)).2 last hlast

namespace Grown

theorem chronological (h : arena.Grown) : arena.Chronological := by
  constructor
  · exact h.linked.validate_eq_ok
  · obtain ⟨order, horder, hnodup, hmem⟩ := h.linked.exists_descendants?
    refine ⟨order, horder, (List.perm_ext_iff_of_nodup hnodup List.nodup_range).2 ?_⟩
    intro id
    rw [hmem, List.mem_range]
    exact ⟨h.linked.lt_size, h.reachable⟩
  · intro id hid hne
    obtain ⟨parent, hparent⟩ := h.exists_parent? hid hne
    exact ⟨parent, hparent, h.parent?_lt hparent⟩
  · intro id
    rw [h.attached.children_eq_filter]
    exact List.pairwise_lt_range.filter _

theorem exists_attachAll? (h : arena.Grown) {calls : List (NodeId × NodeKind)}
    (hcalls : arena.Timely calls) :
    ∃ last, arena.attachAll? calls = some last ∧ last.Grown ∧
      last.size = arena.size + calls.length ∧ arena.Kept last := by
  induction calls generalizing arena with
  | nil => exact ⟨arena, rfl, h, rfl, .refl arena⟩
  | cons call calls ih =>
    obtain ⟨parent, kind⟩ := call
    obtain ⟨hpresent, hlater⟩ := hcalls
    have hcall : arena.attach? parent kind = some (arena.size, arena.grow parent kind) := by
      rw [attach?_eq, if_pos (Nat.le_of_lt hpresent)]
    obtain ⟨last, hlast, hgrown, hsize, hkept⟩ := ih (h.grow hpresent kind) (hlater _ hcall)
    refine ⟨last, ?_, hgrown, ?_, (Kept.grow arena parent kind).trans hkept⟩
    · rw [attachAll?, hcall, Option.bind_some, hlast]
    · rw [hsize, size_grow, List.length_cons, Nat.add_right_comm, Nat.add_assoc]

end Grown

/-- Attaching nodes below nodes that are there makes a tree, and leaves the earlier nodes as they
were: after any of the calls the arena has one node for each of them and one for the root, and
keeps these to the end. -/
theorem chronological_attachAll? {calls : List (NodeId × NodeKind)}
    (h : Arena.empty.Timely calls) :
    ∃ arena, Arena.empty.attachAll? calls = some arena ∧ arena.Chronological ∧
      ∀ front later, calls = front ++ later →
        ∃ earlier, Arena.empty.attachAll? front = some earlier ∧
          earlier.size = front.length + 1 ∧ earlier.Kept arena := by
  obtain ⟨arena, harena, hgrown, -, -⟩ := Grown.empty.exists_attachAll? h
  refine ⟨arena, harena, hgrown.chronological, ?_⟩
  rintro front later rfl
  obtain ⟨hfront, hlater⟩ := h.of_append
  obtain ⟨earlier, hearlier, hgrown', hsize, -⟩ := Grown.empty.exists_attachAll? hfront
  obtain ⟨last, hlast, -, -, hkept⟩ := hgrown'.exists_attachAll? (hlater earlier hearlier)
  rw [attachAll?_append, hearlier, Option.bind_some, hlast] at harena
  cases harena
  exact ⟨earlier, hearlier, hsize.trans (Nat.add_comm _ _), hkept⟩

/-- Nodes attached here and there, so that a walk does not meet them in the order of their ids. -/
def sampleCalls : List (NodeId × NodeKind) :=
  [(0, .return_), (0, .return_), (1, .int 7), (3, .return_)]

theorem chronological_sampleCalls :
    Arena.empty.Timely sampleCalls ∧
      ∃ arena, Arena.empty.attachAll? sampleCalls = some arena ∧ arena.Chronological ∧
        ∀ front later, sampleCalls = front ++ later →
          ∃ earlier, Arena.empty.attachAll? front = some earlier ∧
            earlier.size = front.length + 1 ∧ earlier.Kept arena :=
  ⟨by decide, chronological_attachAll? (by decide)⟩

example : (Arena.empty.attachAll? sampleCalls).bind descendants? = some [0, 1, 3, 4, 2] := by
  decide

end Declang.Arena
