import Declang.Proofs.Parse.Unparse
namespace Declang

/-- Nodes of these kinds may stand below a node of the first kind. -/
def NodeKind.Holds : NodeKind → List NodeKind → Prop
  | program, below => ∀ kind ∈ below, (∃ f, kind = function f) ∨ ∃ v, kind = declaration v
  | function _, below => ∀ kind ∈ below, (∃ v, kind = declaration v) ∨ kind = return_
  | return_, below =>
    below.length ≤ 1 ∧ ∀ kind ∈ below,
      (∃ value, kind = int value) ∨ (∃ value, kind = uint value) ∨ ∃ name, kind = identifier name
  | _, below => below = []

theorem NodeKind.Holds.ne_program {kind other : NodeKind} {below : List NodeKind}
    (h : kind.Holds below) (hother : other ∈ below) : other ≠ program := by
  cases kind
  case program => rcases h other hother with ⟨_, rfl⟩ | ⟨_, rfl⟩ <;> exact nofun
  case function => rcases h other hother with ⟨_, rfl⟩ | rfl <;> exact nofun
  case return_ => rcases h.2 other hother with ⟨_, rfl⟩ | ⟨_, rfl⟩ | ⟨_, rfl⟩ <;> exact nofun
  all_goals
    cases h
    cases hother

def Arena.kind? (arena : Arena) (id : NodeId) : Option NodeKind :=
  (arena.get? id).map Node.kind

/-- All children of the node are there, and are of kinds that may stand below it. -/
def Arena.Fits (arena : Arena) (node : Node) : Prop :=
  ∃ below, node.children.map arena.kind? = below.map some ∧ node.kind.Holds below

/-- The form of every parsed program: the nodes stand in depth-first pre-order, each but the root
below an earlier one that lists it once, and each where its kind may stand. -/
structure Arena.Canonical (arena : Arena) : Prop where
  order : arena.descendants? = some (List.range arena.size)
  program_iff {id : NodeId} {node : Node} (present : arena.get? id = some node) :
    node.kind = .program ↔ id = root
  orphan_iff {id : NodeId} {node : Node} (present : arena.get? id = some node) :
    node.parent = none ↔ id = root
  listed {id parent : NodeId} {node : Node} (present : arena.get? id = some node)
    (recorded : node.parent = some parent) : parent < id ∧ (arena.children parent).count id = 1
  fits {id : NodeId} {node : Node} (present : arena.get? id = some node) : arena.Fits node

namespace Tree

mutual

/-- Every node of the tree stands where its kind may stand. -/
def Shaped : Tree → Prop
  | node kind children => kind.Holds (children.map Tree.kind) ∧ AllShaped children

def AllShaped : List Tree → Prop
  | [] => True
  | tree :: trees => tree.Shaped ∧ AllShaped trees

end

theorem allShaped_map {α : Type} {tree : α → Tree} (h : ∀ a, (tree a).Shaped) (as : List α) :
    AllShaped (as.map tree) := by
  induction as with
  | nil => trivial
  | cons a as ih => exact ⟨h a, ih⟩

theorem shaped_returned (r : Returned) : (node r.kind []).Shaped := by
  cases r <;> exact ⟨rfl, trivial⟩

theorem shaped_statement (statement : Statement) : statement.tree.Shaped := by
  cases statement with
  | declaration v => exact ⟨rfl, trivial⟩
  | return_ returned =>
    cases returned with
    | none => exact ⟨⟨Nat.zero_le _, nofun⟩, trivial⟩
    | some r =>
      refine ⟨⟨Nat.le_refl _, ?_⟩, shaped_returned r, trivial⟩
      intro kind hkind
      rw [List.mem_singleton.1 hkind]
      cases r with
      | int value => exact .inl ⟨value, rfl⟩
      | uint value => exact .inr (.inl ⟨value, rfl⟩)
      | name content => exact .inr (.inr ⟨content, rfl⟩)

theorem shaped_item (item : Item) : item.tree.Shaped := by
  cases item with
  | declaration v => exact ⟨rfl, trivial⟩
  | function f body =>
    refine ⟨?_, allShaped_map shaped_statement body⟩
    intro kind hkind
    obtain ⟨tree, htree, rfl⟩ := List.mem_map.1 hkind
    obtain ⟨statement, -, rfl⟩ := List.mem_map.1 htree
    cases statement with
    | declaration v => exact .inl ⟨v, rfl⟩
    | return_ returned => exact .inr rfl

theorem shaped_program (items : List Item) : (program items).Shaped := by
  refine ⟨?_, allShaped_map shaped_item items⟩
  intro kind hkind
  obtain ⟨tree, htree, rfl⟩ := List.mem_map.1 hkind
  obtain ⟨item, -, rfl⟩ := List.mem_map.1 htree
  cases item with
  | declaration v => exact .inr ⟨v, rfl⟩
  | function f body => exact .inl ⟨f, rfl⟩

end Tree

namespace Arena

theorem map_kind?_starts {arena : Arena} {before after : List Node} {parent base : NodeId}
    {trees : List Tree} (hbase : before.length = base)
    (h : arena.nodes.toList = before ++ (Tree.flattens parent base trees ++ after)) :
    (Tree.starts base trees).map arena.kind? = (trees.map Tree.kind).map some := by
  induction trees generalizing before base with
  | nil => rfl
  | cons tree trees ih =>
    rw [Tree.flattens, List.append_assoc] at h
    have hfirst : arena.kind? base = some tree.kind := by
      cases tree with
      | node kind children =>
        rw [Tree.flatten, List.cons_append] at h
        rw [kind?, get?_of_toList hbase h]
        rfl
    rw [← List.append_assoc] at h
    rw [Tree.starts, List.map_cons, hfirst, ih (by simp [hbase]) h, List.map_cons, List.map_cons]

mutual

theorem fits_flatten {arena : Arena} {before after : List Node} {parent : Option NodeId}
    {base i : Nat} {node : Node} (tree : Tree) (hshaped : tree.Shaped)
    (hbase : before.length = base)
    (h : arena.nodes.toList = before ++ (tree.flatten parent base ++ after))
    (hi : (tree.flatten parent base)[i]? = some node) : arena.Fits node := by
  cases tree with
  | node kind children =>
    obtain ⟨hholds, hchildren⟩ := hshaped
    rw [Tree.flatten, List.cons_append, List.append_cons] at h
    have hbase' : (before ++ [Node.mk kind parent (Tree.starts (base + 1) children)]).length =
        base + 1 := by
      simp [hbase]
    rw [Tree.flatten] at hi
    cases i with
    | zero =>
      cases hi
      exact ⟨_, map_kind?_starts hbase' h, hholds⟩
    | succ i => exact fits_flattens children hchildren hbase' h hi

theorem fits_flattens {arena : Arena} {before after : List Node} {parent base i : Nat}
    {node : Node} (trees : List Tree) (hshaped : Tree.AllShaped trees)
    (hbase : before.length = base)
    (h : arena.nodes.toList = before ++ (Tree.flattens parent base trees ++ after))
    (hi : (Tree.flattens parent base trees)[i]? = some node) : arena.Fits node := by
  cases trees with
  | nil => cases hi
  | cons tree trees =>
    obtain ⟨hfirst, hlater⟩ := hshaped
    rw [Tree.flattens, List.append_assoc] at h
    rw [Tree.flattens] at hi
    by_cases hlt : i < tree.size
    · rw [List.getElem?_append_left (by rwa [Tree.length_flatten])] at hi
      exact fits_flatten tree hfirst hbase h hi
    · rw [List.getElem?_append_right (by rw [Tree.length_flatten]; omega)] at hi
      rw [← List.append_assoc] at h
      exact fits_flattens trees hlater (by simp [hbase]) h hi

end

theorem fits_ofTree {tree : Tree} (hshaped : tree.Shaped) {id : NodeId} {node : Node}
    (h : (ofTree tree).get? id = some node) : (ofTree tree).Fits node := by
  have hnodes : (ofTree tree).nodes.toList = [] ++ (tree.flatten none root ++ []) := by
    rw [toList_nodes_ofTree, List.append_nil, List.nil_append]
  rw [get?, ← Array.getElem?_toList, toList_nodes_ofTree] at h
  exact fits_flatten tree hshaped rfl hnodes h

theorem ne_program_of_fits {arena : Arena} (hgrown : arena.Grown)
    (hfits : ∀ {id : NodeId} {node : Node}, arena.get? id = some node → arena.Fits node)
    {id parent : NodeId} {node : Node} (hnode : arena.get? id = some node)
    (hparent : node.parent = some parent) : node.kind ≠ .program := by
  rw [← parent?_eq hnode] at hparent
  have hlt := Nat.lt_trans (hgrown.parent?_lt hparent) (lt_size_of_get? hnode)
  obtain ⟨above, habove⟩ := exists_node hlt
  obtain ⟨below, hkinds, hbelow⟩ := hfits habove
  have hlisted : id ∈ above.children := by
    rw [← children_eq habove, ← List.count_pos_iff, hgrown.count_children hparent]
    exact Nat.one_pos
  have hkind : some node.kind ∈ below.map some := by
    rw [← hkinds, List.mem_map]
    exact ⟨id, hlisted, by rw [kind?, hnode, Option.map_some]⟩
  obtain ⟨kind, hmem, hkind⟩ := List.mem_map.1 hkind
  cases hkind
  exact hbelow.ne_program hmem

theorem canonical_ofTree {kind : NodeKind} {children : List Tree}
    (hshaped : (Tree.node kind children).Shaped) (hkind : kind = .program)
    (hgrown : (ofTree (.node kind children)).Grown) :
    (ofTree (.node kind children)).Canonical := by
  constructor
  · rw [descendants?_ofTree, size_ofTree]
  · intro id node hnode
    constructor
    · intro hprogram
      rw [← hgrown.orphan_iff hnode]
      cases hparent : node.parent with
      | none => rfl
      | some parent =>
        exact absurd hprogram (ne_program_of_fits hgrown (fits_ofTree hshaped) hnode hparent)
    · intro hroot
      have hfirst : (ofTree (.node kind children)).get? root =
          some ⟨kind, none, Tree.starts (root + 1) children⟩ := get?_ofTree .whole kind children
      rw [hroot, hfirst] at hnode
      cases hnode
      exact hkind
  · intro id node hnode
    exact hgrown.orphan_iff hnode
  · intro id parent node hnode hparent
    rw [← parent?_eq hnode] at hparent
    exact ⟨hgrown.parent?_lt hparent, hgrown.count_children hparent⟩
  · intro id node hnode
    exact fits_ofTree hshaped hnode

end Arena

theorem parse_sampleTokens : parse sampleTokens = .ok (.ofTree (.program
    [.function ⟨"int", "f", [⟨"byte", "a"⟩, ⟨"uint", "b"⟩]⟩
      [.declaration ⟨"int", "c", some "7u"⟩, .return_ (some (.int 7))]])) :=
  parse_eq_ok_iff.2 ⟨_, by decide, rfl⟩

/-- Every parsed program has the canonical form. -/
theorem canonical_of_parse {tokens : List Token} {arena : Arena} (h : parse tokens = .ok arena) :
    arena.Canonical := by
  obtain ⟨items, -, rfl⟩ := parse_eq_ok_iff.1 h
  exact Arena.canonical_ofTree (Tree.shaped_program items) rfl (Progress.top items).grown

theorem canonical_sampleTokens : ∃ arena, parse sampleTokens = .ok arena ∧ arena.Canonical :=
  ⟨_, parse_sampleTokens, canonical_of_parse parse_sampleTokens⟩

end Declang
