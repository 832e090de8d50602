import Declang.Proofs.Parse.Run
namespace Declang

/-- What a node tells, around what the nodes below it tell. -/
def NodeKind.tell (id : NodeId) (kind : NodeKind) (below : List (List (NodeId × Trace))) :
    List (NodeId × Trace) :=
  kind.opening.map (id, ·) ++ (below.flatten ++ kind.closing.map (id, ·))

/-- The tokens of a program as its tree tells them from the root in child order, each with the node
that tells it. -/
def Arena.unparse? (arena : Arena) : Option (List (NodeId × Trace)) :=
  arena.foldAt? NodeKind.tell arena.size root

/-- The tokens that one node tells. -/
def toldBy (id : NodeId) (told : List (NodeId × Trace)) : List Trace :=
  (told.filter (·.1 = id)).map Prod.snd

theorem toldBy_append (id : NodeId) (told more : List (NodeId × Trace)) :
    toldBy id (told ++ more) = toldBy id told ++ toldBy id more := by
  rw [toldBy, List.filter_append, List.map_append]
  rfl

theorem toldBy_eq_nil {id : Nat} {told : List (NodeId × Trace)}
    (h : ∀ {other : Nat} {trace : Trace}, (other, trace) ∈ told → other ≠ id) :
    toldBy id told = [] := by
  rw [toldBy, List.map_eq_nil_iff, List.filter_eq_nil_iff]
  rintro ⟨other, trace⟩ hentry
  simpa using h hentry

theorem toldBy_map_self (id : NodeId) (traces : List Trace) :
    toldBy id (traces.map (id, ·)) = traces := by
  rw [toldBy, List.filter_eq_self.2 (by simp), List.map_map]
  exact List.map_id traces

theorem toldBy_map_ne {id other : NodeId} (h : other ≠ id) (traces : List Trace) :
    toldBy id (traces.map (other, ·)) = [] := by
  apply toldBy_eq_nil
  intro third trace hentry
  obtain ⟨_, -, hpair⟩ := List.mem_map.1 hentry
  cases hpair
  exact h

namespace Tree

mutual

theorem mem_foldFrom_tell {base id : Nat} {trace : Trace} (tree : Tree)
    (h : (id, trace) ∈ tree.foldFrom NodeKind.tell base) :
    base ≤ id ∧ id < base + tree.size := by
  cases tree with
  | node kind children =>
    rw [foldFrom, NodeKind.tell, List.mem_append, List.mem_append] at h
    rw [size]
    rcases h with h | h | h
    · obtain ⟨_, -, hpair⟩ := List.mem_map.1 h
      cases hpair
      omega
    · obtain ⟨hle, hlt⟩ := mem_foldsFrom_tell children h
      omega
    · obtain ⟨_, -, hpair⟩ := List.mem_map.1 h
      cases hpair
      omega

theorem mem_foldsFrom_tell {base id : Nat} {trace : Trace} (trees : List Tree)
    (h : (id, trace) ∈ (foldsFrom NodeKind.tell base trees).flatten) :
    base ≤ id ∧ id < base + sizes trees := by
  cases trees with
  | nil => cases h
  | cons tree trees =>
    rw [foldsFrom, List.flatten_cons, List.mem_append] at h
    rw [sizes]
    rcases h with h | h
    · obtain ⟨hle, hlt⟩ := mem_foldFrom_tell tree h
      omega
    · obtain ⟨hle, hlt⟩ := mem_foldsFrom_tell trees h
      omega

end

mutual

/-- Each node tells its own tokens once and no others. -/
theorem toldBy_foldFrom {parent : Option NodeId} {base i : Nat} {node : Node}
    (tree : Tree) (h : (tree.flatten parent base)[i]? = some node) :
    toldBy (base + i) (tree.foldFrom NodeKind.tell base) =
      node.kind.opening ++ node.kind.closing := by
  cases tree with
  | node kind children =>
    rw [flatten] at h
    rw [foldFrom, NodeKind.tell, toldBy_append, toldBy_append]
    cases i with
    | zero =>
      cases h
      have hbelow : toldBy base (foldsFrom NodeKind.tell (base + 1) children).flatten = [] := by
        apply toldBy_eq_nil
        intro other trace hentry
        obtain ⟨hle, -⟩ := mem_foldsFrom_tell children hentry
        omega
      rw [Nat.add_zero, toldBy_map_self, toldBy_map_self, hbelow, List.nil_append]
    | succ i =>
      have hne : base ≠ base + (i + 1) := by omega
      rw [toldBy_map_ne hne, toldBy_map_ne hne, List.nil_append, List.append_nil,
        Nat.add_comm i, ← Nat.add_assoc]
      exact toldBy_foldsFrom children h

theorem toldBy_foldsFrom {parent base i : Nat} {node : Node} (trees : List Tree)
    (h : (flattens parent base trees)[i]? = some node) :
    toldBy (base + i) (foldsFrom NodeKind.tell base trees).flatten =
      node.kind.opening ++ node.kind.closing := by
  cases trees with
  | nil => cases h
  | cons tree trees =>
    rw [flattens] at h
    rw [foldsFrom, List.flatten_cons, toldBy_append]
    by_cases hi : i < tree.size
    · rw [List.getElem?_append_left (by rwa [length_flatten])] at h
      have hlater : toldBy (base + i) (foldsFrom NodeKind.tell (base + tree.size) trees).flatten =
          [] := by
        apply toldBy_eq_nil
        intro other trace hentry
        obtain ⟨hle, -⟩ := mem_foldsFrom_tell trees hentry
        omega
      rw [toldBy_foldFrom tree h, hlater, List.append_nil]
    · rw [List.getElem?_append_right (by rw [length_flatten]; omega), length_flatten] at h
      have hfirst : toldBy (base + i) (tree.foldFrom NodeKind.tell base) = [] := by
        apply toldBy_eq_nil
        intro other trace hentry
        obtain ⟨-, hlt⟩ := mem_foldFrom_tell tree hentry
        omega
      have hlater := toldBy_foldsFrom trees h
      rw [show base + tree.size + (i - tree.size) = base + i by omega] at hlater
      rw [hfirst, List.nil_append, hlater]

end

theorem map_snd_foldsFrom {α : Type} {tree : α → Tree} {traces : α → List Trace}
    (h : ∀ a base, ((tree a).foldFrom NodeKind.tell base).map Prod.snd = traces a) (as : List α)
    (base : NodeId) :
    (foldsFrom NodeKind.tell base (as.map tree)).flatten.map Prod.snd = as.flatMap traces := by
  induction as generalizing base with
  | nil => rfl
  | cons a as ih =>
    rw [List.map_cons, foldsFrom, List.flatten_cons, List.map_append, h, ih, List.flatMap_cons]

theorem map_snd_foldFrom_node (kind : NodeKind) (children : List Tree) (base : NodeId) :
    ((node kind children).foldFrom NodeKind.tell base).map Prod.snd =
      kind.opening ++
        ((foldsFrom NodeKind.tell (base + 1) children).flatten.map Prod.snd ++ kind.closing) := by
  have hmap (traces : List Trace) : (traces.map (base, ·)).map Prod.snd = traces := by
    rw [List.map_map]
    exact List.map_id traces
  rw [foldFrom, NodeKind.tell, List.map_append, List.map_append, hmap, hmap]

theorem map_snd_foldFrom_statement (statement : Statement) (base : NodeId) :
    (statement.tree.foldFrom NodeKind.tell base).map Prod.snd = statement.traces := by
  cases statement with
  | declaration v =>
    rw [Statement.tree, map_snd_foldFrom_node]
    exact List.append_nil _
  | return_ returned =>
    rw [Statement.tree, map_snd_foldFrom_node]
    cases returned with
    | none => rfl
    | some r => cases r <;> rfl

theorem map_snd_foldFrom_item (item : Item) (base : NodeId) :
    (item.tree.foldFrom NodeKind.tell base).map Prod.snd = item.traces := by
  cases item with
  | declaration v =>
    rw [Item.tree, map_snd_foldFrom_node]
    exact List.append_nil _
  | function f body =>
    rw [Item.tree, map_snd_foldFrom_node, map_snd_foldsFrom map_snd_foldFrom_statement]
    rfl

theorem map_snd_foldFrom_program (items : List Item) (base : NodeId) :
    ((program items).foldFrom NodeKind.tell base).map Prod.snd = items.flatMap Item.traces := by
  rw [program, map_snd_foldFrom_node, map_snd_foldsFrom map_snd_foldFrom_item]
  exact List.append_nil _

end Tree

/-- A parse loses and invents nothing. Its tree tells the kinds of all tokens in their order, the
texts and values that it keeps are those of the tokens, and each token is told by one node, which
tells it once. -/
theorem exists_unparse?_of_parse {tokens : List Token} {arena : Arena}
    (h : parse tokens = .ok arena) :
    ∃ told, arena.unparse? = some told ∧
      told.map (fun entry => entry.2.kind) = tokens.map Token.kind ∧
      List.Forall₂ (fun entry token => entry.2.Of token) told tokens ∧
      (∀ entry ∈ told, entry.1 < arena.size) ∧
      ∀ id node, arena.get? id = some node →
        toldBy id told = node.kind.opening ++ node.kind.closing := by
  obtain ⟨items, htokens, rfl⟩ := parse_eq_ok_iff.1 h
  have htraces := Tree.map_snd_foldFrom_program items Arena.root
  rw [← htraces] at htokens
  refine ⟨_, Arena.foldAt?_ofTree NodeKind.tell (.program items), ?_, ?_, ?_, ?_⟩
  · rw [map_kind_of_forall₂ htokens, List.map_map]
    rfl
  · exact List.forall₂_map_left_iff.1 htokens
  · rintro ⟨id, trace⟩ hentry
    obtain ⟨-, hlt⟩ := Tree.mem_foldFrom_tell _ hentry
    rw [Arena.size_ofTree]
    rwa [Arena.root, Nat.zero_add] at hlt
  · intro id node hnode
    rw [Arena.get?, ← Array.getElem?_toList, Arena.toList_nodes_ofTree] at hnode
    have htold := Tree.toldBy_foldFrom _ hnode
    rwa [Arena.root, Nat.zero_add] at htold

/-- The tokens of `int f(byte a, uint b) { int c = 7u; return 07; }`. -/
def sampleTokens : List Token :=
  [⟨.typeKeyword, "int", 1, none, rfl⟩, ⟨.identifier, "f", 1, none, rfl⟩,
    ⟨.openParen, "(", 1, none, rfl⟩, ⟨.typeKeyword, "byte", 1, none, rfl⟩,
    ⟨.identifier, "a", 1, none, rfl⟩, ⟨.comma, ",", 1, none, rfl⟩,
    ⟨.typeKeyword, "uint", 1, none, rfl⟩, ⟨.identifier, "b", 1, none, rfl⟩,
    ⟨.closeParen, ")", 1, none, rfl⟩, ⟨.openBrace, "\x7b", 1, none, rfl⟩,
    ⟨.typeKeyword, "int", 2, none, rfl⟩, ⟨.identifier, "c", 2, none, rfl⟩,
    ⟨.assignment, "=", 2, none, rfl⟩, ⟨.unsignedLiteral, "7u", 2, some (.uint 7), by decide⟩,
    ⟨.semicolon, ";", 2, none, rfl⟩, ⟨.returnKeyword, "return", 3, none, rfl⟩,
    ⟨.integerLiteral, "07", 3, some (.int 7), by decide⟩, ⟨.semicolon, ";", 3, none, rfl⟩,
    ⟨.closeBrace, "\x7d", 4, none, rfl⟩]

/-- The tokens of `int f(byte a, uint b) { int c = 7u; return 07;` and of `return (c); } }`. -/
def strayTokens : List Token :=
  sampleTokens.take 18 ++
    [⟨.returnKeyword, "return", 4, none, rfl⟩, ⟨.openParen, "(", 5, none, rfl⟩,
      ⟨.identifier, "c", 5, none, rfl⟩, ⟨.closeParen, ")", 5, none, rfl⟩,
      ⟨.semicolon, ";", 5, none, rfl⟩, ⟨.closeBrace, "\x7d", 6, none, rfl⟩,
      ⟨.closeBrace, "\x7d", 7, none, rfl⟩]

/-- The tokens of `byte g(int xs, byte y) { uint zs = 0012u; return 8; }`. -/
def renamedTokens : List Token :=
  [⟨.typeKeyword, "byte", 2, none, rfl⟩, ⟨.identifier, "g", 2, none, rfl⟩,
    ⟨.openParen, "(", 2, none, rfl⟩, ⟨.typeKeyword, "int", 3, none, rfl⟩,
    ⟨.identifier, "xs", 3, none, rfl⟩, ⟨.comma, ",", 3, none, rfl⟩,
    ⟨.typeKeyword, "byte", 4, none, rfl⟩, ⟨.identifier, "y", 4, none, rfl⟩,
    ⟨.closeParen, ")", 4, none, rfl⟩, ⟨.openBrace, "\x7b", 4, none, rfl⟩,
    ⟨.typeKeyword, "uint", 4, none, rfl⟩, ⟨.identifier, "zs", 4, none, rfl⟩,
    ⟨.assignment, "=", 4, none, rfl⟩, ⟨.unsignedLiteral, "0012u", 4, some (.uint 12), by decide⟩,
    ⟨.semicolon, ";", 4, none, rfl⟩, ⟨.returnKeyword, "return", 4, none, rfl⟩,
    ⟨.integerLiteral, "8", 9, some (.int 8), by decide⟩, ⟨.semicolon, ";", 9, none, rfl⟩,
    ⟨.closeBrace, "\x7d", 9, none, rfl⟩]

/-- The tokens of a declaration whose texts need escapes. -/
def escapedTokens : List Token :=
  [⟨.typeKeyword, "\"\\", 1, none, rfl⟩, ⟨.identifier, "\x01\n\u00e9", 1, none, rfl⟩,
    ⟨.semicolon, ";", 2, none, rfl⟩]

theorem exists_unparse?_sampleTokens :
    ∃ arena, parse sampleTokens = .ok arena ∧
      ∃ told, arena.unparse? = some told ∧
        told.map (fun entry => entry.2.kind) = sampleTokens.map Token.kind ∧
        List.Forall₂ (fun entry token => entry.2.Of token) told sampleTokens ∧
        (∀ entry ∈ told, entry.1 < arena.size) ∧
        ∀ id node, arena.get? id = some node →
          toldBy id told = node.kind.opening ++ node.kind.closing := by
  have hparse : parse sampleTokens = .ok (.ofTree (.program
      [.function ⟨"int", "f", [⟨"byte", "a"⟩, ⟨"uint", "b"⟩]⟩
        [.declaration ⟨"int", "c", some "7u"⟩, .return_ (some (.int 7))]])) :=
    parse_eq_ok_iff.2 ⟨_, by decide, rfl⟩
  exact ⟨_, hparse, exists_unparse?_of_parse hparse⟩

end Declang
