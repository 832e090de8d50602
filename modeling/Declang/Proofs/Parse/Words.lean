import Declang.Proofs.Lexeme.Layout
import Declang.Proofs.Parse.Unparse
namespace Declang

/-- A text of word characters, at least one. -/
def IsWord (text : String) : Prop :=
  text.toList ≠ [] ∧ text.toList.all isWordChar = true
  deriving Decidable

/-- A word ends where the word characters end. -/
theorem IsWord.append_inj {word other : String} {rest more : List Char} (h : IsWord word)
    (hother : IsWord other) (hrest : rest.head?.any isWordChar = false)
    (hmore : more.head?.any isWordChar = false)
    (heq : word.toList ++ rest = other.toList ++ more) : word = other ∧ rest = more := by
  obtain ⟨hword, htail⟩ := run_inj h.2 hrest hother.2 hmore heq
  exact ⟨String.toList_inj.1 hword, htail⟩

def Parameter.Worded (p : Parameter) : Prop :=
  IsWord p.typeName ∧ IsWord p.name

/-- All texts of the payload are words. -/
def NodeKind.Worded : NodeKind → Prop
  | function f => IsWord f.returnType ∧ IsWord f.name ∧ ∀ p ∈ f.parameters, p.Worded
  | declaration v => IsWord v.typeName ∧ IsWord v.name ∧ ∀ text ∈ v.defaultValue, IsWord text
  | identifier name => IsWord name
  | _ => True

/-- The text that a trace tells of a word is one. -/
def Trace.Worded : Trace → Prop
  | text kind content => kind.isWord = true → IsWord content
  | _ => True

theorem Lexeme.Valid.isWord {lexeme : Lexeme} (h : lexeme.Valid)
    (hword : lexeme.kind.isWord = true) : IsWord lexeme.text := by
  obtain ⟨hhead, hall⟩ := h.admits.word hword
  refine ⟨?_, hall⟩
  intro hnil
  rw [hnil] at hhead
  cases hhead

theorem Trace.Of.worded {trace : Trace} {token : Token} (h : trace.Of token)
    (hvalid : token.lexeme.Valid) : trace.Worded := by
  cases trace with
  | text kind content =>
    obtain ⟨rfl, rfl⟩ : token.kind = kind ∧ token.text = content := h
    exact hvalid.isWord
  | mark | value => trivial

theorem isWord_defaultKind (text : String) : (defaultKind text).isWord = true := by
  unfold defaultKind
  split <;> rfl

theorem mem_parameterTraces {parameters : List Parameter} {p : Parameter} {trace : Trace}
    (hp : p ∈ parameters) (htrace : trace ∈ p.traces) : trace ∈ parameterTraces parameters := by
  cases parameters with
  | nil => cases hp
  | cons first later =>
    rcases List.mem_cons.1 hp with rfl | hp
    · exact List.mem_append_left _ htrace
    · exact List.mem_append_right _
        (List.mem_flatMap.2 ⟨p, hp, List.mem_cons_of_mem _ htrace⟩)

theorem NodeKind.worded_of_opening {kind : NodeKind}
    (h : ∀ trace ∈ kind.opening, trace.Worded) : kind.Worded := by
  cases kind with
  | function f =>
    have hparameter {p : Parameter} (hp : p ∈ f.parameters) {trace : Trace}
        (htrace : trace ∈ p.traces) : trace.Worded :=
      h trace (List.mem_append_right _ (List.mem_append_left _ (mem_parameterTraces hp htrace)))
    refine ⟨h (.text .typeKeyword f.returnType) (by simp [opening, Function.header]) rfl,
      h (.text .identifier f.name) (by simp [opening, Function.header]) rfl, fun p hp => ?_⟩
    have htype : .text .typeKeyword p.typeName ∈ p.traces := List.mem_cons_self
    have hname : .text .identifier p.name ∈ p.traces := List.mem_cons_of_mem _ List.mem_cons_self
    exact ⟨hparameter hp htype rfl, hparameter hp hname rfl⟩
  | declaration v =>
    refine ⟨h (.text .typeKeyword v.typeName) (by simp [opening, Variable.traces]) rfl,
      h (.text .identifier v.name) (by simp [opening, Variable.traces]) rfl, fun text htext => ?_⟩
    exact h (.text (defaultKind text) text)
      (by simp [opening, Variable.traces, Option.mem_def.1 htext]) (isWord_defaultKind text)
  | identifier name => exact h (.text .identifier name) (by simp [opening]) rfl
  | program | return_ | int | uint => trivial

namespace Tree

mutual

/-- The kinds of all nodes in depth-first pre-order. -/
def kinds : Tree → List NodeKind
  | node kind children => kind :: allKinds children

def allKinds : List Tree → List NodeKind
  | [] => []
  | tree :: trees => tree.kinds ++ allKinds trees

end

mutual

theorem map_kind_flatten (parent : Option NodeId) (base : NodeId) (tree : Tree) :
    (tree.flatten parent base).map Node.kind = tree.kinds := by
  cases tree with
  | node kind children => rw [flatten, kinds, List.map_cons, map_kind_flattens]

theorem map_kind_flattens (parent base : NodeId) (trees : List Tree) :
    (flattens parent base trees).map Node.kind = allKinds trees := by
  cases trees with
  | nil => rfl
  | cons tree trees =>
    rw [flattens, allKinds, List.map_append, map_kind_flatten, map_kind_flattens]

end

mutual

theorem mem_told {kind : NodeKind} {trace : Trace} (base : NodeId) (tree : Tree)
    (hkind : kind ∈ tree.kinds) (htrace : trace ∈ kind.opening) :
    trace ∈ (tree.foldFrom NodeKind.tell base).map Prod.snd := by
  cases tree with
  | node top children =>
    rw [map_snd_foldFrom_node, List.mem_append, List.mem_append]
    rcases List.mem_cons.1 hkind with rfl | hkind
    · exact .inl htrace
    · exact .inr (.inl (mem_told_all _ children hkind htrace))

theorem mem_told_all {kind : NodeKind} {trace : Trace} (base : NodeId) (trees : List Tree)
    (hkind : kind ∈ allKinds trees) (htrace : trace ∈ kind.opening) :
    trace ∈ (foldsFrom NodeKind.tell base trees).flatten.map Prod.snd := by
  cases trees with
  | nil => cases hkind
  | cons tree trees =>
    rw [foldsFrom, List.flatten_cons, List.map_append, List.mem_append]
    rcases List.mem_append.1 hkind with hkind | hkind
    · exact .inl (mem_told _ tree hkind htrace)
    · exact .inr (mem_told_all _ trees hkind htrace)

end

end Tree

theorem lexeme_valid_of_lex {source : String} {tokens : List Token} (h : lex source = .ok tokens) :
    ∀ token ∈ tokens, token.lexeme.Valid := by
  rw [lex_eq_lexText] at h
  obtain ⟨_, _, -, -, -, hvalid, -⟩ := (Laid.of_lexText h).exists_spaced
  exact hvalid

theorem exists_tokens_of_process {source : String} {arena : Arena}
    (h : process source = .ok arena) :
    ∃ tokens, lex source = .ok tokens ∧ parse tokens = .ok arena := by
  rw [process] at h
  cases hlex : lex source with
  | error e =>
    rw [hlex] at h
    cases h
  | ok tokens =>
    rw [hlex] at h
    refine ⟨tokens, rfl, ?_⟩
    cases hparse : parse tokens with
    | error e =>
      simp only [hparse] at h
      cases h
    | ok parsed =>
      simp only [hparse] at h
      cases h
      rfl

theorem exists_worded_of_process {source : String} {arena : Arena}
    (h : process source = .ok arena) :
    ∃ items : List Item, arena = .ofTree (.program items) ∧
      ∀ kind ∈ (Tree.program items).kinds, kind.Worded := by
  obtain ⟨tokens, hlex, hparse⟩ := exists_tokens_of_process h
  have hvalid := lexeme_valid_of_lex hlex
  obtain ⟨items, htokens, rfl⟩ := parse_eq_ok_iff.1 hparse
  refine ⟨items, rfl, fun kind hkind => NodeKind.worded_of_opening fun trace htrace => ?_⟩
  have htold := Tree.mem_told 0 _ hkind htrace
  rw [Tree.map_snd_foldFrom_program] at htold
  obtain ⟨i, hi, rfl⟩ := List.getElem_of_mem htold
  have hi' : i < tokens.length := htokens.length_eq ▸ hi
  exact ((List.forall₂_iff_get.1 htokens).2 i hi hi').worded (hvalid _ (List.getElem_mem hi'))

end Declang
