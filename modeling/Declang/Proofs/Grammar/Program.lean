import Declang.Proofs.Literal
import Declang.Proofs.Trace
import Declang.Proofs.Grammar.Language
namespace Declang

open scoped Computability

namespace Grammar

/-- The word of one kind. -/
def token (kind : TokenKind) : Language TokenKind := {[kind]}

def literal : Language TokenKind :=
  token .integerLiteral + token .unsignedLiteral

def declaration : Language TokenKind :=
  token .typeKeyword * token .identifier * (1 + token .assignment * literal) * token .semicolon

def parameter : Language TokenKind :=
  token .typeKeyword * token .identifier

def parameters : Language TokenKind :=
  1 + parameter * (token .comma * parameter)∗

def header : Language TokenKind :=
  token .typeKeyword * token .identifier * token .openParen * parameters * token .closeParen
    * token .openBrace

def returnStatement : Language TokenKind :=
  token .returnKeyword * (1 + (literal + token .identifier)) * token .semicolon

def function : Language TokenKind :=
  header * (declaration + returnStatement)∗ * token .closeBrace

/-- The kinds of the tokens of a program. -/
def program : Language TokenKind :=
  (declaration + function)∗

end Grammar

/-- The tokens with a word of the language are those that the traces of some `a` tell of. -/
def Tells {α : Type} (language : Language TokenKind) (traces : α → List Trace) : Prop :=
  ∀ tokens : List Token,
    tokens.map Token.kind ∈ language ↔ ∃ a, List.Forall₂ Trace.Of (traces a) tokens

namespace Tells

theorem of_range {α β : Type} {language : Language TokenKind} {f : α → List Trace}
    {g : β → List Trace} (h : Tells language f) (hg : ∀ a, ∃ b, g b = f a)
    (hf : ∀ b, ∃ a, f a = g b) : Tells language g := by
  intro tokens
  rw [h tokens]
  constructor
  · rintro ⟨a, ha⟩
    obtain ⟨b, hb⟩ := hg a
    exact ⟨b, hb ▸ ha⟩
  · rintro ⟨b, hb⟩
    obtain ⟨a, ha⟩ := hf b
    exact ⟨a, ha ▸ hb⟩

theorem one : Tells 1 fun _ : Unit => [] := by
  intro tokens
  simp

theorem single {α : Type} {language : Language TokenKind} {p : TokenKind → Prop} {trace : α → Trace}
    (hlanguage : ∀ word, word ∈ language ↔ ∃ kind, p kind ∧ word = [kind])
    (hkind : ∀ a, p (trace a).kind)
    (h : ∀ token : Token, p token.kind → ∃ a, (trace a).Of token) :
    Tells language fun a => [trace a] := by
  intro tokens
  rw [hlanguage]
  constructor
  · rintro ⟨kind, hp, hword⟩
    obtain ⟨token, rfl, rfl⟩ := List.map_eq_singleton_iff.1 hword
    obtain ⟨a, ha⟩ := h token hp
    exact ⟨a, .cons ha .nil⟩
  · rintro ⟨a, ha⟩
    exact ⟨_, hkind a, map_kind_of_forall₂ ha⟩

theorem token {α : Type} {kind : TokenKind} {trace : α → Trace} (hkind : ∀ a, (trace a).kind = kind)
    (h : ∀ token : Token, token.kind = kind → ∃ a, (trace a).Of token) :
    Tells (Grammar.token kind) fun a => [trace a] := by
  apply @single _ _ (· = kind) _ _ hkind h
  intro word
  rw [exists_eq_left]
  rfl

theorem mark (kind : TokenKind) : Tells (Grammar.token kind) fun _ : Unit => [.mark kind] :=
  token (fun _ => rfl) fun _ hkind => ⟨(), hkind, trivial⟩

theorem text (kind : TokenKind) :
    Tells (Grammar.token kind) fun content : String => [.text kind content] :=
  token (fun _ => rfl) fun token hkind => ⟨token.text, hkind, rfl⟩

theorem add {α β : Type} {l m : Language TokenKind} {f : α → List Trace} {g : β → List Trace}
    (hl : Tells l f) (hm : Tells m g) : Tells (l + m) (Sum.elim f g) := by
  intro tokens
  rw [Language.mem_add, hl tokens, hm tokens, Sum.exists]
  rfl

theorem mul {α β : Type} {l m : Language TokenKind} {f : α → List Trace} {g : β → List Trace}
    (hl : Tells l f) (hm : Tells m g) : Tells (l * m) fun ab : α × β => f ab.1 ++ g ab.2 := by
  intro tokens
  rw [Language.mem_mul]
  constructor
  · rintro ⟨first, hfirst, second, hsecond, hkinds⟩
    obtain ⟨front, back, rfl, rfl, rfl⟩ := List.map_eq_append_iff.1 hkinds.symm
    obtain ⟨a, ha⟩ := (hl front).1 hfirst
    obtain ⟨b, hb⟩ := (hm back).1 hsecond
    exact ⟨(a, b), List.rel_append ha hb⟩
  · rintro ⟨⟨a, b⟩, h⟩
    obtain ⟨front, back, rfl, ha, hb⟩ := forall₂_append_iff.1 h
    exact ⟨_, (hl front).2 ⟨a, ha⟩, _, (hm back).2 ⟨b, hb⟩, List.map_append.symm⟩

theorem kstar {α : Type} {l : Language TokenKind} {f : α → List Trace} (h : Tells l f) :
    Tells l∗ fun as : List α => as.flatMap f := by
  intro tokens
  constructor
  · intro hword
    obtain ⟨words, hkinds, hwords⟩ := Language.mem_kstar.1 hword
    induction words generalizing tokens with
    | nil => exact ⟨[], by simpa using hkinds⟩
    | cons word words ih =>
      obtain ⟨hfirst, hlater⟩ := List.forall_mem_cons.1 hwords
      rw [List.flatten_cons] at hkinds
      obtain ⟨front, back, rfl, rfl, hback⟩ := List.map_eq_append_iff.1 hkinds
      obtain ⟨a, ha⟩ := (h front).1 hfirst
      obtain ⟨as, has⟩ := ih back (hback ▸ Language.join_mem_kstar hlater) hback hlater
      exact ⟨a :: as, List.rel_append ha has⟩
  · rintro ⟨as, has⟩
    induction as generalizing tokens with
    | nil =>
      cases has
      exact Language.nil_mem_kstar l
    | cons a as ih =>
      obtain ⟨front, back, rfl, ha, has⟩ := forall₂_append_iff.1 has
      rw [List.map_append, ← Language.one_add_self_mul_kstar_eq_kstar]
      exact .inr (Language.append_mem_mul ((h front).2 ⟨a, ha⟩) (ih back has))

end Tells

theorem Token.exists_literal {token : Token}
    (h : token.kind = .integerLiteral ∨ token.kind = .unsignedLiteral) :
    ∃ literal, token.kind = literal.kind ∧ token.literal = some literal := by
  have hdecoded := token.decoded
  rcases h with h | h
  · rw [h] at hdecoded
    obtain ⟨value, -, hvalue⟩ := except_map_eq_ok_iff.1 hdecoded
    exact ⟨.int value, h, hvalue.symm⟩
  · rw [h] at hdecoded
    obtain ⟨value, -, hvalue⟩ := except_map_eq_ok_iff.1 hdecoded
    exact ⟨.uint value, h, hvalue.symm⟩

theorem Token.kind_eq_defaultKind {token : Token}
    (h : token.kind = .integerLiteral ∨ token.kind = .unsignedLiteral) :
    token.kind = defaultKind token.text := by
  have hdecoded := token.decoded
  rcases h with h | h
  · rw [h] at hdecoded ⊢
    obtain ⟨value, hvalue, -⟩ := except_map_eq_ok_iff.1 hdecoded
    obtain ⟨⟨-, hdigits⟩, -⟩ := decodeSigned_eq_ok_iff.1 hvalue
    have hlast : token.text.toList.getLast? ≠ some 'u' := by
      intro hlast
      exact absurd (List.all_eq_true.1 hdigits 'u' (List.mem_of_getLast? hlast)) (by decide)
    rw [defaultKind, if_neg hlast]
  · rw [h] at hdecoded ⊢
    obtain ⟨value, hvalue, -⟩ := except_map_eq_ok_iff.1 hdecoded
    obtain ⟨digits, htext, -⟩ := decodeUnsigned_eq_ok_iff.1 hvalue
    rw [defaultKind, if_pos (by rw [htext, List.getLast?_concat])]

theorem defaultKind_eq (text : String) :
    defaultKind text = .integerLiteral ∨ defaultKind text = .unsignedLiteral := by
  unfold defaultKind
  split
  · exact .inr rfl
  · exact .inl rfl

theorem Grammar.mem_literal {word : List TokenKind} : word ∈ literal ↔
    ∃ kind, (kind = .integerLiteral ∨ kind = .unsignedLiteral) ∧ word = [kind] := by
  rw [literal, Language.mem_add]
  simp only [or_and_right, exists_or, exists_eq_left]
  rfl

theorem tells_default :
    Tells Grammar.literal fun text : String => [.text (defaultKind text) text] :=
  .single (fun _ => Grammar.mem_literal) defaultKind_eq fun token hkind =>
    ⟨token.text, token.kind_eq_defaultKind hkind, rfl⟩

theorem tells_returned :
    Tells (Grammar.literal + Grammar.token .identifier) fun r : Returned => [r.trace] := by
  apply @Tells.single _ _
    (fun kind => (kind = .integerLiteral ∨ kind = .unsignedLiteral) ∨ kind = .identifier)
  · intro word
    rw [Language.mem_add, Grammar.mem_literal]
    simp only [or_and_right, exists_or, exists_eq_left]
    rfl
  · intro r
    cases r <;> simp [Returned.trace, Trace.kind, Literal.kind]
  · intro token hkind
    rcases hkind with hkind | hkind
    · obtain ⟨literal, hliteral⟩ := token.exists_literal hkind
      exact ⟨.ofLiteral literal, Returned.trace_ofLiteral literal ▸ hliteral⟩
    · exact ⟨.name token.text, hkind, rfl⟩

theorem tells_declaration : Tells Grammar.declaration Variable.traces := by
  apply ((((Tells.text .typeKeyword).mul (.text .identifier)).mul
    (Tells.one.add ((Tells.mark .assignment).mul tells_default))).mul (.mark .semicolon)).of_range
  · rintro ⟨⟨⟨typeName, name⟩, _ | ⟨_, text⟩⟩, _⟩
    · exact ⟨⟨typeName, name, none⟩, rfl⟩
    · exact ⟨⟨typeName, name, some text⟩, rfl⟩
  · rintro ⟨typeName, name, _ | text⟩
    · exact ⟨(((typeName, name), .inl ()), ()), rfl⟩
    · exact ⟨(((typeName, name), .inr ((), text)), ()), rfl⟩

theorem tells_return : Tells Grammar.returnStatement fun r => (Statement.return_ r).traces := by
  apply (((Tells.mark .returnKeyword).mul (Tells.one.add tells_returned)).mul
    (.mark .semicolon)).of_range
  · rintro ⟨⟨_, _ | r⟩, _⟩
    · exact ⟨none, rfl⟩
    · exact ⟨some r, rfl⟩
  · rintro (_ | r)
    · exact ⟨(((), .inl ()), ()), rfl⟩
    · exact ⟨(((), .inr r), ()), rfl⟩

theorem tells_parameter : Tells Grammar.parameter Parameter.traces := by
  apply ((Tells.text .typeKeyword).mul (.text .identifier)).of_range
  · rintro ⟨typeName, name⟩
    exact ⟨⟨typeName, name⟩, rfl⟩
  · rintro ⟨typeName, name⟩
    exact ⟨(typeName, name), rfl⟩

theorem tells_parameters : Tells Grammar.parameters parameterTraces := by
  have hlater : Tells (Grammar.token .comma * Grammar.parameter) fun p : Parameter =>
      .mark .comma :: p.traces := by
    apply ((Tells.mark .comma).mul tells_parameter).of_range
    · rintro ⟨_, p⟩
      exact ⟨p, rfl⟩
    · intro p
      exact ⟨((), p), rfl⟩
  apply (Tells.one.add (tells_parameter.mul hlater.kstar)).of_range
  · rintro (_ | ⟨first, later⟩)
    · exact ⟨[], rfl⟩
    · exact ⟨first :: later, rfl⟩
  · rintro (_ | ⟨first, later⟩)
    · exact ⟨.inl (), rfl⟩
    · exact ⟨.inr (first, later), rfl⟩

theorem tells_header : Tells Grammar.header Function.header := by
  have htraces (returnType name : String) (parameters : List Parameter) :
      Function.header ⟨returnType, name, parameters⟩ =
        [.text .typeKeyword returnType] ++ [.text .identifier name] ++ [.mark .openParen]
          ++ parameterTraces parameters ++ [.mark .closeParen] ++ [.mark .openBrace] := by
    simp [Function.header]
  apply ((((((Tells.text .typeKeyword).mul (.text .identifier)).mul (.mark .openParen)).mul
    tells_parameters).mul (.mark .closeParen)).mul (.mark .openBrace)).of_range
  · rintro ⟨⟨⟨⟨⟨returnType, name⟩, _⟩, parameters⟩, _⟩, _⟩
    exact ⟨⟨returnType, name, parameters⟩, htraces ..⟩
  · rintro ⟨returnType, name, parameters⟩
    exact ⟨(((((returnType, name), ()), parameters), ()), ()), (htraces ..).symm⟩

theorem tells_statement :
    Tells (Grammar.declaration + Grammar.returnStatement) Statement.traces := by
  apply (tells_declaration.add tells_return).of_range
  · rintro (v | r)
    · exact ⟨.declaration v, rfl⟩
    · exact ⟨.return_ r, rfl⟩
  · rintro (v | r)
    · exact ⟨.inl v, rfl⟩
    · exact ⟨.inr r, rfl⟩

theorem tells_item : Tells (Grammar.declaration + Grammar.function) Item.traces := by
  have htraces (f : Function) (body : List Statement) : (Item.function f body).traces =
      f.header ++ body.flatMap Statement.traces ++ [.mark .closeBrace] := by
    rw [Item.traces, List.append_assoc]
  apply (tells_declaration.add
    ((tells_header.mul tells_statement.kstar).mul (.mark .closeBrace))).of_range
  · rintro (v | ⟨⟨f, body⟩, _⟩)
    · exact ⟨.declaration v, rfl⟩
    · exact ⟨.function f body, htraces ..⟩
  · rintro (v | ⟨f, body⟩)
    · exact ⟨.inl v, rfl⟩
    · exact ⟨.inr ((f, body), ()), (htraces ..).symm⟩

/-- The tokens with a word of the grammar are those of some list of declarations. -/
theorem tells_program : Tells Grammar.program fun items : List Item => items.flatMap Item.traces :=
  tells_item.kstar

end Declang
