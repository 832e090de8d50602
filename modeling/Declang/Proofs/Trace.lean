import Mathlib.Data.List.Forall2
import Declang.Token
import Declang.Proofs.Item
namespace Declang

/-- The kind of a literal that has this value. -/
def Literal.kind : Literal → TokenKind
  | int _ => .integerLiteral
  | uint _ => .unsignedLiteral

/-- What a node tells about one of the tokens it comes from. -/
inductive Trace where
  /-- Only the kind is known. -/
  | mark (kind : TokenKind)
  | text (kind : TokenKind) (text : String)
  /-- The text is gone, and the value of the literal is left. -/
  | value (literal : Literal)
  deriving DecidableEq, Repr

def Trace.kind : Trace → TokenKind
  | mark kind | text kind _ => kind
  | value literal => literal.kind

/-- The token has the kind, the text and the value that the trace tells. -/
def Trace.Of (trace : Trace) (token : Token) : Prop :=
  token.kind = trace.kind ∧
    match trace with
    | mark _ => True
    | text _ content => token.text = content
    | value literal => token.literal = some literal

instance (trace : Trace) (token : Token) : Decidable (trace.Of token) :=
  match trace with
  | .mark _ => inferInstanceAs (Decidable (_ ∧ True))
  | .text _ content => inferInstanceAs (Decidable (_ ∧ token.text = content))
  | .value literal => inferInstanceAs (Decidable (_ ∧ token.literal = some literal))

/-- The kind of a literal as it was written. -/
def defaultKind (text : String) : TokenKind :=
  if text.toList.getLast? = some 'u' then .unsignedLiteral else .integerLiteral

def Parameter.traces (parameter : Parameter) : List Trace :=
  [.text .typeKeyword parameter.typeName, .text .identifier parameter.name]

def laterTraces (later : List Parameter) : List Trace :=
  later.flatMap fun p => .mark .comma :: p.traces

def parameterTraces : List Parameter → List Trace
  | [] => []
  | first :: later => first.traces ++ laterTraces later

def Function.header (f : Function) : List Trace :=
  [.text .typeKeyword f.returnType, .text .identifier f.name, .mark .openParen]
    ++ (parameterTraces f.parameters ++ [.mark .closeParen, .mark .openBrace])

def Variable.traces (v : Variable) : List Trace :=
  [.text .typeKeyword v.typeName, .text .identifier v.name]
    ++ (v.defaultValue.elim [] (fun text => [.mark .assignment, .text (defaultKind text) text])
      ++ [.mark .semicolon])

/-- The tokens that a node of this kind accounts for before those of its children. -/
def NodeKind.opening : NodeKind → List Trace
  | program => []
  | function f => f.header
  | declaration v => v.traces
  | return_ => [.mark .returnKeyword]
  | int value => [.value (.int value)]
  | uint value => [.value (.uint value)]
  | identifier name => [.text .identifier name]

/-- The tokens that a node of this kind accounts for after those of its children. -/
def NodeKind.closing : NodeKind → List Trace
  | function _ => [.mark .closeBrace]
  | return_ => [.mark .semicolon]
  | _ => []

def Returned.trace : Returned → Trace
  | int value => .value (.int value)
  | uint value => .value (.uint value)
  | name content => .text .identifier content

theorem Returned.trace_ofLiteral (literal : Literal) :
    (ofLiteral literal).trace = .value literal := by
  cases literal <;> rfl

def Statement.traces : Statement → List Trace
  | declaration v => v.traces
  | return_ returned =>
    [.mark .returnKeyword] ++ (returned.elim [] (fun r => [r.trace]) ++ [.mark .semicolon])

def Item.traces : Item → List Trace
  | declaration v => v.traces
  | function f body => f.header ++ (body.flatMap Statement.traces ++ [.mark .closeBrace])

theorem forall₂_append_iff {α β : Type} {R : α → β → Prop} {as as' : List α} {bs : List β} :
    List.Forall₂ R (as ++ as') bs ↔
      ∃ front back, bs = front ++ back ∧ List.Forall₂ R as front ∧ List.Forall₂ R as' back := by
  constructor
  · intro h
    induction as generalizing bs with
    | nil => exact ⟨[], bs, rfl, .nil, h⟩
    | cons a as ih =>
      cases h with
      | cons hhead htail =>
        obtain ⟨front, back, rfl, hfront, hback⟩ := ih htail
        exact ⟨_ :: front, back, rfl, .cons hhead hfront, hback⟩
  · rintro ⟨front, back, rfl, hfront, hback⟩
    exact List.rel_append hfront hback

theorem map_kind_of_forall₂ {traces : List Trace} {tokens : List Token}
    (h : List.Forall₂ Trace.Of traces tokens) : tokens.map Token.kind = traces.map Trace.kind := by
  induction h with
  | nil => rfl
  | cons hhead _ ih => rw [List.map_cons, List.map_cons, hhead.1, ih]

end Declang
