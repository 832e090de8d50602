import Declang.Proofs.Grammar.Program
namespace Declang

open scoped Computability

/-- What a production was matched with. -/
inductive Clause where
  | header (f : Function)
  | declaration (v : Variable)
  | return_ (returned : Option Returned)
  | close
  deriving DecidableEq, Repr

namespace Clause

def production : Clause → Production
  | header _ => .functionDefinition
  | declaration _ => .variableDeclaration
  | return_ _ => .returnStatement
  | close => .closeBrace

def traces : Clause → List Trace
  | header f => f.header
  | declaration v => v.traces
  | return_ returned => (Statement.return_ returned).traces
  | close => [.mark .closeBrace]

end Clause

def Statement.clause : Statement → Clause
  | declaration v => .declaration v
  | return_ returned => .return_ returned

/-- The clauses that make up a declaration. -/
def Item.clauses : Item → List Clause
  | declaration v => [.declaration v]
  | function f body => .header f :: (body.map Statement.clause ++ [.close])

theorem Statement.traces_clause (statement : Statement) :
    statement.clause.traces = statement.traces := by
  cases statement <;> rfl

theorem Item.traces_clauses (item : Item) :
    item.clauses.flatMap Clause.traces = item.traces := by
  cases item with
  | declaration v => exact List.append_nil _
  | function f body =>
    rw [clauses, List.flatMap_cons, List.flatMap_append, List.flatMap_map]
    simp only [Statement.traces_clause]
    rfl

theorem Item.flatMap_clauses (items : List Item) :
    (items.flatMap clauses).flatMap Clause.traces = items.flatMap traces := by
  rw [List.flatMap_assoc]
  simp only [traces_clauses]

namespace Production

theorem mem_all (production : Production) : production ∈ all := by
  cases production <;> decide

theorem language_pattern (production : Production) :
    production.pattern.language =
      match production with
      | functionDefinition => Grammar.header
      | variableDeclaration => Grammar.declaration
      | returnStatement => Grammar.returnStatement
      | closeBrace => Grammar.token .closeBrace := by
  cases production <;>
    simp [pattern, Pattern.language, Element.language, Grammar.header, Grammar.parameters,
      Grammar.parameter, Grammar.declaration, Grammar.returnStatement, Grammar.literal,
      Grammar.token, mul_assoc, sup_assoc]

theorem exists_clause_iff {α : Type} {traces : α → List Trace} {clause : α → Clause}
    {production : Production}
    (hclause : ∀ a, (clause a).production = production ∧ (clause a).traces = traces a)
    (hall : ∀ c : Clause, c.production = production → ∃ a, clause a = c) (tokens : List Token) :
    (∃ a, List.Forall₂ Trace.Of (traces a) tokens) ↔
      ∃ c : Clause, c.production = production ∧ List.Forall₂ Trace.Of c.traces tokens := by
  constructor
  · rintro ⟨a, h⟩
    obtain ⟨hproduction, htraces⟩ := hclause a
    exact ⟨clause a, hproduction, htraces ▸ h⟩
  · rintro ⟨c, hproduction, h⟩
    obtain ⟨a, rfl⟩ := hall c hproduction
    exact ⟨a, (hclause a).2 ▸ h⟩

theorem mem_language_pattern (production : Production) (tokens : List Token) :
    tokens.map Token.kind ∈ production.pattern.language ↔
      ∃ clause : Clause, clause.production = production ∧
        List.Forall₂ Trace.Of clause.traces tokens := by
  rw [language_pattern]
  cases production with
  | functionDefinition =>
    rw [tells_header tokens]
    apply exists_clause_iff fun f => ⟨(rfl : (Clause.header f).production = _), rfl⟩
    rintro (f | _ | _ | _) hproduction <;> cases hproduction
    exact ⟨f, rfl⟩
  | variableDeclaration =>
    rw [tells_declaration tokens]
    apply exists_clause_iff fun v => ⟨(rfl : (Clause.declaration v).production = _), rfl⟩
    rintro (_ | v | _ | _) hproduction <;> cases hproduction
    exact ⟨v, rfl⟩
  | returnStatement =>
    rw [tells_return tokens]
    apply exists_clause_iff fun r => ⟨(rfl : (Clause.return_ r).production = _), rfl⟩
    rintro (_ | _ | r | _) hproduction <;> cases hproduction
    exact ⟨r, rfl⟩
  | closeBrace =>
    rw [Tells.mark .closeBrace tokens]
    apply exists_clause_iff fun _ => ⟨(rfl : Clause.close.production = _), rfl⟩
    rintro (_ | _ | _ | _) hproduction <;> cases hproduction
    exact ⟨(), rfl⟩

end Production

namespace Pattern

theorem take?_cons_append {element : Element} {pattern : Pattern} {word rest : List TokenKind}
    (h : element.take? (word ++ rest) = some word.length) :
    take? (element :: pattern) (word ++ rest) = (take? pattern rest).map (word.length + ·) := by
  rw [take?, h]
  simp only [List.drop_left]

theorem take?_one_cons (kind : TokenKind) (pattern : Pattern) (kinds : List TokenKind) :
    take? (.one kind :: pattern) (kind :: kinds) = (take? pattern kinds).map (1 + ·) := by
  apply @take?_cons_append _ _ [kind]
  simp [Element.take?]

theorem take?_optional_append {body pattern : Pattern} {word rest : List TokenKind}
    (h : take? body (word ++ rest) = some word.length) :
    take? (.optional body :: pattern) (word ++ rest) =
      (take? pattern rest).map (word.length + ·) := by
  apply take?_cons_append
  rw [Element.take?, h]
  rfl

theorem take?_repeated_append {body pattern : Pattern} {word rest : List TokenKind}
    (h : greedy (fun kinds => take? body kinds) (word ++ rest) = word.length) :
    take? (.repeated body :: pattern) (word ++ rest) =
      (take? pattern rest).map (word.length + ·) := by
  apply take?_cons_append
  rw [Element.take?, h]

end Pattern

theorem length_laterTraces (later : List Parameter) :
    (laterTraces later).length = 3 * later.length := by
  induction later with
  | nil => rfl
  | cons p later ih =>
    rw [laterTraces, List.flatMap_cons, List.length_append, ← laterTraces, ih, List.length_cons,
      Parameter.traces]
    simp only [List.length_cons, List.length_nil]
    omega

theorem greedy_append {step : List TokenKind → Option Nat} {word rest : List TokenKind}
    (h : step (word ++ rest) = some word.length) (hne : word ≠ []) :
    greedy step (word ++ rest) = word.length + greedy step rest := by
  obtain ⟨kind, word, rfl⟩ := List.exists_cons_of_ne_nil hne
  have hlong : ¬((kind :: word) ++ rest).length ≤ word.length := by
    rw [List.length_append, List.length_cons]
    omega
  rw [greedy, h, List.length_cons]
  simp only [if_neg hlong]
  rw [← List.length_cons (a := kind), List.drop_left]

/-- A parameter list is taken up to its last parameter and not beyond. -/
theorem greedy_laterTraces (later : List Parameter) (rest : List TokenKind) :
    greedy (fun kinds => Pattern.take? [.one .comma, .one .typeKeyword, .one .identifier] kinds)
      ((laterTraces later).map Trace.kind ++ .closeParen :: rest) =
        ((laterTraces later).map Trace.kind).length := by
  induction later with
  | nil =>
    rw [greedy]
    simp [laterTraces, Pattern.take?, Element.take?]
  | cons p later ih =>
    have hblock : ((laterTraces (p :: later)).map Trace.kind) =
        [.comma, .typeKeyword, .identifier] ++ (laterTraces later).map Trace.kind := rfl
    rw [hblock, List.append_assoc, greedy_append, ih, List.length_append]
    · simp [Pattern.take?, Element.take?]
    · exact List.cons_ne_nil _ _

theorem take?_header (f : Function) (rest : List TokenKind) :
    Production.functionDefinition.pattern.take? (f.header.map Trace.kind ++ rest) =
      some f.header.length := by
  obtain ⟨returnType, name, parameters⟩ := f
  cases parameters with
  | nil =>
    simp [Production.pattern, Function.header, parameterTraces, Pattern.take?, Element.take?,
      Trace.kind]
  | cons first later =>
    have hkinds : (parameterTraces (first :: later)).map Trace.kind =
        .typeKeyword :: .identifier :: (laterTraces later).map Trace.kind := rfl
    have hlist : Pattern.take? [.one .typeKeyword, .one .identifier,
        .repeated [.one .comma, .one .typeKeyword, .one .identifier]]
        ((parameterTraces (first :: later)).map Trace.kind ++ (.closeParen :: .openBrace :: rest)) =
          some ((parameterTraces (first :: later)).map Trace.kind).length := by
      rw [hkinds, List.cons_append, List.cons_append, Pattern.take?_one_cons,
        Pattern.take?_one_cons, Pattern.take?_repeated_append (greedy_laterTraces ..),
        Pattern.take?]
      simp [Nat.add_comm]
    have hheader : (Function.header ⟨returnType, name, first :: later⟩).map Trace.kind ++ rest =
        .typeKeyword :: .identifier :: .openParen ::
          ((parameterTraces (first :: later)).map Trace.kind
            ++ (.closeParen :: .openBrace :: rest)) := by
      simp [Function.header, Trace.kind]
    rw [hheader, Production.pattern, Pattern.take?_one_cons, Pattern.take?_one_cons,
      Pattern.take?_one_cons, Pattern.take?_optional_append hlist, Pattern.take?_one_cons,
      Pattern.take?_one_cons, Pattern.take?]
    simp [Function.header]
    omega

theorem take?_declaration (v : Variable) (rest : List TokenKind) :
    Production.variableDeclaration.pattern.take? (v.traces.map Trace.kind ++ rest) =
      some v.traces.length := by
  obtain ⟨typeName, name, _ | text⟩ := v
  · simp [Production.pattern, Variable.traces, Pattern.take?, Element.take?, Trace.kind]
  · rcases defaultKind_eq text with h | h <;>
      simp [Production.pattern, Variable.traces, Pattern.take?, Element.take?, Trace.kind, h]

theorem take?_return (returned : Option Returned) (rest : List TokenKind) :
    Production.returnStatement.pattern.take?
      ((Statement.return_ returned).traces.map Trace.kind ++ rest) =
        some (Statement.return_ returned).traces.length := by
  rcases returned with _ | (_ | _ | _) <;>
    simp [Production.pattern, Statement.traces, Returned.trace, Pattern.take?, Element.take?,
      Trace.kind, Literal.kind]

theorem findSome?_of_unique {α β : Type} {f : α → Option β} {as : List α} {a : α} {b : β}
    (hmem : a ∈ as) (ha : f a = some b) (hother : ∀ x ∈ as, x ≠ a → f x = none) :
    as.findSome? f = some b := by
  induction as with
  | nil => cases hmem
  | cons x as ih =>
    obtain ⟨hfirst, hlater⟩ := List.forall_mem_cons.1 hother
    rw [List.findSome?_cons]
    by_cases hx : x = a
    · rw [hx, ha]
    · rw [hfirst hx]
      exact ih ((List.mem_cons.1 hmem).resolve_left (Ne.symm hx)) hlater

namespace Clause

theorem take?_eq (clause : Clause) (rest : List TokenKind) :
    clause.production.pattern.take? (clause.traces.map Trace.kind ++ rest) =
      some clause.traces.length := by
  cases clause with
  | header f => exact take?_header f rest
  | declaration v => exact take?_declaration v rest
  | return_ returned => exact take?_return returned rest
  | close => simp [production, traces, Production.pattern, Pattern.take?, Element.take?, Trace.kind]

/-- No two productions take the same tokens. -/
theorem take?_other {clause : Clause} {other : Production} (hother : other ≠ clause.production)
    (rest : List TokenKind) :
    other.pattern.take? (clause.traces.map Trace.kind ++ rest) = none := by
  cases clause with
  | header f =>
    cases other <;>
      simp_all [production, traces, Function.header, Production.pattern, Pattern.take?,
        Element.take?, Trace.kind]
  | declaration v =>
    obtain ⟨typeName, name, _ | text⟩ := v <;> cases other <;>
      simp_all [production, traces, Variable.traces, Production.pattern, Pattern.take?,
        Element.take?, Trace.kind]
  | return_ returned =>
    cases other <;>
      simp_all [production, traces, Statement.traces, Production.pattern, Pattern.take?,
        Element.take?, Trace.kind]
  | close =>
    cases other <;>
      simp_all [production, traces, Production.pattern, Pattern.take?, Element.take?, Trace.kind]

theorem length_traces_pos (clause : Clause) : 0 < clause.traces.length := by
  cases clause <;>
    simp [traces, Function.header, Variable.traces, Statement.traces]

theorem find?_eq {clause : Clause} {location : Location}
    (hlegal : clause.production.legalAt location = true) (rest : List TokenKind) :
    Production.find? location (clause.traces.map Trace.kind ++ rest) =
      some (clause.production, clause.traces.length) := by
  obtain ⟨n, hn⟩ := Nat.exists_eq_succ_of_ne_zero (Nat.ne_of_gt clause.length_traces_pos)
  apply findSome?_of_unique (a := clause.production)
  · exact List.mem_filter.2 ⟨clause.production.mem_all, hlegal⟩
  · rw [take?_eq, hn]
  · intro other _ hother
    rw [take?_other hother]

end Clause

theorem Production.take?_of_find? {location : Location} {kinds : List TokenKind}
    {production : Production} {n : Nat} (h : find? location kinds = some (production, n)) :
    production.legalAt location = true ∧ production.pattern.take? kinds = some n := by
  obtain ⟨found, hmem, hfound⟩ := List.exists_of_findSome?_eq_some h
  obtain ⟨-, hlegal⟩ := List.mem_filter.1 hmem
  split at hfound
  case h_1 => cases hfound
  case h_2 => cases hfound
  next n htake =>
  cases hfound
  exact ⟨hlegal, htake⟩

theorem Production.exists_clause_of_find? {location : Location} {tokens : List Token}
    {production : Production} {n : Nat}
    (h : find? location (tokens.map Token.kind) = some (production, n)) :
    ∃ clause : Clause, clause.production = production ∧
      List.Forall₂ Trace.Of clause.traces (tokens.take n) ∧
      production.legalAt location = true := by
  obtain ⟨hlegal, htake⟩ := take?_of_find? h
  obtain ⟨-, hword⟩ := Pattern.take?_sound htake
  rw [← List.map_take] at hword
  obtain ⟨clause, hproduction, htokens⟩ := (mem_language_pattern _ _).1 hword
  exact ⟨clause, hproduction, htokens, hlegal⟩

end Declang
