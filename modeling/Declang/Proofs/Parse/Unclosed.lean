import Declang.Proofs.Parse.Canonical
import Declang.Proofs.Parse.Mismatch
namespace Declang

theorem Viable.exists_clauses {tokens : List Token} (h : Viable tokens) :
    ∃ clauses p, (Progress.top []).advance? clauses = some p ∧
      List.Forall₂ Trace.Of (clauses.flatMap Clause.traces) tokens ∧ parse tokens = p.result := by
  obtain ⟨clauses, p, used, rest, rfl, hadvance, hused, hstop⟩ :=
    (Progress.top []).exists_stop tokens
  have hverdict := parse_eq_verdict (Progress.consume_clauses hadvance hused rest) hstop
  cases h.eq_nil_of_verdict hverdict
  rw [List.append_nil] at hverdict ⊢
  exact ⟨clauses, p, hadvance, hused, hverdict⟩

theorem forall₂_concat {traces : List Trace} {trace : Trace} {tokens : List Token} {token : Token}
    (h : List.Forall₂ Trace.Of (traces ++ [trace]) (tokens ++ [token])) :
    List.Forall₂ Trace.Of traces tokens ∧ trace.Of token := by
  obtain ⟨front, back, heq, hfront, hback⟩ := forall₂_append_iff.1 h
  cases hback with
  | cons hlast hnil =>
    cases hnil
    obtain ⟨rfl, hsame⟩ := List.append_inj' heq rfl
    cases hsame
    exact ⟨hfront, hlast⟩

namespace Clause

/-- The kind of the last token of a clause. -/
def ending : Clause → TokenKind
  | header _ => .openBrace
  | declaration _ | return_ _ => .semicolon
  | close => .closeBrace

theorem exists_traces_eq (clause : Clause) :
    ∃ front, clause.traces = front ++ [.mark clause.ending] := by
  cases clause with
  | header f =>
    exact ⟨[.text .typeKeyword f.returnType, .text .identifier f.name, .mark .openParen]
      ++ (parameterTraces f.parameters ++ [.mark .closeParen]),
      by simp [traces, Function.header, ending]⟩
  | declaration v =>
    exact ⟨[.text .typeKeyword v.typeName, .text .identifier v.name]
      ++ v.defaultValue.elim [] (fun text => [.mark .assignment, .text (defaultKind text) text]),
      by simp [traces, Variable.traces, ending]⟩
  | return_ returned =>
    exact ⟨[.mark .returnKeyword] ++ returned.elim [] (fun r => [r.trace]),
      by simp [traces, Statement.traces, ending]⟩
  | close => exact ⟨[], rfl⟩

theorem eq_close {clause : Clause} (h : clause.ending = .closeBrace) : clause = .close := by
  cases clause with
  | close => rfl
  | header f => cases h
  | declaration v => cases h
  | return_ returned => cases h

end Clause

namespace Progress

variable {clauses : List Clause} {items : List Item}

theorem exists_inside_of_close (h : (top []).advance? (clauses ++ [.close]) = some (top items)) :
    ∃ done f body, (top []).advance? clauses = some (inside done f body) := by
  rw [advance?_append] at h
  obtain ⟨p, hp, hclose⟩ := Option.bind_eq_some_iff.1 h
  cases p with
  | top done => cases hclose
  | inside done f body => exact ⟨done, f, body, hp⟩

theorem advance?_close {done : List Item} {f : Function} {body : List Statement}
    (h : (top []).advance? clauses = some (inside done f body)) :
    (top []).advance? (clauses ++ [.close]) = some (top (done ++ [.function f body])) := by
  rw [advance?_append, h]
  rfl

end Progress

section Brace

variable {tokens : List Token} {brace : Token}

theorem parse_close_of_unterminated (hbrace : brace.kind = .closeBrace) {location : Location}
    {depth : Nat} (h : parse tokens = .error (.unterminated location depth)) :
    ∃ arena, parse (tokens ++ [brace]) = .ok arena := by
  obtain ⟨clauses, p, hadvance, htokens, hresult⟩ := Viable.exists_clauses (.inr ⟨_, _, h⟩)
  rw [h] at hresult
  cases p with
  | top items => cases hresult
  | inside done f body =>
    have hclosed : List.Forall₂ Trace.Of ((clauses ++ [Clause.close]).flatMap Clause.traces)
        (tokens ++ [brace]) := by
      rw [List.flatMap_append]
      exact List.rel_append htokens (.cons ⟨hbrace, trivial⟩ .nil)
    exact ⟨_, Progress.parse_clauses (Progress.advance?_close hadvance) hclosed⟩

theorem parse_unterminated_of_close (hbrace : brace.kind = .closeBrace) {arena : Arena}
    (h : parse (tokens ++ [brace]) = .ok arena) :
    ∃ location depth, parse tokens = .error (.unterminated location depth) := by
  obtain ⟨clauses, p, hadvance, htokens, hresult⟩ := Viable.exists_clauses (.inl ⟨_, h⟩)
  rw [h] at hresult
  cases p with
  | inside done f body => cases hresult
  | top items =>
    rcases List.eq_nil_or_concat' clauses with rfl | ⟨before, clause, rfl⟩
    · have hlength := htokens.length_eq
      simp at hlength
    · -- The last clause ends in the brace, so it is the one that closes a function.
      obtain ⟨front, hfront⟩ := clause.exists_traces_eq
      rw [List.flatMap_append, List.flatMap_singleton, hfront, ← List.append_assoc] at htokens
      obtain ⟨hbefore, hlast⟩ := forall₂_concat htokens
      cases Clause.eq_close (hlast.1.symm.trans hbrace)
      cases front with
      | cons trace front => simp [Clause.traces] at hfront
      | nil =>
        rw [List.append_nil] at hbefore
        obtain ⟨done, f, body, hinside⟩ := Progress.exists_inside_of_close hadvance
        exact ⟨_, _, Progress.parse_clauses hinside hbefore⟩

/-- The tokens of a program end in an open function exactly when one closing brace more makes them a
program, so a program without its last closing brace always ends in an open function. -/
theorem parse_unterminated_iff_append_brace (hbrace : brace.kind = .closeBrace) :
    (∀ tokens, (∃ location depth, parse tokens = .error (.unterminated location depth)) ↔
      ∃ arena, parse (tokens ++ [brace]) = .ok arena) ∧
    ∀ program arena, parse program = .ok arena → program.getLast? = some brace →
      ∃ location depth, parse program.dropLast = .error (.unterminated location depth) := by
  constructor
  · intro tokens
    constructor
    · rintro ⟨location, depth, h⟩
      exact parse_close_of_unterminated hbrace h
    · rintro ⟨arena, h⟩
      exact parse_unterminated_of_close hbrace h
  · intro program arena h hlast
    obtain ⟨tokens, rfl⟩ := List.getLast?_eq_some_iff.1 hlast
    rw [List.dropLast_concat]
    exact parse_unterminated_of_close hbrace h

end Brace

theorem parse_unterminated_sampleTokens :
    (sampleTokens.drop 18).map Token.kind = [.closeBrace] ∧
    (∀ tokens, (∃ location depth, parse tokens = .error (.unterminated location depth)) ↔
      ∃ arena, parse (tokens ++ sampleTokens.drop 18) = .ok arena) ∧
    (∃ arena, parse sampleTokens = .ok arena) ∧
    ∃ location depth, parse sampleTokens.dropLast = .error (.unterminated location depth) := by
  have hbrace := @parse_unterminated_iff_append_brace ⟨.closeBrace, "\x7d", 4, none, rfl⟩ rfl
  exact ⟨rfl, hbrace.1, ⟨_, parse_sampleTokens⟩, hbrace.2 _ _ parse_sampleTokens rfl⟩

end Declang
