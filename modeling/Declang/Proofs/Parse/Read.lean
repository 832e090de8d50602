import Declang.Parse.Build
import Declang.Proofs.Lexeme
import Declang.Proofs.Parse.Clause
namespace Declang

theorem exists_token_of_trace {traces : List Trace} {tokens : List Token}
    (h : List.Forall₂ Trace.Of traces tokens) {offset : Nat} {trace : Trace}
    (htrace : traces[offset]? = some trace) :
    ∃ token, tokens[offset]? = some token ∧ trace.Of token := by
  obtain ⟨hlt, rfl⟩ := List.getElem?_eq_some_iff.1 htrace
  have hlt' : offset < tokens.length := h.length_eq ▸ hlt
  exact ⟨tokens[offset], List.getElem?_eq_getElem hlt', List.Forall₂.get h hlt hlt'⟩

theorem expectKind_of_getElem? {tokens : List Token} {offset : Nat} {token : Token}
    {kind : TokenKind} (htoken : tokens[offset]? = some token) (hkind : token.kind = kind)
    (production : Production) : expectKind production tokens offset kind = .ok token := by
  rw [expectKind, htoken]
  simp only
  rw [if_pos hkind]

theorem expectKind_eq_ok {traces : List Trace} {tokens : List Token}
    (h : List.Forall₂ Trace.Of traces tokens) {offset : Nat} {trace : Trace}
    (htrace : traces[offset]? = some trace) (production : Production) :
    ∃ token, expectKind production tokens offset trace.kind = .ok token ∧ trace.Of token := by
  obtain ⟨token, htoken, hof⟩ := exists_token_of_trace h htrace
  exact ⟨token, expectKind_of_getElem? htoken hof.1 production, hof⟩

theorem getElem?_laterTraces {parameters : List Parameter} {i : Nat} {p : Parameter}
    (h : parameters[i]? = some p) (tail : List Trace) :
    (laterTraces parameters ++ tail)[3 * i]? = some (.mark .comma) ∧
      (laterTraces parameters ++ tail)[3 * i + 1]? = some (.text .typeKeyword p.typeName) ∧
      (laterTraces parameters ++ tail)[3 * i + 2]? = some (.text .identifier p.name) := by
  induction parameters generalizing i with
  | nil => cases h
  | cons first later ih =>
    have hblock : laterTraces (first :: later) ++ tail =
        .mark .comma :: .text .typeKeyword first.typeName :: .text .identifier first.name
          :: (laterTraces later ++ tail) := rfl
    cases i with
    | zero =>
      cases h
      exact ⟨rfl, rfl, rfl⟩
    | succ i =>
      rw [hblock]
      exact ih h

/-- The first parameter stands where a comma and the others would. -/
theorem getElem?_header {f : Function} (h : f.parameters ≠ []) {m : Nat} (hm : 0 < m) :
    f.header[m + 2]? = (laterTraces f.parameters ++ [.mark .closeParen, .mark .openBrace])[m]? := by
  obtain ⟨first, later, hparameters⟩ := List.exists_cons_of_ne_nil h
  obtain ⟨m, rfl⟩ := Nat.exists_eq_succ_of_ne_zero (Nat.ne_of_gt hm)
  rw [Function.header, hparameters]
  rfl

theorem readParameter_of_getElem? {tokens : List Token} {i : Nat} {typeName name : Token}
    (htype : tokens[3 * i + 3]? = some typeName) (htypeKind : typeName.kind = .typeKeyword)
    (hname : tokens[3 * i + 4]? = some name) (hnameKind : name.kind = .identifier)
    (hcomma : 0 < i → ∃ comma, tokens[3 * i + 2]? = some comma ∧ comma.kind = .comma) :
    readParameter tokens i = .ok ⟨typeName.text, name.text⟩ := by
  have hread : (expectKind .functionDefinition tokens (3 * i + 3) .typeKeyword >>= fun typeName =>
      expectKind .functionDefinition tokens (3 * i + 4) .identifier >>= fun name =>
        pure (Parameter.mk typeName.text name.text)) = .ok ⟨typeName.text, name.text⟩ := by
    refine except_bind_eq_ok_iff.2 ⟨typeName, expectKind_of_getElem? htype htypeKind _, ?_⟩
    exact except_bind_eq_ok_iff.2 ⟨name, expectKind_of_getElem? hname hnameKind _, rfl⟩
  rw [readParameter]
  by_cases hi : 0 < i
  · obtain ⟨comma, hcomma, hcommaKind⟩ := hcomma hi
    have hexpect := expectKind_of_getElem? hcomma hcommaKind .functionDefinition
    rw [if_pos hi]
    exact except_bind_eq_ok_iff.2 ⟨(), except_map_eq_ok_iff.2 ⟨comma, hexpect, rfl⟩, hread⟩
  · rw [if_neg hi]
    exact hread

theorem readParameter_eq_ok {f : Function} {tokens : List Token}
    (h : List.Forall₂ Trace.Of f.header tokens) {i : Nat} {p : Parameter}
    (hp : f.parameters[i]? = some p) : readParameter tokens i = .ok p := by
  have hne : f.parameters ≠ [] := fun hnil => by simp [hnil] at hp
  obtain ⟨hcomma, htype, hname⟩ :=
    getElem?_laterTraces hp [.mark .closeParen, .mark .openBrace]
  rw [← getElem?_header hne (by omega)] at htype hname
  obtain ⟨typeToken, htype, htypeKind, htypeText⟩ := exists_token_of_trace h htype
  obtain ⟨nameToken, hname, hnameKind, hnameText⟩ := exists_token_of_trace h hname
  rw [readParameter_of_getElem? htype htypeKind hname hnameKind, htypeText, hnameText]
  intro hi
  rw [← getElem?_header hne (by omega)] at hcomma
  obtain ⟨comma, hcomma, hcommaKind, -⟩ := exists_token_of_trace h hcomma
  exact ⟨comma, hcomma, hcommaKind⟩

theorem mapM_range'_eq_ok {ε α : Type} {f : Nat → Except ε α} {as : List α} {start : Nat}
    (h : ∀ {i a}, as[i]? = some a → f (start + i) = .ok a) :
    (List.range' start as.length).mapM f = .ok as := by
  induction as generalizing start with
  | nil => rfl
  | cons a as ih =>
    have hfirst : f start = .ok a := @h 0 a rfl
    have hlater : (List.range' (start + 1) as.length).mapM f = .ok as :=
      ih fun {i b} hb => by
        rw [Nat.add_assoc, Nat.add_comm 1 i]
        exact @h (i + 1) b hb
    rw [List.length_cons, List.range'_succ, List.mapM_cons, hfirst, hlater]
    rfl

theorem parameterCount_header (f : Function) :
    parameterCount f.header.length = .ok f.parameters.length := by
  obtain ⟨returnType, name, _ | ⟨first, later⟩⟩ := f
  · rfl
  · have hlength : (Function.header ⟨returnType, name, first :: later⟩).length =
        3 * later.length + 7 := by
      simp [Function.header, parameterTraces, Parameter.traces, length_laterTraces]
    rw [hlength, parameterCount, if_neg (by omega), if_pos (by omega), Nat.add_sub_cancel,
      Nat.mul_div_cancel_left _ (by omega)]
    rfl

theorem readFunction_eq_ok {f : Function} {tokens : List Token}
    (h : List.Forall₂ Trace.Of f.header tokens) : readFunction tokens = .ok f := by
  obtain ⟨returnToken, hreturn, -, hreturnText⟩ :=
    @expectKind_eq_ok _ _ h 0 (.text .typeKeyword f.returnType) rfl .functionDefinition
  obtain ⟨nameToken, hname, -, hnameText⟩ :=
    @expectKind_eq_ok _ _ h 1 (.text .identifier f.name) rfl .functionDefinition
  have hparameters : (List.range f.parameters.length).mapM (readParameter tokens) =
      .ok f.parameters := by
    rw [List.range_eq_range']
    apply mapM_range'_eq_ok
    intro i p hp
    rw [Nat.zero_add]
    exact readParameter_eq_ok h hp
  have hcount : parameterCount tokens.length = .ok f.parameters.length := by
    rw [← h.length_eq, parameterCount_header]
  rw [readFunction]
  refine except_bind_eq_ok_iff.2 ⟨_, hcount, except_bind_eq_ok_iff.2 ⟨_, hreturn, ?_⟩⟩
  refine except_bind_eq_ok_iff.2 ⟨_, hname, except_bind_eq_ok_iff.2 ⟨_, hparameters, ?_⟩⟩
  rw [hreturnText, hnameText]
  rfl

theorem readVariable_eq_ok {v : Variable} {tokens : List Token}
    (h : List.Forall₂ Trace.Of v.traces tokens) : readVariable tokens = .ok v := by
  obtain ⟨typeToken, htype, -, htypeText⟩ :=
    @expectKind_eq_ok _ _ h 0 (.text .typeKeyword v.typeName) rfl .variableDeclaration
  obtain ⟨nameToken, hname, -, hnameText⟩ :=
    @expectKind_eq_ok _ _ h 1 (.text .identifier v.name) rfl .variableDeclaration
  have hdefault : readDefault tokens = .ok v.defaultValue := by
    obtain ⟨typeName, name, _ | text⟩ := v
    · obtain ⟨semicolon, hsemicolon, -⟩ :=
        @expectKind_eq_ok _ _ h 2 (.mark .semicolon) rfl .variableDeclaration
      rw [readDefault, ← h.length_eq]
      exact except_bind_eq_ok_iff.2 ⟨(), except_map_eq_ok_iff.2 ⟨_, hsemicolon, rfl⟩, rfl⟩
    · obtain ⟨assignment, hassignment, -⟩ :=
        @expectKind_eq_ok _ _ h 2 (.mark .assignment) rfl .variableDeclaration
      obtain ⟨semicolon, hsemicolon, -⟩ :=
        @expectKind_eq_ok _ _ h 4 (.mark .semicolon) rfl .variableDeclaration
      rw [readDefault, ← h.length_eq]
      refine except_bind_eq_ok_iff.2 ⟨(), except_map_eq_ok_iff.2 ⟨_, hassignment, rfl⟩, ?_⟩
      refine except_bind_eq_ok_iff.2 ⟨(), except_map_eq_ok_iff.2 ⟨_, hsemicolon, rfl⟩, ?_⟩
      obtain ⟨literal, hliteral, hkind, hcontent⟩ :=
        @exists_token_of_trace _ _ h 3 (.text (defaultKind text) text) rfl
      have hisLiteral : literal.kind.isLiteral = true := by
        rw [hkind]
        exact TokenKind.isLiteral_iff.2 (defaultKind_eq text).symm
      rw [hliteral, Option.filter_some, if_pos hisLiteral, ← hcontent]
      rfl
  rw [readVariable]
  refine except_bind_eq_ok_iff.2 ⟨_, hdefault, except_bind_eq_ok_iff.2 ⟨_, htype, ?_⟩⟩
  refine except_bind_eq_ok_iff.2 ⟨_, hname, ?_⟩
  rw [htypeText, hnameText]
  rfl

theorem readValue_eq_ok {r : Returned} {token : Token} (h : r.trace.Of token) :
    readValue token = .ok r.kind := by
  obtain ⟨hkind, hcontent⟩ := h
  cases r with
  | int value => simp_all [readValue, Returned.trace, Trace.kind, Literal.kind, Returned.kind]
  | uint value => simp_all [readValue, Returned.trace, Trace.kind, Literal.kind, Returned.kind]
  | name text => simp_all [readValue, Returned.trace, Trace.kind, Returned.kind]

theorem readReturned_eq_ok {returned : Option Returned} {tokens : List Token}
    (h : List.Forall₂ Trace.Of (Statement.return_ returned).traces tokens) :
    readReturned tokens = .ok (returned.map Returned.kind) := by
  cases returned with
  | none =>
    obtain _ | ⟨_, _ | ⟨_, _ | _⟩⟩ := h
    rfl
  | some r =>
    obtain _ | ⟨_, _ | ⟨hvalue, _ | ⟨_, _ | _⟩⟩⟩ := h
    rw [readReturned, readValue_eq_ok hvalue]
    rfl

end Declang
