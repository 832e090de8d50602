import Declang.Proofs.Parse.Unparse
namespace Declang

/-- A node without what it carries: its variant, its parent and its children. -/
def Node.form (node : Node) : String × Option NodeId × List NodeId :=
  (node.kind.typeName, node.parent, node.children)

/-- Two arenas that differ at most in what their nodes carry. -/
structure Arena.Alike (arena other : Arena) : Prop where
  size : arena.size = other.size
  form (id : NodeId) : (arena.get? id).map Node.form = (other.get? id).map Node.form

theorem Arena.Alike.grow {arena other : Arena} (h : arena.Alike other) (parent : NodeId)
    {kind kind' : NodeKind} (hkind : kind.typeName = kind'.typeName) :
    (arena.grow parent kind).Alike (other.grow parent kind') := by
  have hlist (later : List NodeId) (node : Option Node) :
      (node.map fun node => { node with children := node.children ++ later }).map Node.form =
        (node.map Node.form).map fun (type, parent, children) =>
          (type, parent, children ++ later) := by
    cases node <;> rfl
  constructor
  · rw [size_grow, size_grow, h.size]
  · intro id
    rw [get?_grow, get?_grow, hlist, hlist, ← h.size]
    congr 1
    split_ifs
    · rw [Option.map_some, Option.map_some, Node.form, Node.form, hkind]
    · exact h.form id

/-- Two clauses that tell of tokens of the same kinds. -/
structure Clause.Alike (clause other : Clause) : Prop where
  production : clause.production = other.production
  kinds : clause.traces.map Trace.kind = other.traces.map Trace.kind

theorem Clause.exists_alike {clause : Clause} {used used' : List Token}
    (h : List.Forall₂ Trace.Of clause.traces used)
    (hkinds : used.map Token.kind = used'.map Token.kind) :
    ∃ clause' : Clause, clause.Alike clause' ∧ List.Forall₂ Trace.Of clause'.traces used' := by
  have hword := (Production.mem_language_pattern clause.production used).2 ⟨clause, rfl, h⟩
  rw [hkinds] at hword
  obtain ⟨clause', hproduction, h'⟩ := (Production.mem_language_pattern _ used').1 hword
  refine ⟨clause', ⟨hproduction.symm, ?_⟩, h'⟩
  rw [← map_kind_of_forall₂ h, hkinds, map_kind_of_forall₂ h']

theorem Returned.typeName_kind {r r' : Returned} (h : r.trace.kind = r'.trace.kind) :
    r.kind.typeName = r'.kind.typeName := by
  cases r <;> cases r' <;> first | rfl | cases h

/-- The arena with the nodes of a clause at the cursor. -/
def Clause.grow (clause : Clause) (cursor : NodeId) (arena : Arena) : Arena :=
  match clause with
  | header f => arena.grow cursor (.function f)
  | declaration v => arena.grow cursor (.declaration v)
  | return_ none => arena.grow cursor .return_
  | return_ (some r) => (arena.grow cursor .return_).grow arena.size r.kind
  | close => arena

/-- Where a parse stands after a step, with the size that its arena had before. -/
def Production.move (production : Production) (size : Nat) (position : Position) : Position :=
  match production with
  | functionDefinition => position.enter .function size
  | closeBrace => .start
  | variableDeclaration | returnStatement => position

theorem Clause.Alike.grow {clause other : Clause} (h : clause.Alike other) {arena arena' : Arena}
    (harena : arena.Alike arena') (cursor : NodeId) :
    (clause.grow cursor arena).Alike (other.grow cursor arena') := by
  obtain ⟨hproduction, hkinds⟩ := h
  cases clause with
  | header f =>
    cases other <;> cases hproduction
    exact harena.grow cursor rfl
  | declaration v =>
    cases other <;> cases hproduction
    exact harena.grow cursor rfl
  | close =>
    cases other <;> cases hproduction
    exact harena
  | return_ returned =>
    cases other <;> cases hproduction
    next returned' =>
    have hreturn : (arena.grow cursor .return_).Alike (arena'.grow cursor .return_) :=
      harena.grow cursor rfl
    match returned, returned' with
    | none, none => exact hreturn
    | none, some r' =>
      exact absurd (congrArg List.length hkinds) (by simp [traces, Statement.traces])
    | some r, none =>
      exact absurd (congrArg List.length hkinds) (by simp [traces, Statement.traces])
    | some r, some r' =>
      have hkind : r.trace.kind = r'.trace.kind := (List.cons.inj (List.cons.inj hkinds).2).1
      rw [Clause.grow, Clause.grow, ← harena.size]
      exact hreturn.grow arena.size (Returned.typeName_kind hkind)

namespace Progress

theorem arena_next? {p p' : Progress} {clause : Clause} (h : p.next? clause = some p') :
    p'.arena = clause.grow p.position.cursor p.arena := by
  cases p with
  | top done =>
    cases clause <;> cases h
    · exact arena_inside_nil ..
    · exact arena_top_declaration ..
  | inside done f body =>
    cases clause with
    | header => cases h
    | declaration v =>
      cases h
      exact arena_inside_declaration ..
    | return_ returned =>
      cases h
      cases returned with
      | none => exact arena_inside_return ..
      | some r => exact arena_inside_returned ..
    | close =>
      cases h
      rfl

theorem position_next? {p p' : Progress} {clause : Clause} (h : p.next? clause = some p') :
    p'.position = clause.production.move p.arena.size p.position := by
  cases p with
  | top done =>
    cases clause <;> cases h
    · rw [size_top]
      rfl
    · rfl
  | inside done f body => cases clause <;> cases h <;> rfl

/-- Two parses that stand at the same place of arenas that are alike. -/
structure Alike (p q : Progress) : Prop where
  position : p.position = q.position
  arena : p.arena.Alike q.arena

/-- Clauses of the same kinds carry on two such parses alike: what the tokens hold decides neither
whether a step is taken nor where a node goes. -/
theorem Alike.next {p q p' : Progress} (h : p.Alike q) {clause other : Clause}
    (hclause : clause.Alike other) (hnext : p.next? clause = some p') :
    ∃ q', q.next? other = some q' ∧ p'.Alike q' := by
  have hlegal := (p.exists_next?_iff clause).1 ⟨p', hnext⟩
  rw [hclause.production, h.position] at hlegal
  obtain ⟨q', hnext'⟩ := (q.exists_next?_iff other).2 hlegal
  refine ⟨q', hnext', ?_, ?_⟩
  · rw [position_next? hnext, position_next? hnext', hclause.production, h.arena.size, h.position]
  · rw [arena_next? hnext, arena_next? hnext', ← h.position]
    exact hclause.grow h.arena p.position.cursor

theorem Alike.advance {p q p' : Progress} (h : p.Alike q) {clauses : List Clause}
    (hadvance : p.advance? clauses = some p') {used used' : List Token}
    (hused : List.Forall₂ Trace.Of (clauses.flatMap Clause.traces) used)
    (hkinds : used.map Token.kind = used'.map Token.kind) :
    ∃ clauses' q', q.advance? clauses' = some q' ∧
      List.Forall₂ Trace.Of (clauses'.flatMap Clause.traces) used' ∧ p'.Alike q' := by
  induction clauses generalizing p q used used' with
  | nil =>
    cases hadvance
    cases hused
    cases List.map_eq_nil_iff.1 hkinds.symm
    exact ⟨[], q, rfl, .nil, h⟩
  | cons clause clauses ih =>
    rw [advance?_cons] at hadvance
    obtain ⟨next, hnext, hlater⟩ := Option.bind_eq_some_iff.1 hadvance
    obtain ⟨front, back, rfl, hfront, hback⟩ := forall₂_append_iff.1 hused
    rw [List.map_append] at hkinds
    obtain ⟨front', back', rfl, hfront', hback'⟩ := List.map_eq_append_iff.1 hkinds.symm
    obtain ⟨clause', hclause, hfront'⟩ := Clause.exists_alike hfront hfront'.symm
    obtain ⟨next', hnext', halike⟩ := h.next hclause hnext
    obtain ⟨clauses', q', hlater', hback', hend⟩ := ih halike hlater hback hback'.symm
    refine ⟨clause' :: clauses', q', ?_, List.rel_append hfront' hback', hend⟩
    rw [advance?_cons, hnext', Option.bind_some, hlater']

end Progress

/-- Two parses, of `a` and of `b`, that end alike: with programs that are alike, at the same token
of their lists and with the same words about it, or in functions that stay open. -/
inductive EndAlike (a b : List Token) :
    Except ParseError Arena → Except ParseError Arena → Prop where
  | program {arena other : Arena} (alike : arena.Alike other) :
    EndAlike a b (.ok arena) (.ok other)
  | mismatch {i : Nat} {first first' : Token} (location : Location) (found : String)
    (at_a : a[i]? = some first) (at_b : b[i]? = some first') :
    EndAlike a b (.error (.noMatch location first.line found))
      (.error (.noMatch location first'.line found))
  | unterminated (location : Location) (depth : Nat) :
    EndAlike a b (.error (.unterminated location depth)) (.error (.unterminated location depth))

theorem EndAlike.error_eq {a b : List Token} {result other : Except ParseError Arena}
    (h : EndAlike a b result other) (hlines : a.map Token.line = b.map Token.line)
    {error : ParseError} (herror : result = .error error) : other = .error error := by
  cases h with
  | program => cases herror
  | unterminated => exact herror
  | @mismatch i first first' location found ha hb =>
    have hline : some first.line = some first'.line := by
      have hat := congrArg (·[i]?) hlines
      simpa only [List.getElem?_map, ha, hb, Option.map_some] using hat
    rw [← Option.some.inj hline]
    exact herror

/-- What a mismatch says about the kinds that follow. -/
def ParseError.shown (kinds : List TokenKind) : String :=
  " ".intercalate ((kinds.take shownKinds).map TokenKind.name
    ++ if shownKinds < kinds.length then ["..."] else [])

theorem ParseError.mismatch_cons (location : Location) (first : Token) (later : List Token) :
    mismatch location (first :: later) =
      .noMatch location first.line (shown ((first :: later).map Token.kind)) := by
  rw [shown, List.length_map, ← List.map_take, List.map_map]
  rfl

theorem Progress.Alike.verdict {p q : Progress} (h : p.Alike q) {used used' rest rest' : List Token}
    (hused : used.map Token.kind = used'.map Token.kind)
    (hrest : rest.map Token.kind = rest'.map Token.kind) :
    EndAlike (used ++ rest) (used' ++ rest') (p.verdict rest) (q.verdict rest') := by
  match rest, rest' with
  | [], [] =>
    match p, q with
    | top done, top done' => exact .program h.arena
    | inside .., inside .. => exact .unterminated .function 1
    | top .., inside .. => exact absurd (congrArg Position.entered h.position) nofun
    | inside .., top .. => exact absurd (congrArg Position.entered h.position) nofun
  | [], _ :: _ => cases hrest
  | _ :: _, [] => cases hrest
  | first :: later, first' :: later' =>
    have hindex : used.length = used'.length := by
      simpa only [List.length_map] using congrArg List.length hused
    rw [Progress.verdict, Progress.verdict, if_neg (List.cons_ne_nil _ _),
      if_neg (List.cons_ne_nil _ _), ParseError.mismatch_cons, ParseError.mismatch_cons, hrest,
      h.position]
    apply @EndAlike.mismatch _ _ used.length
    · rw [List.getElem?_append_right (Nat.le_refl _), Nat.sub_self, List.getElem?_cons_zero]
    · rw [hindex, List.getElem?_append_right (Nat.le_refl _), Nat.sub_self,
        List.getElem?_cons_zero]

theorem Trace.Of.congr {trace : Trace} {token other : Token} (h : trace.Of token)
    (hkind : token.kind = other.kind) (htext : token.text = other.text) : trace.Of other := by
  have hliteral : token.literal = other.literal := by
    have hdecoded := token.decoded
    rw [hkind, htext, other.decoded] at hdecoded
    exact (Except.ok.inj hdecoded).symm
  cases trace with
  | mark kind => exact ⟨hkind ▸ h.1, trivial⟩
  | text kind content => exact ⟨hkind ▸ h.1, htext ▸ h.2⟩
  | value literal => exact ⟨hkind ▸ h.1, hliteral ▸ h.2⟩

theorem forall₂_of_congr {traces : List Trace} {a b : List Token}
    (h : List.Forall₂ Trace.Of traces a) (hkinds : a.map Token.kind = b.map Token.kind)
    (htexts : a.map Token.text = b.map Token.text) : List.Forall₂ Trace.Of traces b := by
  induction h generalizing b with
  | nil =>
    cases List.map_eq_nil_iff.1 hkinds.symm
    exact .nil
  | cons hfirst _ ih =>
    cases b with
    | nil => cases hkinds
    | cons other b =>
      obtain ⟨hkind, hkinds⟩ := List.cons.inj hkinds
      obtain ⟨htext, htexts⟩ := List.cons.inj htexts
      exact .cons (hfirst.congr hkind htext) (ih hkinds htexts)

/-- A parse sees nothing of its tokens but their kinds. Texts and values only reach what the nodes
carry, and lines only reach the line of an error. -/
theorem endAlike_parse {a b : List Token} (h : a.map Token.kind = b.map Token.kind) :
    EndAlike a b (parse a) (parse b) ∧
      (a.map Token.text = b.map Token.text →
        ∀ arena, parse a = .ok arena → parse b = .ok arena) ∧
      (a.map Token.line = b.map Token.line →
        ∀ error, parse a = .error error → parse b = .error error) := by
  have halike : EndAlike a b (parse a) (parse b) := by
    obtain ⟨clauses, p, used, rest, rfl, hadvance, hused, hstop⟩ :=
      (Progress.top []).exists_stop a
    rw [List.map_append] at h
    obtain ⟨used', rest', rfl, hused', hrest⟩ := List.map_eq_append_iff.1 h.symm
    obtain ⟨clauses', q, hadvance', hused'', hpq⟩ :=
      Progress.Alike.advance ⟨rfl, rfl, fun _ => rfl⟩ hadvance hused hused'.symm
    have hstop' : Production.find? q.position.location (rest'.map Token.kind) = none := by
      rw [hrest, ← hpq.position, hstop]
    rw [parse_eq_verdict (Progress.consume_clauses hadvance hused rest) hstop,
      parse_eq_verdict (Progress.consume_clauses hadvance' hused'' rest') hstop']
    exact hpq.verdict hused'.symm hrest.symm
  refine ⟨halike, ?_, ?_⟩
  · intro htexts arena hparse
    obtain ⟨items, hitems, rfl⟩ := parse_eq_ok_iff.1 hparse
    exact parse_eq_ok_iff.2 ⟨items, forall₂_of_congr hitems h htexts, rfl⟩
  · intro hlines error hparse
    exact halike.error_eq hlines hparse

theorem endAlike_parse_samples :
    EndAlike sampleTokens renamedTokens (parse sampleTokens) (parse renamedTokens) ∧
      (∀ arena, parse sampleTokens = .ok arena →
        parse (sampleTokens.map fun token => { token with line := token.line + 7 }) = .ok arena) ∧
      ∀ error, parse [⟨.identifier, "a", 3, none, rfl⟩] = .error error →
        parse [⟨.identifier, "b", 3, none, rfl⟩] = .error error :=
  ⟨(endAlike_parse (by decide)).1, (endAlike_parse (by decide)).2.1 (by decide),
    (endAlike_parse (by decide)).2.2 (by decide)⟩

end Declang
