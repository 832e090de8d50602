import Declang.Proofs.Parse.Progress
namespace Declang

theorem consume_nil (position : Position) (arena : Arena) :
    consume [] position arena = (.ok position, arena) := by
  rw [consume, if_pos rfl]
  rfl

theorem consume_of_find?_none {tokens : List Token} {position : Position} (hne : tokens ≠ [])
    (h : Production.find? position.location (tokens.map Token.kind) = none) (arena : Arena) :
    consume tokens position arena = (.error (.mismatch position.location tokens), arena) := by
  have hconsume : consume tokens position = throw (.mismatch position.location tokens) := by
    rw [consume, if_neg hne]
    split
    · rfl
    · next hfind =>
      rw [h] at hfind
      cases hfind
  rw [hconsume]
  rfl

theorem consume_of_find?_some {tokens : List Token} {position position' : Position}
    {production : Production} {n : Nat} {arena arena' : Arena} (hne : tokens ≠ [])
    (h : Production.find? position.location (tokens.map Token.kind) = some (production, n))
    (hbuild : build production (tokens.take n) position arena = (.ok position', arena')) :
    consume tokens position arena = consume (tokens.drop n) position' arena' := by
  have hconsume : consume tokens position =
      build production (tokens.take n) position >>= consume (tokens.drop n) := by
    rw [consume, if_neg hne]
    split
    · next hfind =>
      rw [h] at hfind
      cases hfind
    · next hfind =>
      rw [h] at hfind
      cases hfind
      rfl
  rw [hconsume]
  exact Builder.bind_eq _ hbuild

namespace Progress

variable {p p' : Progress} {clause : Clause}

theorem find?_of_next? (hnext : p.next? clause = some p') {used : List Token}
    (h : List.Forall₂ Trace.Of clause.traces used) (rest : List Token) :
    Production.find? p.position.location ((used ++ rest).map Token.kind) =
      some (clause.production, used.length) := by
  have hlegal := (p.exists_next?_iff clause).1 ⟨p', hnext⟩
  rw [List.map_append, map_kind_of_forall₂ h, clause.find?_eq hlegal, h.length_eq]

theorem consume_clause (hnext : p.next? clause = some p') {used : List Token}
    (h : List.Forall₂ Trace.Of clause.traces used) (rest : List Token) :
    consume (used ++ rest) p.position p.arena = consume rest p'.position p'.arena := by
  have hfind := find?_of_next? hnext h rest
  have hne : used ++ rest ≠ [] := by
    have hpos := clause.length_traces_pos
    rw [h.length_eq] at hpos
    exact List.append_ne_nil_of_left_ne_nil (List.length_pos_iff.1 hpos) rest
  have hbuild := build_eq_ok hnext h
  rw [← @List.take_left _ used rest] at hbuild
  rw [consume_of_find?_some hne hfind hbuild, List.drop_left]

/-- How clauses carry on one after another. -/
def advance? (p : Progress) (clauses : List Clause) : Option Progress :=
  clauses.foldlM next? p

theorem advance?_nil (p : Progress) : p.advance? [] = some p :=
  rfl

theorem advance?_cons (p : Progress) (clause : Clause) (clauses : List Clause) :
    p.advance? (clause :: clauses) = (p.next? clause).bind (advance? · clauses) := by
  rw [advance?, List.foldlM_cons]
  rfl

theorem advance?_append (p : Progress) (clauses more : List Clause) :
    p.advance? (clauses ++ more) = (p.advance? clauses).bind (advance? · more) := by
  rw [advance?, List.foldlM_append]
  rfl

theorem traces_advance? {clauses : List Clause} (h : p.advance? clauses = some p') :
    p'.traces = p.traces ++ clauses.flatMap Clause.traces := by
  induction clauses generalizing p with
  | nil =>
    cases h
    exact (List.append_nil _).symm
  | cons clause clauses ih =>
    rw [advance?_cons] at h
    obtain ⟨next, hnext, hlater⟩ := Option.bind_eq_some_iff.1 h
    rw [ih hlater, traces_next? hnext, List.append_assoc, List.flatMap_cons]

theorem consume_clauses {clauses : List Clause} (hadvance : p.advance? clauses = some p')
    {used : List Token} (h : List.Forall₂ Trace.Of (clauses.flatMap Clause.traces) used)
    (rest : List Token) :
    consume (used ++ rest) p.position p.arena = consume rest p'.position p'.arena := by
  induction clauses generalizing p used with
  | nil =>
    cases hadvance
    cases h
    rfl
  | cons clause clauses ih =>
    rw [advance?_cons] at hadvance
    obtain ⟨next, hnext, hlater⟩ := Option.bind_eq_some_iff.1 hadvance
    obtain ⟨front, back, rfl, hfront, hback⟩ := forall₂_append_iff.1 h
    rw [List.append_assoc, consume_clause hnext hfront, ih hlater hback]

/-- The tokens are those of clauses that may stand one after another, up to a point where no
production is found. -/
theorem exists_stop (p : Progress) (tokens : List Token) :
    ∃ (clauses : List Clause) (p' : Progress) (used rest : List Token),
      tokens = used ++ rest ∧ p.advance? clauses = some p' ∧
      List.Forall₂ Trace.Of (clauses.flatMap Clause.traces) used ∧
      Production.find? p'.position.location (rest.map Token.kind) = none := by
  induction hlength : tokens.length using Nat.strong_induction_on generalizing p tokens with
  | _ length ih =>
    cases hfind : Production.find? p.position.location (tokens.map Token.kind) with
    | none => exact ⟨[], p, [], tokens, rfl, rfl, .nil, hfind⟩
    | some found =>
      obtain ⟨production, n⟩ := found
      obtain ⟨clause, rfl, hclause, hlegal⟩ := Production.exists_clause_of_find? hfind
      obtain ⟨next, hnext⟩ := (p.exists_next?_iff clause).2 hlegal
      have hshorter : (tokens.drop n).length < length := by
        have hpos := clause.length_traces_pos
        rw [hclause.length_eq, List.length_take] at hpos
        rw [List.length_drop]
        omega
      obtain ⟨clauses, p', used, rest, htokens, hadvance, hused, hstop⟩ :=
        ih _ hshorter next (tokens.drop n) rfl
      refine ⟨clause :: clauses, p', tokens.take n ++ used, rest, ?_, ?_,
        List.rel_append hclause hused, hstop⟩
      · rw [List.append_assoc, ← htokens, List.take_append_drop]
      · rw [advance?_cons, hnext, Option.bind_some, hadvance]

theorem advance?_body (done : List Item) (f : Function) (before body : List Statement) :
    (inside done f before).advance? (body.map Statement.clause) =
      some (inside done f (before ++ body)) := by
  induction body generalizing before with
  | nil => rw [List.append_nil, List.map_nil, advance?_nil]
  | cons statement body ih =>
    have hnext : (inside done f before).next? statement.clause =
        some (inside done f (before ++ [statement])) := by
      cases statement <;> rfl
    rw [List.map_cons, advance?_cons, hnext, Option.bind_some, ih, List.append_assoc]
    rfl

theorem advance?_item (done : List Item) (item : Item) :
    (top done).advance? item.clauses = some (top (done ++ [item])) := by
  cases item with
  | declaration v => rfl
  | function f body =>
    have hheader : (top done).next? (.header f) = some (inside done f []) := rfl
    rw [Item.clauses, advance?_cons, hheader, Option.bind_some, advance?_append, advance?_body]
    rfl

theorem advance?_items (done items : List Item) :
    (top done).advance? (items.flatMap Item.clauses) = some (top (done ++ items)) := by
  induction items generalizing done with
  | nil => rw [List.append_nil, List.flatMap_nil, advance?_nil]
  | cons item items ih =>
    rw [List.flatMap_cons, advance?_append, advance?_item, Option.bind_some, ih, List.append_assoc]
    rfl

end Progress

theorem parse_of_consume {tokens : List Token} {items : List Item}
    (h : consume tokens .start .empty =
      (.ok (Progress.top items).position, (Progress.top items).arena)) :
    parse tokens = .ok (.ofTree (.program items)) := by
  have hvalid : (Progress.top items).arena.validate = .ok () :=
    (Progress.top items).linked.validate_eq_ok
  rw [parse, h]
  simp only [hvalid]
  rfl

def Progress.result : Progress → Except ParseError Arena
  | top items => .ok (.ofTree (.program items))
  | inside .. => .error (.unterminated .function 1)

/-- What a parse says that stops at this point with `rest` left. -/
def Progress.verdict (p : Progress) (rest : List Token) : Except ParseError Arena :=
  if rest = [] then p.result else .error (.mismatch p.position.location rest)

theorem parse_eq_verdict {tokens rest : List Token} {p : Progress}
    (hrun : consume tokens .start .empty = consume rest p.position p.arena)
    (hstop : Production.find? p.position.location (rest.map Token.kind) = none) :
    parse tokens = p.verdict rest := by
  by_cases hrest : rest = []
  · subst hrest
    rw [consume_nil] at hrun
    cases p with
    | top items => exact parse_of_consume hrun
    | inside done f body =>
      rw [parse, hrun]
      rfl
  · rw [Progress.verdict, if_neg hrest, parse, hrun, consume_of_find?_none hrest hstop]

/-- A parse succeeds exactly on the tokens of a list of declarations, with the tree of that list. -/
theorem parse_eq_ok_iff {tokens : List Token} {arena : Arena} :
    parse tokens = .ok arena ↔
      ∃ items : List Item, List.Forall₂ Trace.Of (items.flatMap Item.traces) tokens ∧
        arena = .ofTree (.program items) := by
  constructor
  · intro h
    obtain ⟨clauses, p, used, rest, rfl, hadvance, hused, hstop⟩ :=
      (Progress.top []).exists_stop tokens
    rw [parse_eq_verdict (Progress.consume_clauses hadvance hused rest) hstop,
      Progress.verdict] at h
    split_ifs at h with hrest
    cases p with
    | inside done f body => cases h
    | top items =>
      cases h
      have htraces : items.flatMap Item.traces = clauses.flatMap Clause.traces :=
        Progress.traces_advance? hadvance
      rw [hrest, List.append_nil]
      exact ⟨items, htraces ▸ hused, rfl⟩
  · rintro ⟨items, htokens, rfl⟩
    rw [← Item.flatMap_clauses] at htokens
    have hrun := Progress.consume_clauses (Progress.advance?_items [] items) htokens []
    rw [List.append_nil, consume_nil] at hrun
    exact parse_of_consume hrun

/-- The parser accepts exactly the words of its grammar. -/
theorem exists_parse_eq_ok_iff_mem_program (tokens : List Token) :
    (∃ arena, parse tokens = .ok arena) ↔ tokens.map Token.kind ∈ Grammar.program := by
  rw [tells_program tokens]
  constructor
  · rintro ⟨arena, h⟩
    obtain ⟨items, htokens, -⟩ := parse_eq_ok_iff.1 h
    exact ⟨items, htokens⟩
  · rintro ⟨items, htokens⟩
    exact ⟨_, parse_eq_ok_iff.2 ⟨items, htokens, rfl⟩⟩

end Declang
