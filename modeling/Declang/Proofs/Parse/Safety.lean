import Declang.Proofs.Arena.Validity
import Declang.Proofs.Parse.Run
namespace Declang

/-- The points that a parse passes through: the tokens that are left, the position and the arena
after each build step. -/
inductive Passes (tokens : List Token) : List Token → Position → Arena → Prop where
  | start : Passes tokens tokens .start .empty
  | step {rest : List Token} {position position' : Position} {arena arena' : Arena}
    {production : Production} {n : Nat} (before : Passes tokens rest position arena)
    (found : Production.find? position.location (rest.map Token.kind) = some (production, n))
    (built : build production (rest.take n) position arena = (.ok position', arena')) :
    Passes tokens (rest.drop n) position' arena'

/-- Everything that the parse looks at next is there: the tokens that a production takes, and the
node at the cursor. The step is built, and the integrity check would find a tree at once. -/
structure Secure (rest : List Token) (position : Position) (arena : Arena) : Prop where
  cursor : position.cursor < arena.size
  taken {production : Production} {n : Nat}
    (found : Production.find? position.location (rest.map Token.kind) = some (production, n)) :
    n ≤ rest.length
  built {production : Production} {n : Nat}
    (found : Production.find? position.location (rest.map Token.kind) = some (production, n)) :
    ∃ position' arena', build production (rest.take n) position arena = (.ok position', arena')
  valid : arena.validate? = some (.ok ())

theorem Production.find?_le {location : Location} {tokens : List Token}
    {production : Production} {n : Nat}
    (h : find? location (tokens.map Token.kind) = some (production, n)) : n ≤ tokens.length := by
  have hle := (Pattern.take?_sound (take?_of_find? h).2).1
  rwa [List.length_map] at hle

theorem Production.ne_nil_of_find? {location : Location} {tokens : List Token}
    {production : Production} {n : Nat}
    (h : find? location (tokens.map Token.kind) = some (production, n)) : tokens ≠ [] :=
  List.length_pos_iff.1 (Nat.lt_of_lt_of_le (find?_pos h) (find?_le h))

namespace Progress

theorem build_of_find? {p : Progress} {rest : List Token} {production : Production} {n : Nat}
    (h : Production.find? p.position.location (rest.map Token.kind) = some (production, n)) :
    ∃ p' : Progress,
      build production (rest.take n) p.position p.arena = (.ok p'.position, p'.arena) := by
  obtain ⟨clause, rfl, hclause, hlegal⟩ := Production.exists_clause_of_find? h
  obtain ⟨p', hnext⟩ := (p.exists_next?_iff clause).2 hlegal
  exact ⟨p', build_eq_ok hnext hclause⟩

theorem secure (p : Progress) (rest : List Token) : Secure rest p.position p.arena := by
  constructor
  · exact p.cursor_lt_size
  · intro production n hfind
    exact Production.find?_le hfind
  · intro production n hfind
    obtain ⟨p', hbuild⟩ := build_of_find? hfind
    exact ⟨_, _, hbuild⟩
  · rw [Arena.validate?_eq_some, p.linked.validate_eq_ok]

theorem verdict_cases (p : Progress) (rest : List Token) :
    (∃ arena, p.verdict rest = .ok arena) ∨
      (∃ location line found, p.verdict rest = .error (.noMatch location line found)) ∨
      p.verdict rest = .error (.unterminated .function 1) := by
  rw [verdict]
  split_ifs with hrest
  · cases p with
    | top items => exact .inl ⟨_, rfl⟩
    | inside done f body => exact .inr (.inr rfl)
  · exact .inr (.inl ⟨_, _, _, rfl⟩)

end Progress

namespace Passes

variable {tokens rest : List Token} {position : Position} {arena : Arena}

/-- Every point of a parse is one of progress on a list of declarations. -/
theorem exists_progress (h : Passes tokens rest position arena) :
    ∃ p : Progress, position = p.position ∧ arena = p.arena := by
  induction h with
  | start => exact ⟨.top [], rfl, rfl⟩
  | step _ hfind hbuild ih =>
    obtain ⟨p, rfl, rfl⟩ := ih
    obtain ⟨p', hbuild'⟩ := Progress.build_of_find? hfind
    rw [hbuild] at hbuild'
    cases hbuild'
    exact ⟨p', rfl, rfl⟩

theorem suffix (h : Passes tokens rest position arena) : rest <:+ tokens := by
  induction h with
  | start => exact List.suffix_refl _
  | step _ _ _ ih => exact (List.drop_suffix _ _).trans ih

theorem consume_eq (h : Passes tokens rest position arena) :
    consume tokens .start .empty = consume rest position arena := by
  induction h with
  | start => rfl
  | step _ hfind hbuild ih =>
    exact ih.trans (consume_of_find?_some (Production.ne_nil_of_find? hfind) hfind hbuild)

end Passes

/-- No tokens make a parse fail on its own account. It ends with a program, at a token that no
production takes, or in one open function. At every point on the way all that it looks up is there
and its next step is built, and no pattern ever takes more than what it is matched with. -/
theorem parse_safe (tokens : List Token) :
    ((∃ arena, parse tokens = .ok arena) ∨
      (∃ location line found, parse tokens = .error (.noMatch location line found)) ∨
      parse tokens = .error (.unterminated .function 1)) ∧
    (∀ rest position arena, Passes tokens rest position arena →
      rest <:+ tokens ∧ consume tokens .start .empty = consume rest position arena ∧
        Secure rest position arena) ∧
    ∀ (pattern : Pattern) kinds n, pattern.take? kinds = some n → n ≤ kinds.length := by
  apply And.intro
  · obtain ⟨clauses, p, used, rest, rfl, hadvance, hused, hstop⟩ :=
      (Progress.top []).exists_stop tokens
    rw [parse_eq_verdict (Progress.consume_clauses hadvance hused rest) hstop]
    exact p.verdict_cases rest
  apply And.intro
  · intro rest position arena h
    obtain ⟨p, rfl, rfl⟩ := h.exists_progress
    exact ⟨h.suffix, h.consume_eq, p.secure rest⟩
  · intro pattern kinds n htake
    exact (Pattern.take?_sound htake).1

end Declang
