import Declang.Proofs.Parse.Unparse
namespace Declang

theorem Production.find?_nil (location : Location) : find? location [] = none := by
  cases location <;> decide

namespace Progress

variable {p p' : Progress} {clauses : List Clause} {used : List Token}

theorem parse_clauses (hadvance : (top []).advance? clauses = some p)
    (h : List.Forall₂ Trace.Of (clauses.flatMap Clause.traces) used) : parse used = p.result := by
  have hrun := consume_clauses hadvance h []
  rw [List.append_nil] at hrun
  exact parse_eq_verdict hrun (Production.find?_nil _)

/-- Where no production is found no clause can stand, not even if later tokens are left out. -/
theorem clauses_eq_nil_of_stop (hadvance : p.advance? clauses = some p')
    (h : List.Forall₂ Trace.Of (clauses.flatMap Clause.traces) used) {rest : List Token}
    (hstop : Production.find? p.position.location ((used ++ rest).map Token.kind) = none) :
    clauses = [] := by
  cases clauses with
  | nil => rfl
  | cons clause clauses =>
    rw [advance?_cons] at hadvance
    obtain ⟨next, hnext, -⟩ := Option.bind_eq_some_iff.1 hadvance
    obtain ⟨front, back, rfl, hfront, -⟩ := forall₂_append_iff.1 h
    rw [List.append_assoc, find?_of_next? hnext hfront] at hstop
    cases hstop

end Progress

/-- A parse reads all of the tokens: they are a program, or the last function of one stays open. -/
def Viable (tokens : List Token) : Prop :=
  (∃ arena, parse tokens = .ok arena) ∨
    ∃ location depth, parse tokens = .error (.unterminated location depth)

/-- The longest start of the tokens that a parse reads. -/
structure LongestViable (tokens front : List Token) : Prop where
  start : front <+: tokens
  viable : Viable front
  longest {other : List Token} (start : other <+: tokens) (viable : Viable other) : other <+: front

theorem Progress.location_cases {p : Progress} {tokens : List Token} (h : parse tokens = p.result) :
    (∃ arena, parse tokens = .ok arena) ∧ p.position.location = .program ∨
      (∃ location depth, parse tokens = .error (.unterminated location depth)) ∧
        p.position.location = .function := by
  cases p with
  | top items => exact .inl ⟨⟨_, h⟩, rfl⟩
  | inside done f body => exact .inr ⟨⟨_, _, h⟩, rfl⟩

theorem Viable.eq_nil_of_verdict {tokens rest : List Token} {p : Progress} (h : Viable tokens)
    (hverdict : parse tokens = p.verdict rest) : rest = [] := by
  by_contra hne
  rw [Progress.verdict, if_neg hne] at hverdict
  rcases h with ⟨arena, h⟩ | ⟨location, depth, h⟩
  · rw [h] at hverdict
    cases hverdict
  · rw [h] at hverdict
    cases hverdict

theorem Viable.eq_nil_of_stop {clauses : List Clause} {p : Progress} {used more rest : List Token}
    (h : Viable (used ++ more)) (hadvance : (Progress.top []).advance? clauses = some p)
    (hused : List.Forall₂ Trace.Of (clauses.flatMap Clause.traces) used)
    (hstop : Production.find? p.position.location ((more ++ rest).map Token.kind) = none) :
    more = [] := by
  obtain ⟨later, p', used', rest', rfl, hlater, hused', hstop'⟩ := p.exists_stop more
  have hrun : consume (used ++ (used' ++ rest')) .start .empty =
      consume rest' p'.position p'.arena :=
    (Progress.consume_clauses hadvance hused (used' ++ rest')).trans
      (Progress.consume_clauses hlater hused' rest')
  rw [List.append_assoc] at hstop
  cases Progress.clauses_eq_nil_of_stop hlater hused' hstop
  cases hused'
  exact h.eq_nil_of_verdict (parse_eq_verdict hrun hstop')

theorem Progress.longestViable {clauses : List Clause} {p : Progress} {used rest : List Token}
    (hadvance : (top []).advance? clauses = some p)
    (hused : List.Forall₂ Trace.Of (clauses.flatMap Clause.traces) used)
    (hstop : Production.find? p.position.location (rest.map Token.kind) = none) :
    LongestViable (used ++ rest) used := by
  constructor
  · exact List.prefix_append used rest
  · exact (location_cases (parse_clauses hadvance hused)).imp And.left And.left
  · intro other hother hviable
    rcases List.prefix_or_prefix_of_prefix hother (List.prefix_append used rest) with hle | hle
    · exact hle
    · obtain ⟨more, rfl⟩ := hle
      obtain ⟨tail, rfl⟩ := (List.prefix_append_right_inj used).1 hother
      rw [hviable.eq_nil_of_stop hadvance hused hstop, List.append_nil]

/-- A mismatch stands right after the longest start of the tokens that a parse reads. It is located
by how that start ends, and shows the kinds of up to six of the tokens that follow. -/
theorem longestViable_of_mismatch {tokens : List Token} {location : Location} {line : Nat}
    {found : String} (h : parse tokens = .error (.noMatch location line found)) :
    ∃ front first later, LongestViable tokens front ∧ tokens = front ++ first :: later ∧
      ((∃ arena, parse front = .ok arena) ∧ location = .program ∨
        (∃ location' depth, parse front = .error (.unterminated location' depth)) ∧
          location = .function) ∧
      line = first.line ∧
      found = " ".intercalate (((first :: later).take 6).map (·.kind.name)
        ++ if 6 < (first :: later).length then ["..."] else []) := by
  obtain ⟨clauses, p, used, rest, rfl, hadvance, hused, hstop⟩ :=
    (Progress.top []).exists_stop tokens
  have hlongest := Progress.longestViable hadvance hused hstop
  have hresult := Progress.parse_clauses hadvance hused
  rw [parse_eq_verdict (Progress.consume_clauses hadvance hused rest) hstop] at h
  cases rest with
  | nil =>
    cases p with
    | top items => cases h
    | inside done f body => cases h
  | cons first later =>
    cases h
    exact ⟨used, first, later, hlongest, rfl, Progress.location_cases hresult, rfl, rfl⟩

theorem longestViable_strayTokens :
    parse strayTokens = .error (.noMatch .function 4
      "ReturnKeyword OpenParen Identifier CloseParen Semicolon CloseBrace ...") ∧
    ∃ front first later, LongestViable strayTokens front ∧ strayTokens = front ++ first :: later ∧
      ((∃ arena, parse front = .ok arena) ∧ Location.function = .program ∨
        (∃ location depth, parse front = .error (.unterminated location depth)) ∧
          Location.function = .function) ∧
      4 = first.line ∧
      "ReturnKeyword OpenParen Identifier CloseParen Semicolon CloseBrace ..." =
        " ".intercalate (((first :: later).take 6).map (·.kind.name)
          ++ if 6 < (first :: later).length then ["..."] else []) := by
  have hparse : parse strayTokens = .error (.noMatch .function 4
      "ReturnKeyword OpenParen Identifier CloseParen Semicolon CloseBrace ...") := by
    decide +kernel
  exact ⟨hparse, longestViable_of_mismatch hparse⟩

end Declang
