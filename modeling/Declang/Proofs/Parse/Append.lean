import Declang.Proofs.Arena.Join
import Declang.Proofs.Parse.Canonical
namespace Declang

namespace Progress

/-- The same point of a parse, behind other declarations. -/
def behind (before : List Item) : Progress → Progress
  | top done => top (before ++ done)
  | inside done f body => inside (before ++ done) f body

theorem location_behind (before : List Item) (p : Progress) :
    (p.behind before).position.location = p.position.location := by
  cases p <;> rfl

theorem next?_behind (before : List Item) (p : Progress) (clause : Clause) :
    (p.behind before).next? clause = (p.next? clause).map (behind before) := by
  cases p <;> cases clause <;> simp [behind, next?]

theorem advance?_behind (before : List Item) (p : Progress) (clauses : List Clause) :
    (p.behind before).advance? clauses = (p.advance? clauses).map (behind before) := by
  induction clauses generalizing p with
  | nil => rfl
  | cons clause clauses ih =>
    rw [advance?_cons, advance?_cons, next?_behind]
    cases p.next? clause with
    | none => rfl
    | some next => exact ih next

theorem verdict_behind (before : List Item) (p : Progress) (rest : List Token) :
    (p.behind before).verdict rest = (p.verdict rest).map (top before).arena.join := by
  rw [verdict, verdict, location_behind]
  split_ifs
  · cases p with
    | top done =>
      have hjoin := Arena.join_ofTree .program .program (before.map Item.tree) (done.map Item.tree)
      rw [← List.map_append] at hjoin
      exact congrArg Except.ok hjoin.symm
    | inside done f body => rfl
  · rfl

end Progress

/-- Parsing turns the concatenation of tokens into the join of programs, once the first tokens are a
program: what follows succeeds or fails as it would alone. -/
theorem parse_append {a : List Token} {first : Arena} (h : parse a = .ok first) (b : List Token) :
    parse (a ++ b) = (parse b).map first.join := by
  obtain ⟨items, ha, rfl⟩ := parse_eq_ok_iff.1 h
  rw [← Item.flatMap_clauses] at ha
  obtain ⟨clauses, p, used, rest, rfl, hadvance, hused, hstop⟩ := (Progress.top []).exists_stop b
  have hbehind : (Progress.top items).advance? clauses = some (p.behind items) := by
    have hsame := Progress.advance?_behind items (.top []) clauses
    rw [hadvance, Progress.behind, List.append_nil] at hsame
    exact hsame
  have hrun : consume (a ++ (used ++ rest)) .start .empty =
      consume rest (p.behind items).position (p.behind items).arena :=
    (Progress.consume_clauses (Progress.advance?_items [] items) ha (used ++ rest)).trans
      (Progress.consume_clauses hbehind hused rest)
  have hstop' : Production.find? (p.behind items).position.location (rest.map Token.kind) =
      none := by
    rw [Progress.location_behind]
    exact hstop
  rw [parse_eq_verdict hrun hstop', Progress.verdict_behind,
    parse_eq_verdict (Progress.consume_clauses hadvance hused rest) hstop]
  rfl

theorem parse_sampleTokens_append :
    ∃ first, parse sampleTokens = .ok first ∧
      ∀ b, parse (sampleTokens ++ b) = (parse b).map first.join :=
  ⟨_, parse_sampleTokens, parse_append parse_sampleTokens⟩

end Declang
