import Declang.Proofs.Grammar.Language
import Declang.Token
namespace Declang

/-- What ends a match without an answer: a slice that starts beyond the end, or a repetition that
would go on after its last round. -/
inductive Halt where
  | outOfRange (start length : Nat)
  | outOfRounds
  deriving DecidableEq, Repr

def slice (kinds : List TokenKind) (start : Nat) : Except Halt (List TokenKind) :=
  if start ≤ kinds.length then .ok (kinds.drop start)
  else .error (.outOfRange start kinds.length)

/-- Repeats `step` from the offset `total` on, until it fails or takes nothing. -/
def repeatFrom (step : List TokenKind → Except Halt (Option Nat)) (kinds : List TokenKind)
    (rounds total : Nat) : Except Halt Nat :=
  match rounds with
  | 0 => .error .outOfRounds
  | rounds + 1 => do
    let rest ← slice kinds total
    match ← step rest with
    | none | some 0 => return total
    | some (n + 1) => repeatFrom step kinds rounds (total + (n + 1))

mutual

/-- Matches an element with every slice checked, and every repetition limited to `rounds` rounds. -/
def Element.run (rounds : Nat) : Element → List TokenKind → Except Halt (Option Nat)
  | .one kind, kinds => return if kinds.head? = some kind then some 1 else none
  | .oneOf choices, kinds => return if kinds.head?.any choices.contains then some 1 else none
  | .optional body, kinds => do
    let taken ← Pattern.runFrom rounds body kinds 0
    return some (taken.getD 0)
  | .repeated body, kinds => do
    let total ← repeatFrom (fun kinds => Pattern.runFrom rounds body kinds 0) kinds rounds 0
    return some total

/-- Matches a pattern from the offset `consumed` on; the answer counts what stands before it, too. -/
def Pattern.runFrom (rounds : Nat) :
    Pattern → List TokenKind → (consumed : Nat) → Except Halt (Option Nat)
  | [], _, consumed => return some consumed
  | element :: pattern, kinds, consumed => do
    let rest ← slice kinds consumed
    match ← element.run rounds rest with
    | none => return none
    | some n => Pattern.runFrom rounds pattern kinds (consumed + n)

end

def Pattern.run (rounds : Nat) (pattern : Pattern) (kinds : List TokenKind) :
    Except Halt (Option Nat) :=
  pattern.runFrom rounds kinds 0

theorem slice_eq_ok {kinds : List TokenKind} {start : Nat} (h : start ≤ kinds.length) :
    slice kinds start = .ok (kinds.drop start) :=
  if_pos h

theorem repeatFrom_eq_ok {step : List TokenKind → Except Halt (Option Nat)}
    {answer : List TokenKind → Option Nat} {kinds : List TokenKind}
    (hstep : ∀ {rest}, rest.length ≤ kinds.length → step rest = .ok (answer rest))
    (hanswer : ∀ {rest n}, answer rest = some n → n ≤ rest.length)
    {rounds total : Nat} (htotal : total ≤ kinds.length) (hrounds : kinds.length < total + rounds) :
    repeatFrom step kinds rounds total = .ok (total + greedy answer (kinds.drop total)) := by
  -- A round that goes on takes a kind, so more rounds are left than kinds.
  induction rounds generalizing total with
  | zero => omega
  | succ rounds ih =>
    have hrest : (kinds.drop total).length = kinds.length - total := List.length_drop
    have hround : step (kinds.drop total) = .ok (answer (kinds.drop total)) :=
      hstep (by omega)
    rw [repeatFrom, slice_eq_ok htotal, greedy]
    change (step (kinds.drop total) >>= _) = _
    rw [hround]
    cases htaken : answer (kinds.drop total) with
    | none => rfl
    | some n =>
      cases n with
      | zero => rfl
      | succ n =>
        have hle := hanswer htaken
        have hlater := @ih (total + (n + 1)) (by omega) (by omega)
        simp only [if_neg (Nat.not_le.2 hle), List.drop_drop, ← Nat.add_assoc total] at hlater ⊢
        exact hlater

mutual

/-- Rounds beyond the number of kinds do not run out, and no slice starts beyond the end. -/
theorem Element.run_eq_ok {element : Element} {kinds : List TokenKind} {rounds : Nat}
    (h : kinds.length < rounds) : element.run rounds kinds = .ok (element.take? kinds) := by
  cases element with
  | one kind =>
    rw [Element.run, Element.take?]
    rfl
  | oneOf choices =>
    rw [Element.run, Element.take?]
    rfl
  | optional body =>
    have hbody : Pattern.runFrom rounds body kinds 0 = .ok (Pattern.take? body kinds) := by
      simpa using Pattern.runFrom_eq_ok (Nat.zero_le kinds.length) h
    rw [Element.run, Element.take?, hbody]
    rfl
  | repeated body =>
    have hbody {rest : List TokenKind} (hrest : rest.length ≤ kinds.length) :
        Pattern.runFrom rounds body rest 0 = .ok (Pattern.take? body rest) := by
      have hrounds := Nat.lt_of_le_of_lt hrest h
      simpa using Pattern.runFrom_eq_ok (Nat.zero_le rest.length) hrounds
    have hrepeat : repeatFrom _ kinds rounds 0 = .ok _ :=
      repeatFrom_eq_ok hbody (fun htake => (Pattern.take?_sound htake).1) (Nat.zero_le _) (by omega)
    rw [Nat.zero_add, List.drop_zero] at hrepeat
    rw [Element.run, Element.take?, hrepeat]
    rfl

theorem Pattern.runFrom_eq_ok {pattern : Pattern} {kinds : List TokenKind} {rounds consumed : Nat}
    (hconsumed : consumed ≤ kinds.length) (h : kinds.length < rounds) :
    pattern.runFrom rounds kinds consumed =
      .ok ((pattern.take? (kinds.drop consumed)).map (consumed + ·)) := by
  cases pattern with
  | nil => rfl
  | cons element pattern =>
    have hrest : (kinds.drop consumed).length = kinds.length - consumed := List.length_drop
    have hfirst : element.run rounds (kinds.drop consumed) =
        .ok (element.take? (kinds.drop consumed)) := Element.run_eq_ok (by omega)
    rw [Pattern.runFrom, Pattern.take?, slice_eq_ok hconsumed]
    change (element.run rounds (kinds.drop consumed) >>= _) = _
    rw [hfirst]
    cases htaken : element.take? (kinds.drop consumed) with
    | none => rfl
    | some n =>
      have hle := (Element.take?_sound htaken).1
      have hlater := @Pattern.runFrom_eq_ok pattern kinds rounds (consumed + n) (by omega) h
      change Pattern.runFrom rounds pattern kinds (consumed + n) = _
      rw [hlater]
      simp [List.drop_drop, Function.comp_def, Nat.add_assoc]

end

/-- Whatever the pattern, matching ends without a slice out of range: a limit on the rounds of each
repetition beyond the number of tokens is never reached. What it takes is a word of the pattern. -/
theorem Pattern.run_eq_ok_and_take?_mem_language (pattern : Pattern) (tokens : List Token) :
    (∀ rounds, tokens.length < rounds →
      pattern.run rounds (tokens.map Token.kind) = .ok (pattern.take? (tokens.map Token.kind))) ∧
    ∀ n, pattern.take? (tokens.map Token.kind) = some n →
      n ≤ tokens.length ∧ (tokens.take n).map Token.kind ∈ pattern.language := by
  constructor
  · intro rounds hrounds
    rw [← List.length_map Token.kind] at hrounds
    simpa [run] using @Pattern.runFrom_eq_ok pattern _ rounds 0 (Nat.zero_le _) hrounds
  · intro n htake
    obtain ⟨hle, hmem⟩ := Pattern.take?_sound htake
    rw [List.length_map] at hle
    rw [List.map_take]
    exact ⟨hle, hmem⟩

-- A body that takes nothing ends its repetition, and two tokens may take three rounds.
example : Pattern.run 3 [.repeated [.repeated [.one .comma], .optional []]] [.comma, .comma] =
    .ok (some 2) := rfl

example : Pattern.run 2 [.repeated [.one .comma]] [.comma, .comma] = .error .outOfRounds := rfl

end Declang
