import Declang.Proofs.Parse.Clause
namespace Declang

theorem findSome?_eq_of_perm {α β : Type} {f : α → Option β} {as bs : List α} (h : as.Perm bs)
    (hunique : ∀ {x y a b}, x ∈ as → y ∈ as → f x = some a → f y = some b → x = y) :
    as.findSome? f = bs.findSome? f := by
  cases hbs : bs.findSome? f with
  | none =>
    rw [List.findSome?_eq_none_iff] at hbs ⊢
    intro x hx
    exact hbs x (h.mem_iff.1 hx)
  | some b =>
    obtain ⟨x, hx, hb⟩ := List.exists_of_findSome?_eq_some hbs
    have hxas := h.mem_iff.2 hx
    apply findSome?_of_unique hxas hb
    intro y hy hne
    cases ha : f y with
    | none => rfl
    | some a => exact absurd (hunique hy hxas ha hb) hne

namespace Production

/-- The first production of `table` that is legal at `location` and takes anything. -/
def findIn? (table : List Production) (location : Location) (kinds : List TokenKind) :
    Option (Production × Nat) :=
  (table.filter (·.legalAt location)).findSome? fun production =>
    match production.pattern.take? kinds with
    | none | some 0 => none
    | some (n + 1) => some (production, n + 1)

theorem findIn?_all (location : Location) (kinds : List TokenKind) :
    findIn? all location kinds = find? location kinds :=
  rfl

variable {tokens : List Token} {production : Production} {n : Nat}

theorem exists_clause_of_mem_language
    (h : (tokens.take n).map Token.kind ∈ production.pattern.language) :
    ∃ clause : Clause, clause.production = production ∧
      clause.traces.length = (tokens.take n).length ∧
      tokens.map Token.kind = clause.traces.map Trace.kind ++ (tokens.drop n).map Token.kind := by
  obtain ⟨clause, hproduction, hclause⟩ := (mem_language_pattern production _).1 h
  refine ⟨clause, hproduction, hclause.length_eq, ?_⟩
  rw [← map_kind_of_forall₂ hclause, ← List.map_append, List.take_append_drop]

theorem take?_of_mem_language (hn : n ≤ tokens.length)
    (h : (tokens.take n).map Token.kind ∈ production.pattern.language) :
    production.pattern.take? (tokens.map Token.kind) = some n := by
  obtain ⟨clause, rfl, hlength, hkinds⟩ := exists_clause_of_mem_language h
  rw [hkinds, clause.take?_eq, hlength, List.length_take, Nat.min_eq_left hn]

theorem take?_eq_some_iff :
    production.pattern.take? (tokens.map Token.kind) = some n ↔
      n ≤ tokens.length ∧ (tokens.take n).map Token.kind ∈ production.pattern.language := by
  constructor
  · intro h
    obtain ⟨hle, hword⟩ := Pattern.take?_sound h
    rw [List.length_map] at hle
    rw [← List.map_take] at hword
    exact ⟨hle, hword⟩
  · intro h
    exact take?_of_mem_language h.1 h.2

theorem take?_replace (h : production.pattern.take? (tokens.map Token.kind) = some n)
    (later : List Token) :
    production.pattern.take? ((tokens.take n ++ later).map Token.kind) = some n := by
  obtain ⟨hn, hword⟩ := take?_eq_some_iff.1 h
  have hlength : (tokens.take n).length = n := by
    rw [List.length_take, Nat.min_eq_left hn]
  apply take?_of_mem_language
  · rw [List.length_append, hlength]
    exact Nat.le_add_right n _
  · rw [List.take_append_of_le_length (Nat.le_of_eq hlength.symm), List.take_take, Nat.min_self]
    exact hword

theorem eq_of_take? {other : Production} {m : Nat}
    (h : production.pattern.take? (tokens.map Token.kind) = some n)
    (hother : other.pattern.take? (tokens.map Token.kind) = some m) : other = production := by
  obtain ⟨-, hword⟩ := take?_eq_some_iff.1 h
  obtain ⟨clause, rfl, -, hkinds⟩ := exists_clause_of_mem_language hword
  by_contra hne
  rw [hkinds, Clause.take?_other hne] at hother
  cases hother

theorem exists_take?_of_some {found : Production × Nat}
    (h : (match production.pattern.take? (tokens.map Token.kind) with
      | none | some 0 => none
      | some (n + 1) => some (production, n + 1)) = some found) :
    ∃ n, production.pattern.take? (tokens.map Token.kind) = some n := by
  cases htake : production.pattern.take? (tokens.map Token.kind) with
  | none => simp [htake] at h
  | some n => exact ⟨n, rfl⟩

theorem findIn?_eq_find? {table : List Production} (h : table.Perm all) (location : Location)
    (tokens : List Token) :
    findIn? table location (tokens.map Token.kind) = find? location (tokens.map Token.kind) := by
  rw [← findIn?_all, findIn?, findIn?]
  apply findSome?_eq_of_perm (h.filter _)
  intro p q a b _ _ hp hq
  obtain ⟨m, hm⟩ := exists_take?_of_some hp
  obtain ⟨n, hn⟩ := exists_take?_of_some hq
  exact eq_of_take? hn hm

end Production

/-- Greedy matching finds what full backtracking would. A production takes `n` tokens exactly when
the first `n` of them are a word of it, so there is only one such `n`, and the later tokens do not
matter. As no other production takes any tokens then, it does not matter which is tried first. -/
theorem Production.take?_exact :
    (∀ (production : Production) (tokens : List Token) (n : Nat),
      production.pattern.take? (tokens.map Token.kind) = some n ↔
        n ≤ tokens.length ∧ (tokens.take n).map Token.kind ∈ production.pattern.language) ∧
    (∀ (production : Production) (tokens : List Token) (m n : Nat),
      m ≤ tokens.length → (tokens.take m).map Token.kind ∈ production.pattern.language →
      n ≤ tokens.length → (tokens.take n).map Token.kind ∈ production.pattern.language → m = n) ∧
    (∀ (production : Production) (tokens : List Token) (n : Nat),
      production.pattern.take? (tokens.map Token.kind) = some n → ∀ later : List Token,
        production.pattern.take? ((tokens.take n ++ later).map Token.kind) = some n) ∧
    (∀ (location : Location) (tokens : List Token) (p q : Production) (m n : Nat),
      p.legalAt location = true → p.pattern.take? (tokens.map Token.kind) = some m →
      q.legalAt location = true → q.pattern.take? (tokens.map Token.kind) = some n → p = q) ∧
    ∀ table : List Production, table.Perm Production.all →
      ∀ (location : Location) (tokens : List Token),
        Production.findIn? table location (tokens.map Token.kind) =
          Production.find? location (tokens.map Token.kind) := by
  refine ⟨?_, ?_, ?_, ?_, ?_⟩
  · intro production tokens n
    exact take?_eq_some_iff
  · intro production tokens m n hm hmword hn hnword
    exact Option.some_inj.1
      ((take?_of_mem_language hm hmword).symm.trans (take?_of_mem_language hn hnword))
  · intro production tokens n h later
    exact take?_replace h later
  · intro location tokens p q m n _ hp _ hq
    exact eq_of_take? hq hp
  · intro table htable location tokens
    exact findIn?_eq_find? htable location tokens

end Declang
