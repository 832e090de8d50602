import Mathlib.Computability.Language
import Declang.Grammar.Production
namespace Declang

open scoped Computability

mutual

/-- The words of kinds that an element stands for, however they were to be matched. -/
def Element.language : Element → Language TokenKind
  | .one kind => {[kind]}
  | .oneOf kinds => (kinds.map fun kind => {[kind]}).sum
  | .optional body => 1 + Pattern.language body
  | .repeated body => (Pattern.language body)∗

def Pattern.language : Pattern → Language TokenKind
  | [] => 1
  | element :: pattern => element.language * Pattern.language pattern

end

theorem singleton_mem_sum {kind : TokenKind} {kinds : List TokenKind} (h : kind ∈ kinds) :
    [kind] ∈ (kinds.map fun kind => ({[kind]} : Language TokenKind)).sum := by
  induction kinds with
  | nil => cases h
  | cons other kinds ih =>
    rw [List.map_cons, List.sum_cons]
    rcases List.mem_cons.1 h with rfl | h
    · exact .inl rfl
    · exact .inr (ih h)

theorem greedy_sound {step : List TokenKind → Option Nat} {language : Language TokenKind}
    (hstep : ∀ {kinds n}, step kinds = some n → n ≤ kinds.length ∧ kinds.take n ∈ language)
    (kinds : List TokenKind) :
    greedy step kinds ≤ kinds.length ∧ kinds.take (greedy step kinds) ∈ language∗ := by
  fun_induction greedy step kinds with
  | case1 => exact ⟨Nat.zero_le _, Language.nil_mem_kstar _⟩
  | case2 kinds n hsome hlength ih =>
    obtain ⟨hle, hfirst⟩ := hstep hsome
    obtain ⟨hlater, hrest⟩ := ih
    rw [List.length_drop] at hlater
    refine ⟨by omega, ?_⟩
    rw [List.take_add, ← Language.one_add_self_mul_kstar_eq_kstar]
    exact .inr (Language.append_mem_mul hfirst hrest)
  | case3 => exact ⟨Nat.zero_le _, Language.nil_mem_kstar _⟩

mutual

theorem Element.take?_sound {element : Element} {kinds : List TokenKind} {n : Nat}
    (h : element.take? kinds = some n) :
    n ≤ kinds.length ∧ kinds.take n ∈ element.language := by
  cases element with
  | one kind =>
    rw [Element.take?] at h
    split at h
    case isFalse => cases h
    next hhead =>
    cases h
    cases kinds with
    | nil => cases hhead
    | cons first kinds =>
      cases hhead
      exact ⟨Nat.le_add_left .., rfl⟩
  | oneOf choices =>
    rw [Element.take?] at h
    split at h
    case isFalse => cases h
    next hhead =>
    cases h
    cases kinds with
    | nil => cases hhead
    | cons first kinds =>
      exact ⟨Nat.le_add_left .., singleton_mem_sum (List.contains_iff_mem.1 hhead)⟩
  | optional body =>
    rw [Element.take?] at h
    cases h
    cases htake : Pattern.take? body kinds with
    | none => exact ⟨Nat.zero_le _, .inl rfl⟩
    | some n =>
      obtain ⟨hle, hmem⟩ := Pattern.take?_sound htake
      exact ⟨hle, .inr hmem⟩
  | repeated body =>
    rw [Element.take?] at h
    cases h
    exact greedy_sound (fun htake => Pattern.take?_sound htake) kinds

theorem Pattern.take?_sound {pattern : Pattern} {kinds : List TokenKind} {n : Nat}
    (h : pattern.take? kinds = some n) :
    n ≤ kinds.length ∧ kinds.take n ∈ pattern.language := by
  cases pattern with
  | nil =>
    cases h
    exact ⟨Nat.zero_le _, rfl⟩
  | cons element pattern =>
    rw [Pattern.take?] at h
    cases hfirst : element.take? kinds with
    | none =>
      rw [hfirst] at h
      cases h
    | some first =>
      rw [hfirst] at h
      obtain ⟨later, hlater, rfl⟩ := Option.map_eq_some_iff.1 h
      obtain ⟨hle, hmem⟩ := Element.take?_sound hfirst
      obtain ⟨hle', hmem'⟩ := Pattern.take?_sound hlater
      rw [List.length_drop] at hle'
      refine ⟨by omega, ?_⟩
      rw [List.take_add]
      exact Language.append_mem_mul hmem hmem'

end

end Declang
