import Declang.Token
namespace Declang

theorem decodeBelow_eq_ok_iff {bound value : Nat} {cs : List Char} :
    decodeBelow bound cs = .ok value ↔
      (cs ≠ [] ∧ cs.all Char.isDigit = true) ∧ decimalValue cs < bound ∧
        value = decimalValue cs := by
  unfold decodeBelow readDigits?
  by_cases hdigits : cs ≠ [] ∧ cs.all Char.isDigit = true
  · by_cases hvalue : decimalValue cs < bound
    · simp [hdigits, hvalue, eq_comm]
    · simp [hdigits, hvalue]
  · rw [if_neg hdigits]
    exact ⟨fun h => (nomatch h), fun h => absurd h.1 hdigits⟩

theorem except_map_eq_ok_iff {ε α β : Type} {f : α → β} {x : Except ε α} {b : β} :
    x.map f = .ok b ↔ ∃ a, x = .ok a ∧ f a = b := by
  cases x <;> simp [Except.map]

theorem except_map_eq_error_iff {ε α β : Type} {f : α → β} {x : Except ε α} {e : ε} :
    x.map f = .error e ↔ x = .error e := by
  cases x <;> simp [Except.map]

theorem except_map_map {ε α β γ : Type} (f : α → β) (g : β → γ) (x : Except ε α) :
    (x.map f).map g = x.map (g ∘ f) := by
  cases x <;> rfl

theorem except_bind_eq_ok_iff {ε α β : Type} {x : Except ε α} {f : α → Except ε β} {b : β} :
    (x >>= f) = .ok b ↔ ∃ a, x = .ok a ∧ f a = .ok b := by
  cases x with
  | error e => exact ⟨fun h => (nomatch h), fun ⟨_, h, _⟩ => (nomatch h)⟩
  | ok a => exact ⟨fun h => ⟨a, rfl, h⟩, fun ⟨_, ha, h⟩ => Except.ok.inj ha ▸ h⟩

theorem except_bind_eq_error_iff {ε α β : Type} {x : Except ε α} {f : α → Except ε β} {e : ε} :
    (x >>= f) = .error e ↔ x = .error e ∨ ∃ a, x = .ok a ∧ f a = .error e := by
  cases x with
  | error e' => simp [bind, Except.bind]
  | ok a => simp [bind, Except.bind]

theorem decodeSigned_eq_ok_iff {cs : List Char} {value : Int32} :
    decodeSigned cs = .ok value ↔
      (cs ≠ [] ∧ cs.all Char.isDigit = true) ∧ decimalValue cs < Nat.pow 2 31 ∧
        value = Int32.ofNat (decimalValue cs) := by
  simp only [decodeSigned, except_map_eq_ok_iff, decodeBelow_eq_ok_iff]
  constructor
  · rintro ⟨_, ⟨hdigits, hbound, rfl⟩, rfl⟩
    exact ⟨hdigits, hbound, rfl⟩
  · rintro ⟨hdigits, hbound, rfl⟩
    exact ⟨_, ⟨hdigits, hbound, rfl⟩, rfl⟩

theorem decodeUnsigned_eq_ok_iff {cs : List Char} {value : UInt32} :
    decodeUnsigned cs = .ok value ↔
      ∃ digits, cs = digits ++ ['u'] ∧ (digits ≠ [] ∧ digits.all Char.isDigit = true) ∧
        decimalValue digits < Nat.pow 2 32 ∧ value = UInt32.ofNat (decimalValue digits) := by
  unfold decodeUnsigned
  constructor
  · intro h
    split at h
    case isFalse => cases h
    next hlast =>
    obtain ⟨digits, rfl⟩ := List.getLast?_eq_some_iff.1 hlast
    rw [List.dropLast_concat] at h
    obtain ⟨_, hvalue, rfl⟩ := except_map_eq_ok_iff.1 h
    obtain ⟨hdigits, hbound, rfl⟩ := decodeBelow_eq_ok_iff.1 hvalue
    exact ⟨digits, rfl, hdigits, hbound, rfl⟩
  · rintro ⟨digits, rfl, hdigits, hbound, rfl⟩
    rw [if_pos List.getLast?_concat, List.dropLast_concat, except_map_eq_ok_iff]
    exact ⟨_, decodeBelow_eq_ok_iff.2 ⟨hdigits, hbound, rfl⟩, rfl⟩

theorem Token.make_eq_ok_iff {kind : TokenKind} {text : String} {line : Nat} {token : Token} :
    Token.make kind text line = .ok token ↔
      token.kind = kind ∧ token.text = text ∧ token.line = line := by
  unfold Token.make
  constructor
  · intro h
    split at h <;> cases h
    exact ⟨rfl, rfl, rfl⟩
  · rintro ⟨rfl, rfl, rfl⟩
    split
    · next literal h =>
      rw [Except.ok.injEq]
      exact Token.ext rfl rfl rfl
    · next fault h =>
      have hdecoded := token.decoded
      simp [h] at hdecoded

theorem Token.make_eq_error_iff {kind : TokenKind} {text : String} {line : Nat} {error : LexError} :
    Token.make kind text line = .error error ↔
      ∃ fault, kind.decode text = .error fault ∧ error = .malformed line text fault := by
  unfold Token.make
  split
  · next literal h => simp [h]
  · next fault h => simp [h, eq_comm]

end Declang
