import Mathlib.Data.Nat.Digits.Lemmas
import Declang.Proofs.Literal
namespace Declang

/-- A run of ASCII digits, at least one, that writes `value` in decimal. -/
structure DecimalRun (run : List Char) (value : Nat) : Prop where
  nonempty : run ≠ []
  digits : ∀ c ∈ run, '0' ≤ c ∧ c ≤ '9'
  value_eq : value = Nat.ofDigits 10 (run.reverse.map fun c => c.toNat - '0'.toNat)

theorem decimalValue_eq_ofDigits (run : List Char) :
    decimalValue run = Nat.ofDigits 10 (run.reverse.map fun c => c.toNat - '0'.toNat) := by
  -- The value is read from the left, and `Nat.ofDigits` takes the last digit first.
  induction run using List.reverseRecOn with
  | nil => rfl
  | append_singleton run c ih =>
    rw [List.reverse_concat, List.map_cons, Nat.ofDigits_cons, ← ih, decimalValue,
      List.foldl_concat, ← decimalValue, Nat.add_comm]

theorem isDigit_iff_le (c : Char) : c.isDigit = true ↔ '0' ≤ c ∧ c ≤ '9' := by
  simp [Char.isDigit, Char.le_def]

theorem decimalRun_iff {run : List Char} {value : Nat} :
    DecimalRun run value ↔
      (run ≠ [] ∧ run.all Char.isDigit = true) ∧ value = decimalValue run := by
  rw [decimalValue_eq_ofDigits, List.all_eq_true]
  simp only [isDigit_iff_le]
  constructor
  · rintro ⟨hne, hdigits, hvalue⟩
    exact ⟨⟨hne, hdigits⟩, hvalue⟩
  · rintro ⟨⟨hne, hdigits⟩, hvalue⟩
    exact ⟨hne, hdigits, hvalue⟩

theorem DecimalRun.value_unique {run : List Char} {value other : Nat} (h : DecimalRun run value)
    (h' : DecimalRun run other) : value = other :=
  h.value_eq.trans h'.value_eq.symm

theorem decodeBelow_eq_ok_iff_decimalRun {limit value : Nat} {run : List Char} :
    decodeBelow (limit + 1) run = .ok value ↔ DecimalRun run value ∧ value ≤ limit := by
  rw [decodeBelow_eq_ok_iff, decimalRun_iff, Nat.lt_succ_iff]
  constructor
  · rintro ⟨hrun, hvalue, rfl⟩
    exact ⟨⟨hrun, rfl⟩, hvalue⟩
  · rintro ⟨⟨hrun, rfl⟩, hvalue⟩
    exact ⟨hrun, hvalue, rfl⟩

theorem decodeBelow_eq_tooLarge_iff {limit : Nat} {run : List Char} :
    decodeBelow (limit + 1) run = .error .tooLarge ↔
      ∃ value, DecimalRun run value ∧ limit < value := by
  unfold decodeBelow readDigits?
  simp only [decimalRun_iff]
  by_cases hrun : run ≠ [] ∧ run.all Char.isDigit = true
  · by_cases hvalue : decimalValue run < limit + 1
    · simp [hrun, hvalue]
      omega
    · simp [hrun, hvalue]
      omega
  · rw [if_neg hrun]
    constructor
    · intro h
      cases h
    · rintro ⟨_, ⟨hnumeral, -⟩, -⟩
      exact absurd hnumeral hrun

/-- How a literal kind decodes a text: accepted are the numerals up to `limit` with the suffix after
them, and they carry their value; what is refused is named in full with its line, and is too large
only as a numeral. -/
structure DecodesUpTo (kind : TokenKind) (suffix : List Char) (limit : Nat)
    (carries : Literal → Nat → Prop) (text : String) (line : Nat) : Prop where
  accepted : (∃ token, Token.make kind text line = .ok token) ↔
    ∃ run value, text.toList = run ++ suffix ∧ DecimalRun run value ∧ value ≤ limit
  carried {token : Token} {run : List Char} {value : Nat}
    (made : Token.make kind text line = .ok token) (written : text.toList = run ++ suffix)
    (numeral : DecimalRun run value) :
    ∃ literal, token.literal = some literal ∧ carries literal value
  refused {error : LexError} (failed : Token.make kind text line = .error error) :
    ∃ fault, error = .malformed line text fault ∧
      (fault = .tooLarge ↔
        ∃ run value, text.toList = run ++ suffix ∧ DecimalRun run value ∧ limit < value)

variable {kind : TokenKind} {text : String}

theorem exists_make_eq_ok_iff (line : Nat) :
    (∃ token, Token.make kind text line = .ok token) ↔
      ∃ literal, kind.decode text = .ok literal := by
  constructor
  · rintro ⟨token, hmake⟩
    obtain ⟨rfl, rfl, -⟩ := Token.make_eq_ok_iff.1 hmake
    exact ⟨_, token.decoded⟩
  · rintro ⟨literal, hdecoded⟩
    exact ⟨⟨kind, text, line, literal, hdecoded⟩, Token.make_eq_ok_iff.2 ⟨rfl, rfl, rfl⟩⟩

theorem decodesUpTo_of_suffix {run suffix : List Char} {limit : Nat}
    {carries : Literal → Nat → Prop} {wrap : Nat → Literal}
    (hwritten : text.toList = run ++ suffix)
    (hdecode : kind.decode text = (decodeBelow (limit + 1) run).map (some ∘ wrap))
    (hwrap : ∀ value ≤ limit, carries (wrap value) value) (line : Nat) :
    DecodesUpTo kind suffix limit carries text line := by
  have hrun {other : List Char} (hother : text.toList = other ++ suffix) : other = run :=
    List.append_cancel_right (hother.symm.trans hwritten)
  constructor
  · rw [exists_make_eq_ok_iff, hdecode]
    constructor
    · rintro ⟨literal, hliteral⟩
      obtain ⟨value, hvalue, -⟩ := except_map_eq_ok_iff.1 hliteral
      exact ⟨run, value, hwritten, decodeBelow_eq_ok_iff_decimalRun.1 hvalue⟩
    · rintro ⟨other, value, hother, hnumeral⟩
      rw [hrun hother] at hnumeral
      exact ⟨_, except_map_eq_ok_iff.2 ⟨value, decodeBelow_eq_ok_iff_decimalRun.2 hnumeral, rfl⟩⟩
  · intro token other value hmake hother hnumeral
    rw [hrun hother] at hnumeral
    obtain ⟨rfl, rfl, -⟩ := Token.make_eq_ok_iff.1 hmake
    obtain ⟨decoded, hdecoded, hliteral⟩ :=
      except_map_eq_ok_iff.1 (hdecode.symm.trans token.decoded)
    obtain ⟨hnumeral', hlimit⟩ := decodeBelow_eq_ok_iff_decimalRun.1 hdecoded
    rw [hnumeral.value_unique hnumeral']
    exact ⟨wrap decoded, hliteral.symm, hwrap decoded hlimit⟩
  · intro error hmake
    obtain ⟨fault, hfault, rfl⟩ := Token.make_eq_error_iff.1 hmake
    rw [hdecode, except_map_eq_error_iff] at hfault
    refine ⟨fault, rfl, ?_⟩
    constructor
    · rintro rfl
      obtain ⟨value, hvalue⟩ := decodeBelow_eq_tooLarge_iff.1 hfault
      exact ⟨run, value, hwritten, hvalue⟩
    · rintro ⟨other, value, hother, hnumeral⟩
      rw [hrun hother] at hnumeral
      have hlarge := decodeBelow_eq_tooLarge_iff.2 ⟨value, hnumeral⟩
      exact (Except.error.inj (hlarge.symm.trans hfault)).symm

theorem decodesUpTo_of_no_suffix {suffix : List Char} {fault : LiteralFault}
    (hsuffix : ¬ suffix <:+ text.toList) (hdecode : kind.decode text = .error fault)
    (hfault : fault ≠ .tooLarge) (limit : Nat) (carries : Literal → Nat → Prop) (line : Nat) :
    DecodesUpTo kind suffix limit carries text line := by
  have hwritten {run : List Char} (hrun : text.toList = run ++ suffix) : False :=
    hsuffix ⟨run, hrun.symm⟩
  constructor
  · rw [exists_make_eq_ok_iff, hdecode]
    exact ⟨fun ⟨_, h⟩ => (nomatch h), fun ⟨_, _, hrun, _⟩ => (hwritten hrun).elim⟩
  · intro token run value _ hrun _
    exact (hwritten hrun).elim
  · intro error hmake
    obtain ⟨other, hother, rfl⟩ := Token.make_eq_error_iff.1 hmake
    rw [hdecode] at hother
    cases hother
    exact ⟨fault, rfl, fun h => (hfault h).elim, fun ⟨_, _, hrun, _⟩ => (hwritten hrun).elim⟩

/-- Literals are decoded exactly, however long their run of digits is. -/
theorem make_literal_exact (text : String) (line : Nat) :
    DecodesUpTo .integerLiteral [] (2 ^ 31 - 1)
        (fun literal value => ∃ n, literal = .int n ∧ n.toInt = value) text line ∧
      DecodesUpTo .unsignedLiteral ['u'] (2 ^ 32 - 1)
        (fun literal value => ∃ n, literal = .uint n ∧ n.toNat = value) text line := by
  constructor
  · have hdecode : TokenKind.decode .integerLiteral text =
        (decodeBelow (2 ^ 31 - 1 + 1) text.toList).map (some ∘ .int ∘ Int32.ofNat) := by
      rw [TokenKind.decode, decodeSigned, except_map_map]
      rfl
    apply decodesUpTo_of_suffix (List.append_nil _).symm hdecode
    intro value hvalue
    exact ⟨_, rfl, Int32.toInt_ofNat_of_lt (Nat.lt_succ_of_le hvalue)⟩
  · by_cases hsuffix : text.toList.getLast? = some 'u'
    · obtain ⟨run, hrun⟩ := List.getLast?_eq_some_iff.1 hsuffix
      have hdecode : TokenKind.decode .unsignedLiteral text =
          (decodeBelow (2 ^ 32 - 1 + 1) run).map (some ∘ .uint ∘ UInt32.ofNat) := by
        rw [TokenKind.decode, decodeUnsigned, if_pos hsuffix, hrun, List.dropLast_concat,
          except_map_map]
        rfl
      apply decodesUpTo_of_suffix hrun hdecode
      intro value hvalue
      exact ⟨_, rfl, UInt32.toNat_ofNat_of_lt' (Nat.lt_succ_of_le hvalue)⟩
    · have hdecode : TokenKind.decode .unsignedLiteral text = .error .missingSuffix := by
        rw [TokenKind.decode, decodeUnsigned, if_neg hsuffix]
        rfl
      apply decodesUpTo_of_no_suffix _ hdecode
      · decide
      · rintro ⟨run, hrun⟩
        exact hsuffix (List.getLast?_eq_some_iff.2 ⟨run, hrun.symm⟩)

end Declang
