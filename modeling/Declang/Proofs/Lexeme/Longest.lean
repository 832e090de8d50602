import Declang.Proofs.Lexeme.FirstMatch
namespace Declang

theorem byteLength_append (a b : List Char) : byteLength (a ++ b) = byteLength a + byteLength b := by
  induction a with
  | nil => exact (Nat.zero_add _).symm
  | cons c a ih => rw [List.cons_append, byteLength, byteLength, ih, Nat.add_assoc]

theorem eq_nil_of_byteLength {a : List Char} (h : byteLength a = 0) : a = [] := by
  cases a with
  | nil => rfl
  | cons c a =>
    have hpos := c.utf8Size_pos
    rw [byteLength] at h
    omega

theorem byteLength_mono {a b : List Char} (h : a <+: b) : byteLength a ≤ byteLength b := by
  obtain ⟨more, rfl⟩ := h
  rw [byteLength_append]
  exact Nat.le_add_right _ _

theorem eq_of_byteLength_eq {a b : List Char} (h : a <+: b)
    (hlength : byteLength a = byteLength b) : a = b := by
  obtain ⟨more, rfl⟩ := h
  rw [byteLength_append] at hlength
  have hnone : more = [] := eq_nil_of_byteLength (by omega)
  rw [hnone, List.append_nil]

theorem lexicon_kind_inj : ∀ first ∈ lexicon, ∀ rule ∈ lexicon, rule.kind = first.kind →
    rule = first := by decide

theorem lexicon_cases : ∀ rule ∈ lexicon,
    (rule.kind ≠ .identifier ∧ rule.kind.isLiteral = false ∧ rule.whole = rule.kind.isWord ∧
      ∃ spellings, rule.shape = .spelled spellings ∧ ∀ s ∈ spellings, s ∈ rule.kind.spellings) ∨
    rule = ⟨.identifier, .word, false⟩ ∨
    rule = ⟨.unsignedLiteral, .digits "u", true⟩ ∨ rule = ⟨.integerLiteral, .digits "", true⟩ := by
  simp [lexicon, TokenKind.isLiteral, TokenKind.isWord, TokenKind.spellings]

theorem lexicon_identifier {rule : Rule} (hrule : rule ∈ lexicon) (h : rule.kind = .identifier) :
    rule = ⟨.identifier, .word, false⟩ := by
  rcases lexicon_cases rule hrule with ⟨hother, -⟩ | rfl | rfl | rfl
  · exact absurd h hother
  · rfl
  · cases h
  · cases h

theorem Shape.mem_of_split?_spelled {spellings : List String} {cs payload rest : List Char}
    (h : (Shape.spelled spellings).split? cs = some (payload, rest)) :
    String.ofList payload ∈ spellings ∧ cs = payload ++ rest := by
  obtain ⟨s, hfind, heq⟩ := Option.map_eq_some_iff.1 h
  cases heq
  have hstart := List.find?_some hfind
  rw [List.isPrefixOf_iff_prefix] at hstart
  obtain ⟨tail, rfl⟩ := hstart
  constructor
  · rw [String.ofList_toList]
    exact List.mem_of_find?_eq_some hfind
  · rw [List.drop_left]

theorem Rule.of_split?_identifier {cs payload rest : List Char}
    (h : (Rule.mk .identifier .word false).split? cs = some (payload, rest)) :
    cs = payload ++ rest ∧ payload.head?.any isWordStart = true ∧
      payload.all isWordChar = true ∧ rest.head?.any isWordChar = false := by
  have h' := (Option.filter_eq_some_iff.1 h).1
  rw [Shape.split?] at h'
  split at h'
  case isFalse => cases h'
  next hstart =>
  cases h'
  refine ⟨List.takeWhile_append_dropWhile.symm, ?_, List.all_takeWhile, head?_dropWhile_any ..⟩
  cases cs with
  | nil => cases hstart
  | cons c cs =>
    have hc : isWordChar c = true := isWordChar_of_isWordStart hstart
    simpa [hc] using hstart

theorem wordKind_cases (word : List Char) : wordKind word = .identifier ∨
    wordKind word ∈ [TokenKind.typeKeyword, .returnKeyword, .ifKeyword, .elseKeyword] := by
  unfold wordKind
  repeat' split
  all_goals simp

theorem Rule.admits_of_split? {rule : Rule} (hrule : rule ∈ lexicon)
    (hname : rule.kind ≠ .identifier) {cs payload rest : List Char}
    (h : rule.split? cs = some (payload, rest)) :
    cs = payload ++ rest ∧ rule.kind.Admits payload ∧
      (rule.kind.isWord = true → rest.head?.any isWordChar = false) := by
  rcases lexicon_cases rule hrule with ⟨-, hliteral, hwhole, spellings, hshape, hspellings⟩ |
    rfl | rfl | rfl
  · obtain ⟨hsplit, hrest⟩ := Option.filter_eq_some_iff.1 h
    rw [hshape] at hsplit
    obtain ⟨hmem, hcs⟩ := Shape.mem_of_split?_spelled hsplit
    refine ⟨hcs, (TokenKind.admits_iff_mem_spellings hname hliteral).2 (hspellings _ hmem), ?_⟩
    intro hword
    simpa [hwhole, hword] using hrest
  · exact absurd rfl hname
  · obtain ⟨hcs, hrest, hpayload⟩ := (Rule.split?_digits_eq_some (by decide)).1 h
    exact ⟨hcs, hpayload, fun _ => hrest⟩
  · obtain ⟨hcs, hrest, digits, hne, hdigits, rfl⟩ :=
      (Rule.split?_digits_eq_some (by decide)).1 h
    rw [String.toList_empty, List.append_nil] at hcs ⊢
    exact ⟨hcs, ⟨hne, hdigits⟩, fun _ => hrest⟩

theorem TokenKind.Admits.head?_isWordChar {kind : TokenKind} {payload : List Char}
    (h : kind.Admits payload) (rest : List Char) :
    (payload ++ rest).head?.any isWordChar = kind.isWord := by
  obtain ⟨c, tail, rfl⟩ := List.exists_cons_of_ne_nil h.not_blank.1
  exact h.isWord_eq.symm

section First

variable {cs payload rest : List Char} {kind : TokenKind}

theorem symbol_prefix_first (hfirst : lexemeAt? lexicon cs = some (kind, payload, rest))
    {other : TokenKind} (hother : other.isWord = false) {symbol more : List Char}
    (hsymbol : other.Admits symbol) (hcs : cs = symbol ++ more) :
    symbol <+: payload ∧ (symbol = payload → other = kind) := by
  obtain ⟨hpayload, hadmits, hrest⟩ := lexemeAt?_lexicon_eq_some.1 hfirst
  have hkind : kind.isWord = false := by
    rw [← hadmits.head?_isWordChar rest, ← hpayload, hcs, hsymbol.head?_isWordChar, hother]
  have hsame : payload <+: symbol → (kind, payload) = (other, symbol) := by
    -- The first one would read on over what a longer one has in its place.
    intro hle
    have hextend := symbols_extend _ (mem_symbols_iff.2 ⟨hkind, hadmits⟩) _
      (mem_symbols_iff.2 ⟨hother, hsymbol⟩) hle
    refine hextend.resolve_right ?_
    obtain ⟨tail, rfl⟩ := hle
    rw [hpayload, List.append_assoc, List.append_cancel_left_eq] at hcs
    rw [List.drop_left]
    cases tail with
    | nil => simp
    | cons c tail =>
      rw [hcs] at hrest
      simpa using hrest
  constructor
  · rcases List.prefix_or_prefix_of_prefix ⟨more, hcs.symm⟩ ⟨rest, hpayload.symm⟩ with hle | hle
    · exact hle
    · obtain ⟨-, rfl⟩ := Prod.mk.inj (hsame hle)
      exact List.prefix_refl _
  · rintro rfl
    exact (Prod.mk.inj (hsame (List.prefix_refl _))).1.symm

theorem word_eq_first (hfirst : lexemeAt? lexicon cs = some (kind, payload, rest))
    {other : TokenKind} (hother : other.isWord = true) {word more : List Char}
    (hword : other.Admits word) (hcs : cs = word ++ more)
    (hmore : more.head?.any isWordChar = false) : word = payload ∧ other = kind := by
  have hsame : lexemeAt? lexicon cs = some (other, word, more) := by
    rw [lexemeAt?_lexicon_eq_some, hword.absorbs_eq hother]
    exact ⟨hcs, hword, hmore⟩
  rw [hfirst] at hsame
  cases hsame
  exact ⟨rfl, rfl⟩

/-- What any rule splits off goes no further than the first that is found. Only an identifier can go
as far, where the first is a keyword. -/
theorem Rule.split?_prefix_first (hfirst : lexemeAt? lexicon cs = some (kind, payload, rest))
    {rule : Rule} (hrule : rule ∈ lexicon) {other more : List Char}
    (h : rule.split? cs = some (other, more)) :
    other <+: payload ∧ (other = payload → rule.kind = kind ∨
      rule.kind = .identifier ∧
        kind ∈ [TokenKind.typeKeyword, .returnKeyword, .ifKeyword, .elseKeyword]) := by
  by_cases hname : rule.kind = .identifier
  · -- The rule for identifiers also matches keywords, so its kind may not be that of the word.
    obtain ⟨hcs, hstart, hall, hmore⟩ :=
      Rule.of_split?_identifier (lexicon_identifier hrule hname ▸ h)
    obtain ⟨hword, -, hadmits⟩ := (wordKind_eq_iff hstart hall).1 rfl
    obtain ⟨rfl, rfl⟩ := word_eq_first hfirst hword hadmits hcs hmore
    refine ⟨List.prefix_refl _, fun _ => ?_⟩
    rcases wordKind_cases other with hkind | hkind
    · exact .inl (hname.trans hkind.symm)
    · exact .inr ⟨hname, hkind⟩
  · obtain ⟨hcs, hadmits, hmore⟩ := Rule.admits_of_split? hrule hname h
    cases hword : rule.kind.isWord with
    | false =>
      obtain ⟨hle, hkind⟩ := symbol_prefix_first hfirst hword hadmits hcs
      exact ⟨hle, fun heq => .inl (hkind heq)⟩
    | true =>
      obtain ⟨rfl, hkind⟩ := word_eq_first hfirst hword hadmits hcs (hmore hword)
      exact ⟨List.prefix_refl _, fun _ => .inl hkind⟩

theorem mem_of_firstMatch? {input : List Char} {m : Match}
    (h : firstMatch? input = some (kind, m)) :
    ∃ rule ∈ lexicon, rule.kind = kind ∧ rule.match? input = some m := by
  obtain ⟨rule, hrule, hmatch⟩ := List.exists_of_findSome?_eq_some h
  obtain ⟨m', hm, heq⟩ := Option.map_eq_some_iff.1 hmatch
  cases heq
  exact ⟨rule, hrule, rfl, hm⟩

/-- The first match is the longest one. Every rule that matches does so behind the same blanks and
takes no more bytes than the first does. Only the rule for identifiers may take as many, where the
first match is a keyword. -/
theorem firstMatch?_longest {input : List Char} {m : Match}
    (h : firstMatch? input = some (kind, m)) :
    ∃ first ∈ lexicon, first.kind = kind ∧ first.match? input = some m ∧
      m.gap = input.takeWhile isBlank ∧
      ∀ rule ∈ lexicon, ∀ other, rule.match? input = some other →
        other.gap = m.gap ∧ other.consumed ≤ m.consumed ∧
        (rule ≠ first → other.consumed = m.consumed →
          rule.kind = .identifier ∧
            kind ∈ [TokenKind.typeKeyword, .returnKeyword, .ifKeyword, .elseKeyword]) := by
  obtain ⟨first, hmem, hkind, hmatch⟩ := mem_of_firstMatch? h
  rw [firstMatch?_eq_lexemeAt?] at h
  obtain ⟨⟨_, payload, rest⟩, hfirst, heq⟩ := Option.map_eq_some_iff.1 h
  cases heq
  refine ⟨first, hmem, hkind, hmatch, rfl, ?_⟩
  intro rule hrule other hother
  rw [Rule.match?_eq_split?] at hother
  obtain ⟨⟨payload', rest'⟩, hsplit, rfl⟩ := Option.map_eq_some_iff.1 hother
  obtain ⟨hle, htie⟩ := Rule.split?_prefix_first hfirst hrule hsplit
  refine ⟨rfl, ?_, ?_⟩
  · simp only [Match.consumed, byteLength_append]
    exact Nat.add_le_add_left (byteLength_mono hle) _
  · intro hne hconsumed
    simp only [Match.consumed, byteLength_append] at hconsumed
    have hsame := eq_of_byteLength_eq hle (Nat.add_left_cancel hconsumed)
    refine (htie hsame).resolve_left ?_
    intro hrulekind
    exact hne (lexicon_kind_inj first hmem rule hrule (hrulekind.trans hkind.symm))

end First

theorem firstMatch?_longest_keyword :
    ∃ m, firstMatch? "\t uint)".toList = some (.typeKeyword, m) ∧ m.consumed = 6 ∧
      ∃ first ∈ lexicon, first.kind = .typeKeyword ∧ first.match? "\t uint)".toList = some m ∧
        m.gap = "\t uint)".toList.takeWhile isBlank ∧
        ∀ rule ∈ lexicon, ∀ other, rule.match? "\t uint)".toList = some other →
          other.gap = m.gap ∧ other.consumed ≤ m.consumed ∧
          (rule ≠ first → other.consumed = m.consumed →
            rule.kind = .identifier ∧ TokenKind.typeKeyword ∈
              [TokenKind.typeKeyword, .returnKeyword, .ifKeyword, .elseKeyword]) := by
  have hfirst : firstMatch? "\t uint)".toList =
      some (.typeKeyword, ⟨['\t', ' '], "uint".toList, [')']⟩) := by
    decide
  exact ⟨_, hfirst, rfl, firstMatch?_longest hfirst⟩

end Declang
