import Declang.Proofs.Lexeme.Symbol
namespace Declang

theorem any_isDigit_of_any_isWordChar {o : Option Char} (h : o.any isWordChar = false) :
    o.any Char.isDigit = false :=
  Bool.eq_false_iff.2 fun hdigit => by simp [any_of_imp isWordChar_of_isDigit hdigit] at h

theorem Shape.split?_spelled_eq_none {p : Char → Bool} {spellings : List String} {cs : List Char}
    (hs : ∀ s ∈ spellings, s.toList.head?.any p = true) (hcs : cs.head?.any p = false) :
    (Shape.spelled spellings).split? cs = none := by
  rw [Shape.split?, Option.map_eq_none_iff, List.find?_eq_none]
  intro s hmem hstart
  rw [List.isPrefixOf_iff_prefix] at hstart
  obtain ⟨rest, rfl⟩ := hstart
  have hhead := hs s hmem
  cases hc : s.toList with
  | nil => simp [hc] at hhead
  | cons c tail => simp_all

theorem Rule.split?_keyword (kind : TokenKind) (spellings : List String)
    (hwords : ∀ s ∈ spellings, s.toList.all isWordChar = true)
    (hfree : ∀ s ∈ spellings, ∀ t ∈ spellings, s.toList <+: t.toList → s = t)
    {word rest : List Char} (hword : word.all isWordChar = true)
    (hrest : rest.head?.any isWordChar = false) :
    (Rule.mk kind (.spelled spellings) true).split? (word ++ rest) =
      if String.ofList word ∈ spellings then some (word, rest) else none := by
  simp only [Rule.split?, Shape.split?, Bool.true_and]
  cases hfind : spellings.find? (·.toList.isPrefixOf (word ++ rest)) with
  | none =>
    rw [List.find?_eq_none] at hfind
    have hno : String.ofList word ∉ spellings := fun hmem => hfind _ hmem (by simp)
    rw [if_neg hno]
    rfl
  | some s =>
    have hmem := List.mem_of_find?_eq_some hfind
    have hstart := List.find?_some hfind
    rw [List.isPrefixOf_iff_prefix] at hstart
    have hprefix := prefix_of_run (hwords s hmem) hrest hstart
    by_cases h : String.ofList word ∈ spellings
    · have heq := hfree s hmem _ h (by simpa using hprefix)
      subst heq
      simp [Option.filter, hrest, h]
    · rw [if_neg h]
      obtain ⟨more, rfl⟩ := hprefix
      cases more with
      | nil => simp [hmem] at h
      | cons c more => simp_all [Option.filter]

theorem Rule.split?_identifier {word rest : List Char} (hstart : word.head?.any isWordStart = true)
    (hword : word.all isWordChar = true) (hrest : rest.head?.any isWordChar = false) :
    (Rule.mk .identifier .word false).split? (word ++ rest) = some (word, rest) := by
  have hhead : (word ++ rest).head?.any isWordStart = true := by
    cases word with
    | nil => simp at hstart
    | cons c word => exact hstart
  simp only [Rule.split?, Shape.split?, hhead, if_true, takeWhile_run hword hrest,
    dropWhile_run hword hrest]
  rfl

/-- The rules for keywords and identifiers. -/
def nameRules : List Rule := (lexicon.drop 18).take 5

def literalRules : List Rule := lexicon.drop 23

theorem lexemeAt?_append (rules more : List Rule) (cs : List Char) :
    lexemeAt? (rules ++ more) cs = (lexemeAt? rules cs).or (lexemeAt? more cs) :=
  List.findSome?_append

theorem lexemeAt?_lexicon (cs : List Char) :
    lexemeAt? lexicon cs =
      ((lexemeAt? symbolRules cs).or (lexemeAt? nameRules cs)).or (lexemeAt? literalRules cs) := by
  rw [← lexemeAt?_append, ← lexemeAt?_append]
  rfl

/-- The kind of a word that starts with no digit. -/
def wordKind (word : List Char) : TokenKind :=
  if String.ofList word ∈ ["uint", "int", "byte"] then .typeKeyword
  else if String.ofList word ∈ ["return"] then .returnKeyword
  else if String.ofList word ∈ ["if"] then .ifKeyword
  else if String.ofList word ∈ ["else"] then .elseKeyword
  else .identifier

theorem lexemeAt?_nameRules {word rest : List Char} (hstart : word.head?.any isWordStart = true)
    (hword : word.all isWordChar = true) (hrest : rest.head?.any isWordChar = false) :
    lexemeAt? nameRules (word ++ rest) = some (wordKind word, word, rest) := by
  have htype := Rule.split?_keyword .typeKeyword ["uint", "int", "byte"] (by decide) (by decide)
    hword hrest
  have hreturn := Rule.split?_keyword .returnKeyword ["return"] (by decide) (by decide) hword hrest
  have hif := Rule.split?_keyword .ifKeyword ["if"] (by decide) (by decide) hword hrest
  have helse := Rule.split?_keyword .elseKeyword ["else"] (by decide) (by decide) hword hrest
  have hname := Rule.split?_identifier hstart hword hrest
  simp only [lexemeAt?, nameRules, lexicon, List.drop_succ_cons, List.drop_zero,
    List.take_succ_cons, List.findSome?_cons, htype, hreturn, hif, helse, hname, wordKind]
  repeat' split
  all_goals simp_all

theorem nameRules_shape : ∀ rule ∈ nameRules, rule.shape = .word ∨
    ∃ spellings, rule.shape = .spelled spellings ∧
      ∀ s ∈ spellings, s.toList.head?.any isWordStart = true := by
  simp [nameRules, lexicon, isWordStart]

theorem lexemeAt?_nameRules_eq_none {cs : List Char} (hcs : cs.head?.any isWordStart = false) :
    lexemeAt? nameRules cs = none := by
  rw [lexemeAt?, List.findSome?_eq_none_iff]
  intro rule hrule
  have hsplit : rule.shape.split? cs = none := by
    rcases nameRules_shape rule hrule with hshape | ⟨spellings, hshape, hstart⟩
    · simp [hshape, Shape.split?, hcs]
    · rw [hshape]
      exact Shape.split?_spelled_eq_none hstart hcs
  rw [Rule.split?, hsplit]
  rfl

theorem lexemeAt?_nameRules_eq_some {cs payload rest : List Char} {kind : TokenKind} :
    lexemeAt? nameRules cs = some (kind, payload, rest) ↔
      cs = payload ++ rest ∧ payload.head?.any isWordStart = true ∧
        payload.all isWordChar = true ∧ rest.head?.any isWordChar = false ∧
        kind = wordKind payload := by
  constructor
  · intro h
    cases hcs : cs.head?.any isWordStart with
    | false =>
      rw [lexemeAt?_nameRules_eq_none hcs] at h
      cases h
    | true =>
      have hall : (cs.takeWhile isWordChar).all isWordChar = true := List.all_takeWhile
      have hrest := head?_dropWhile_any isWordChar cs
      have hstart : (cs.takeWhile isWordChar).head?.any isWordStart = true := by
        cases cs with
        | nil => simp at hcs
        | cons c cs =>
          have hc : isWordChar c = true := isWordChar_of_isWordStart (by simpa using hcs)
          simpa [hc] using hcs
      have hread := lexemeAt?_nameRules hstart hall hrest
      rw [List.takeWhile_append_dropWhile, h] at hread
      cases hread
      exact ⟨List.takeWhile_append_dropWhile.symm, hstart, hall, hrest, rfl⟩
  · rintro ⟨rfl, hstart, hall, hrest, rfl⟩
    exact lexemeAt?_nameRules hstart hall hrest

theorem wordKind_eq_iff {kind : TokenKind} {word : List Char}
    (hstart : word.head?.any isWordStart = true) (hword : word.all isWordChar = true) :
    kind = wordKind word ↔ kind.isWord = true ∧ kind.isLiteral = false ∧ kind.Admits word := by
  constructor
  · rintro rfl
    unfold wordKind
    repeat' split
    all_goals refine ⟨rfl, rfl, ?_⟩
    all_goals simp_all [TokenKind.Admits, TokenKind.spellings, IsIdentifier, keywords]
  · rintro ⟨hkind, hliteral, hadmits⟩
    have hnames : ∀ kind ∈ TokenKind.all, kind.isWord = true → kind.isLiteral = false →
        kind = .typeKeyword ∨ kind = .returnKeyword ∨ kind = .ifKeyword ∨ kind = .elseKeyword ∨
          kind = .identifier := by decide
    rcases hnames kind kind.mem_all hkind hliteral with rfl | rfl | rfl | rfl | rfl
    all_goals simp_all [TokenKind.Admits, TokenKind.spellings, IsIdentifier, keywords, wordKind]

theorem Rule.split?_digits_eq_some {kind : TokenKind} {suffix : String}
    (hsuffix : suffix.toList.head?.any Char.isDigit = false) {cs payload rest : List Char} :
    (Rule.mk kind (.digits suffix) true).split? cs = some (payload, rest) ↔
      cs = payload ++ rest ∧ rest.head?.any isWordChar = false ∧
        ∃ digits, digits ≠ [] ∧ digits.all Char.isDigit = true ∧
          payload = digits ++ suffix.toList := by
  constructor
  · intro h
    simp only [Rule.split?, Shape.split?, Option.filter_eq_some_iff] at h
    obtain ⟨h, hwhole⟩ := h
    split at h
    case isFalse => cases h
    next hstart =>
    cases h
    obtain ⟨hhead, hstart⟩ := hstart
    rw [List.isPrefixOf_iff_prefix] at hstart
    obtain ⟨tail, htail⟩ := hstart
    refine ⟨?_, by simpa using hwhole, cs.takeWhile Char.isDigit, ?_, List.all_takeWhile, rfl⟩
    · rw [← htail, List.drop_left, List.append_assoc, htail, List.takeWhile_append_dropWhile]
    · cases cs with
      | nil => simp at hhead
      | cons c cs => simp_all
  · rintro ⟨rfl, hrest, digits, hne, hdigits, rfl⟩
    have hstop : (suffix.toList ++ rest).head?.any Char.isDigit = false := by
      cases hs : suffix.toList with
      | nil =>
        exact any_isDigit_of_any_isWordChar hrest
      | cons c tail => simpa [hs] using hsuffix
    have hhead : (digits ++ (suffix.toList ++ rest)).head?.any Char.isDigit = true := by
      cases digits with
      | nil => exact absurd rfl hne
      | cons c digits => simp_all
    simp only [Rule.split?, Shape.split?, List.append_assoc, takeWhile_run hdigits hstop,
      dropWhile_run hdigits hstop, hhead, List.isPrefixOf_iff_prefix, List.prefix_append, and_self,
      if_true, List.drop_left, Option.filter_eq_some_iff, hrest]
    exact ⟨trivial, rfl⟩

theorem lexemeAt?_literalRules (cs : List Char) :
    lexemeAt? literalRules cs =
      (((Rule.mk .unsignedLiteral (.digits "u") true).split? cs).map (.unsignedLiteral, ·)).or
        (((Rule.mk .integerLiteral (.digits "") true).split? cs).map (.integerLiteral, ·)) := by
  have hlast : lexemeAt? [Rule.mk .integerLiteral (.digits "") true] cs =
      ((Rule.mk .integerLiteral (.digits "") true).split? cs).map (.integerLiteral, ·) := by
    rw [lexemeAt?, List.findSome?_cons]
    cases (Rule.mk .integerLiteral (.digits "") true).split? cs <;> rfl
  rw [← hlast, lexemeAt?, literalRules, lexicon]
  simp only [List.drop_succ_cons, List.drop_zero, List.findSome?_cons]
  cases (Rule.mk .unsignedLiteral (.digits "u") true).split? cs <;> rfl

theorem lexemeAt?_literalRules_eq_some {cs payload rest : List Char} {kind : TokenKind} :
    lexemeAt? literalRules cs = some (kind, payload, rest) ↔
      cs = payload ++ rest ∧ kind.isLiteral = true ∧ kind.Admits payload ∧
        rest.head?.any isWordChar = false := by
  rw [lexemeAt?_literalRules]
  constructor
  · intro h
    rw [Option.or_eq_some_iff] at h
    rcases h with h | ⟨-, h⟩
    · obtain ⟨⟨_, _⟩, hsplit, heq⟩ := Option.map_eq_some_iff.1 h
      cases heq
      obtain ⟨hcs, hrest, hpayload⟩ := (Rule.split?_digits_eq_some (by decide)).1 hsplit
      exact ⟨hcs, rfl, hpayload, hrest⟩
    · obtain ⟨⟨_, _⟩, hsplit, heq⟩ := Option.map_eq_some_iff.1 h
      cases heq
      obtain ⟨hcs, hrest, digits, hne, hdigits, rfl⟩ :=
        (Rule.split?_digits_eq_some (by decide)).1 hsplit
      rw [String.toList_empty, List.append_nil] at hcs ⊢
      exact ⟨hcs, rfl, ⟨hne, hdigits⟩, hrest⟩
  · rintro ⟨rfl, hkind, hpayload, hrest⟩
    rcases TokenKind.isLiteral_iff.1 hkind with rfl | rfl
    · have hunsigned : (Rule.mk .unsignedLiteral (.digits "u") true).split? (payload ++ rest) =
          some (payload, rest) :=
        (Rule.split?_digits_eq_some (by decide)).2 ⟨rfl, hrest, hpayload⟩
      rw [hunsigned]
      rfl
    · obtain ⟨hne, hdigits⟩ := hpayload
      have hsigned : (Rule.mk .integerLiteral (.digits "") true).split? (payload ++ rest) =
          some (payload, rest) :=
        (Rule.split?_digits_eq_some (by decide)).2 ⟨rfl, hrest, payload, hne, hdigits, by simp⟩
      have hunsigned : (Rule.mk .unsignedLiteral (.digits "u") true).split? (payload ++ rest) =
          none := by
        -- The digits would have to end before a suffix, which is a word character.
        cases h : (Rule.mk .unsignedLiteral (.digits "u") true).split? (payload ++ rest) with
        | none => rfl
        | some parts =>
          obtain ⟨hcs, -, digits, -, hdigits', heq⟩ := (Rule.split?_digits_eq_some (by decide)).1 h
          rw [heq, List.append_assoc] at hcs
          obtain ⟨-, rfl⟩ := run_inj hdigits (any_isDigit_of_any_isWordChar hrest) hdigits'
            (by simp) hcs
          simp [isWordChar] at hrest
      rw [hunsigned, hsigned]
      rfl

theorem lexemeAt?_lexicon_eq_some {cs payload rest : List Char} {kind : TokenKind} :
    lexemeAt? lexicon cs = some (kind, payload, rest) ↔
      cs = payload ++ rest ∧ kind.Admits payload ∧
        rest.head?.any (kind.absorbs payload) = false := by
  rw [lexemeAt?_lexicon]
  constructor
  · intro h
    rw [Option.or_eq_some_iff, Option.or_eq_some_iff] at h
    rcases h with (h | ⟨-, h⟩) | ⟨-, h⟩
    · obtain ⟨hmem, hcs, hrest⟩ := lexemeAt?_symbolRules_eq_some.1 h
      exact ⟨hcs, (mem_symbols_iff.1 hmem).2, hrest⟩
    · obtain ⟨hcs, hstart, hall, hrest, hkind⟩ := lexemeAt?_nameRules_eq_some.1 h
      obtain ⟨hword, -, hadmits⟩ := (wordKind_eq_iff hstart hall).1 hkind
      exact ⟨hcs, hadmits, hadmits.absorbs_eq hword ▸ hrest⟩
    · obtain ⟨hcs, hliteral, hadmits, hrest⟩ := lexemeAt?_literalRules_eq_some.1 h
      have hword : kind.isWord = true := by
        rcases TokenKind.isLiteral_iff.1 hliteral with rfl | rfl <;> rfl
      exact ⟨hcs, hadmits, hadmits.absorbs_eq hword ▸ hrest⟩
  · rintro ⟨rfl, hadmits, hrest⟩
    cases hword : kind.isWord with
    | false =>
      have hmem := mem_symbols_iff.2 ⟨hword, hadmits⟩
      rw [lexemeAt?_symbolRules_eq_some.2 ⟨hmem, rfl, hrest⟩]
      rfl
    | true =>
      rw [hadmits.absorbs_eq hword] at hrest
      have hhead : (payload ++ rest).head?.any isWordChar = true := by
        have hpayload := (hadmits.word hword).1
        cases payload with
        | nil => cases hpayload
        | cons c payload => exact hpayload
      rw [lexemeAt?_symbolRules_eq_none hhead, Option.none_or]
      cases hliteral : kind.isLiteral with
      | false =>
        obtain ⟨hstart, hall⟩ := hadmits.name hword hliteral
        have hkind := (wordKind_eq_iff hstart hall).2 ⟨hword, hliteral, hadmits⟩
        rw [lexemeAt?_nameRules_eq_some.2 ⟨rfl, hstart, hall, hrest, hkind⟩]
        rfl
      | true =>
        have hdigit : (payload ++ rest).head?.any isWordStart = false := by
          have hpayload := (hadmits.literal hliteral).1
          cases payload with
          | nil => cases hpayload
          | cons c payload => exact isWordStart_eq_false_of_isDigit hpayload
        rw [lexemeAt?_nameRules_eq_none hdigit, Option.none_or]
        exact lexemeAt?_literalRules_eq_some.2 ⟨rfl, hliteral, hadmits, hrest⟩

/-- The first match takes all blanks, then a text of its kind up to where it could not go on. -/
theorem firstMatch?_eq_some_iff {input : List Char} {kind : TokenKind} {m : Match} :
    firstMatch? input = some (kind, m) ↔
      input = m.gap ++ (m.payload ++ m.rest) ∧ m.gap.all isBlank = true ∧ kind.Admits m.payload ∧
        m.rest.head?.any (kind.absorbs m.payload) = false := by
  rw [firstMatch?_eq_lexemeAt?, Option.map_eq_some_iff]
  constructor
  · rintro ⟨⟨kind, payload, rest⟩, h, heq⟩
    cases heq
    obtain ⟨hcs, hadmits, hrest⟩ := lexemeAt?_lexicon_eq_some.1 h
    refine ⟨?_, List.all_takeWhile, hadmits, hrest⟩
    rw [← hcs]
    exact List.takeWhile_append_dropWhile.symm
  · rintro ⟨rfl, hgap, hadmits, hrest⟩
    have hstop : (m.payload ++ m.rest).head?.any isBlank = false := by
      obtain ⟨hne, hpayload⟩ := hadmits.not_blank
      cases hm : m.payload with
      | nil => exact absurd hm hne
      | cons c payload => exact hpayload c (by simp [hm])
    refine ⟨(kind, m.payload, m.rest), ?_, by rw [takeWhile_run hgap hstop]⟩
    rw [skipBlanks, dropWhile_run hgap hstop]
    exact lexemeAt?_lexicon_eq_some.2 ⟨rfl, hadmits, hrest⟩

end Declang
