import Declang.Proofs.Lexeme
namespace Declang

section Runs
variable {p : Char → Bool} {cs rest : List Char}

theorem takeWhile_run (hcs : cs.all p = true) (hrest : rest.head?.any p = false) :
    (cs ++ rest).takeWhile p = cs := by
  rw [List.takeWhile_append_of_pos (List.all_eq_true.1 hcs)]
  cases rest with
  | nil => simp
  | cons c rest => simp_all

theorem dropWhile_run (hcs : cs.all p = true) (hrest : rest.head?.any p = false) :
    (cs ++ rest).dropWhile p = rest := by
  rw [List.dropWhile_append_of_pos (List.all_eq_true.1 hcs)]
  cases rest with
  | nil => rfl
  | cons c rest => simp_all

theorem head?_dropWhile_any (p : Char → Bool) (cs : List Char) :
    (cs.dropWhile p).head?.any p = false := by
  have h := List.head?_dropWhile_not p cs
  cases hd : (cs.dropWhile p).head? <;> simp_all

theorem run_inj {ds more : List Char} (hcs : cs.all p = true)
    (hrest : rest.head?.any p = false) (hds : ds.all p = true) (hmore : more.head?.any p = false)
    (h : cs ++ rest = ds ++ more) : cs = ds ∧ rest = more :=
  ⟨by rw [← takeWhile_run hcs hrest, h, takeWhile_run hds hmore],
    by rw [← dropWhile_run hcs hrest, h, dropWhile_run hds hmore]⟩

theorem prefix_of_run {s : List Char} (hs : s.all p = true)
    (hrest : rest.head?.any p = false) (h : s <+: cs ++ rest) : s <+: cs := by
  rcases List.prefix_or_prefix_of_prefix h (List.prefix_append cs rest) with hle | hle
  · exact hle
  · obtain ⟨more, rfl⟩ := hle
    rw [List.prefix_append_right_inj] at h
    cases more with
    | nil => simp
    | cons c more =>
      obtain ⟨tail, rfl⟩ := h
      simp_all

end Runs

/-- Splits off the lexeme of a rule, without blanks before it. -/
def Rule.split? (rule : Rule) (cs : List Char) : Option (List Char × List Char) :=
  (rule.shape.split? cs).filter fun (_, rest) => !(rule.whole && rest.head?.any isWordChar)

/-- What the first rule that applies splits off. -/
def lexemeAt? (rules : List Rule) (cs : List Char) : Option (TokenKind × List Char × List Char) :=
  rules.findSome? fun rule => (rule.split? cs).map (rule.kind, ·)

theorem Rule.match?_eq_split? (rule : Rule) (input : List Char) :
    rule.match? input = (rule.split? (skipBlanks input)).map
      fun (payload, rest) => ⟨input.takeWhile isBlank, payload, rest⟩ := by
  unfold Rule.match? Rule.split?
  cases rule.shape.split? (skipBlanks input) with
  | none => rfl
  | some parts =>
    by_cases h : (rule.whole && parts.2.head?.any isWordChar) = true
    · simp [h, Option.filter]
    · simp [h, Option.filter]

theorem firstMatch?_eq_lexemeAt? (input : List Char) :
    firstMatch? input = (lexemeAt? lexicon (skipBlanks input)).map
      fun (kind, payload, rest) => (kind, ⟨input.takeWhile isBlank, payload, rest⟩) := by
  simp only [firstMatch?, lexemeAt?, Rule.match?_eq_split?, List.map_findSome?]
  congr 1
  funext rule
  simp [Function.comp_def]

/-- The rules for symbols come first. -/
def symbolRules : List Rule := lexicon.take 18

/-- The texts of a rule that lists them. -/
def Rule.spellings (rule : Rule) : List (List Char) :=
  match rule.shape with
  | .spelled spellings => spellings.map String.toList
  | _ => []

/-- All symbols with their kinds, in the order in which they are tried. -/
def symbols : List (TokenKind × List Char) :=
  symbolRules.flatMap fun rule => rule.spellings.map (rule.kind, ·)

theorem symbolRules_spelled : ∀ rule ∈ symbolRules,
    rule.whole = false ∧ ∃ spellings, rule.shape = .spelled spellings := by
  simp [symbolRules, lexicon]

theorem Rule.split?_spelled {rule : Rule} {spellings : List String} (hwhole : rule.whole = false)
    (hshape : rule.shape = .spelled spellings) (cs : List Char) :
    (rule.split? cs).map (rule.kind, ·) =
      ((rule.spellings.map (rule.kind, ·)).find? (·.2.isPrefixOf cs)).map
        fun (kind, s) => (kind, s, cs.drop s.length) := by
  simp only [Rule.split?, Rule.spellings, hwhole, hshape, Shape.split?, List.map_map,
    List.find?_map, Option.map_map, Bool.false_and, Bool.not_false, Function.comp_def]
  cases spellings.find? fun s => s.toList.isPrefixOf cs with
  | none => rfl
  | some s => rfl

theorem lexemeAt?_spelled {rules : List Rule}
    (h : ∀ rule ∈ rules, rule.whole = false ∧ ∃ spellings, rule.shape = .spelled spellings)
    (cs : List Char) :
    lexemeAt? rules cs =
      ((rules.flatMap fun rule => rule.spellings.map (rule.kind, ·)).find?
        (·.2.isPrefixOf cs)).map fun (kind, s) => (kind, s, cs.drop s.length) := by
  induction rules with
  | nil => rfl
  | cons rule rules ih =>
    obtain ⟨⟨hwhole, spellings, hshape⟩, hrules⟩ := List.forall_mem_cons.1 h
    have hrest := ih hrules
    rw [lexemeAt?] at hrest ⊢
    rw [List.findSome?_cons, List.flatMap_cons, List.find?_append, Option.map_or, ← hrest,
      ← Rule.split?_spelled hwhole hshape]
    cases rule.split? cs <;> rfl

theorem symbols_pairwise : symbols.Pairwise fun s t => ¬ s.2 <+: t.2 := by decide

theorem symbols_extend : ∀ s ∈ symbols, ∀ t ∈ symbols, s.2 <+: t.2 →
    s = t ∨ (t.2.drop s.2.length).head?.any (s.1.absorbs s.2) = true := by decide

theorem symbols_absorb {s : TokenKind × List Char} (hs : s ∈ symbols) {c : Char}
    (hc : c ∈ ['=', '&', '|']) (habsorbs : s.1.absorbs s.2 c = true) :
    s.2 ++ [c] ∈ symbols.map Prod.snd := by
  have hall : ∀ s ∈ symbols, (['=', '&', '|'].all fun c =>
      !s.1.absorbs s.2 c || (symbols.map Prod.snd).contains (s.2 ++ [c])) = true := by decide
  have hlonger := List.all_eq_true.1 (hall s hs) c hc
  rw [habsorbs, Bool.not_true, Bool.false_or] at hlonger
  exact List.contains_iff_mem.1 hlonger

theorem absorbs_symbol {kind : TokenKind} (h : kind.isWord = false) {cs : List Char} {c : Char}
    (hc : kind.absorbs cs c = true) : c ∈ ['=', '&', '|'] := by
  simp only [TokenKind.absorbs, h, Bool.false_and, Bool.false_or, Bool.or_eq_true,
    Bool.and_eq_true, beq_iff_eq] at hc
  rcases hc with (⟨-, rfl⟩ | ⟨-, rfl⟩) | ⟨-, rfl⟩ <;> simp

theorem symbols_not_word : ∀ s ∈ symbols, s.1.isWord = false := by decide

/-- The first symbol that fits is the longest one. -/
theorem lexemeAt?_symbolRules_eq_some {cs payload rest : List Char} {kind : TokenKind} :
    lexemeAt? symbolRules cs = some (kind, payload, rest) ↔
      (kind, payload) ∈ symbols ∧ cs = payload ++ rest ∧
        rest.head?.any (kind.absorbs payload) = false := by
  rw [lexemeAt?_spelled symbolRules_spelled, Option.map_eq_some_iff]
  change (∃ s, symbols.find? _ = some s ∧ _) ↔ _
  constructor
  · rintro ⟨⟨kind', s⟩, hfind, heq⟩
    cases heq
    obtain ⟨hstart, before, after, hsymbols, hbefore⟩ := List.find?_eq_some_iff_append.1 hfind
    have hmem := List.mem_of_find?_eq_some hfind
    obtain ⟨rest, rfl⟩ := List.isPrefixOf_iff_prefix.1 hstart
    refine ⟨hmem, by simp, ?_⟩
    rw [List.drop_left]
    cases rest with
    | nil => rfl
    | cons c rest =>
      -- A longer symbol would have been tried before this one.
      refine Bool.eq_false_iff.2 fun habsorbs => ?_
      rw [List.head?_cons, Option.any_some] at habsorbs
      have hc := absorbs_symbol (symbols_not_word _ hmem) habsorbs
      obtain ⟨longer, hlonger, hspelled⟩ := List.mem_map.1 (symbols_absorb hmem hc habsorbs)
      have hordered := symbols_pairwise
      rw [hsymbols, List.pairwise_append, List.pairwise_cons] at hordered
      rw [hsymbols, List.mem_append, List.mem_cons] at hlonger
      rcases hlonger with hlonger | rfl | hlonger
      · have hno := hbefore _ hlonger
        rw [hspelled, Bool.not_eq_true', ← Bool.not_eq_true, List.isPrefixOf_iff_prefix] at hno
        exact hno ⟨rest, by simp⟩
      · simp at hspelled
      · exact hordered.2.1.1 _ hlonger (hspelled ▸ List.prefix_append _ _)
  · rintro ⟨hmem, rfl, hrest⟩
    cases hfind : symbols.find? (·.2.isPrefixOf (payload ++ rest)) with
    | none =>
      have hno := List.find?_eq_none.1 hfind _ hmem
      simp at hno
    | some found =>
      obtain ⟨hstart, before, after, hsymbols, hbefore⟩ := List.find?_eq_some_iff_append.1 hfind
      have hfound := List.mem_of_find?_eq_some hfind
      suffices (kind, payload) = found by
        subst this
        exact ⟨_, rfl, by simp⟩
      have hordered := symbols_pairwise
      rw [hsymbols, List.pairwise_append, List.pairwise_cons] at hordered
      have hplace := hmem
      rw [hsymbols, List.mem_append, List.mem_cons] at hplace
      rcases hplace with hplace | hplace | hplace
      · have hno := hbefore _ hplace
        rw [Bool.not_eq_true', ← Bool.not_eq_true, List.isPrefixOf_iff_prefix] at hno
        exact absurd (List.prefix_append _ _) hno
      · exact hplace
      · obtain ⟨tail, htail⟩ := List.isPrefixOf_iff_prefix.1 hstart
        have hshorter := (List.prefix_or_prefix_of_prefix ⟨tail, htail⟩
          (List.prefix_append payload rest)).resolve_left (hordered.2.1.1 _ hplace)
        refine (symbols_extend _ hmem _ hfound hshorter).resolve_right ?_
        obtain ⟨more, hmore⟩ := hshorter
        rw [← hmore, List.append_assoc, List.append_cancel_left_eq] at htail
        rw [← hmore, List.drop_left]
        cases more with
        | nil => simp
        | cons c more =>
          rw [← htail] at hrest
          simpa using hrest

theorem mem_symbols_iff {kind : TokenKind} {payload : List Char} :
    (kind, payload) ∈ symbols ↔ kind.isWord = false ∧ kind.Admits payload := by
  have hsymbols : ∀ s ∈ symbols, s.1.isWord = false ∧ String.ofList s.2 ∈ s.1.spellings := by decide
  have hspellings : ∀ kind ∈ TokenKind.all, kind.isWord = false →
      ∀ text ∈ kind.spellings, (kind, text.toList) ∈ symbols := by decide
  constructor
  · intro hmem
    obtain ⟨hkind, htext⟩ := hsymbols _ hmem
    exact ⟨hkind, (TokenKind.admits_iff_of_not_word hkind).2 htext⟩
  · rintro ⟨hkind, hpayload⟩
    have htext := (TokenKind.admits_iff_of_not_word hkind).1 hpayload
    simpa using hspellings kind kind.mem_all hkind _ htext

theorem lexemeAt?_symbolRules_eq_none {cs : List Char} (hcs : cs.head?.any isWordChar = true) :
    lexemeAt? symbolRules cs = none := by
  have hsymbols : ∀ s ∈ symbols, s.2.head?.any (!isWordChar ·) = true := by decide
  cases h : lexemeAt? symbolRules cs with
  | none => rfl
  | some parts =>
    obtain ⟨hmem, rfl, -⟩ := lexemeAt?_symbolRules_eq_some.1 h
    have hhead := hsymbols _ hmem
    cases hpayload : parts.2.1 with
    | nil => simp [hpayload] at hhead
    | cons c payload => simp_all

end Declang
