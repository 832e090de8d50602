import Declang.Proofs.Lexeme.FirstMatch
namespace Declang

/-- The tokens of a text in one pass, where a newline is a blank that is counted. An error shows the
rest of its line. -/
def lexText (line : Nat) (cs : List Char) : Except LexError (List Token) :=
  if skipBlanks cs = [] then .ok []
  else
    match _hmatch : firstMatch? cs with
    | none =>
      .error (.unmatched (line + (cs.takeWhile isBlank).count '\n')
        (String.ofList (trimBlanks ((skipBlanks cs).takeWhile (· ≠ '\n')))))
    | some (kind, m) => do
      let token ← Token.make kind (String.ofList m.payload) (line + m.gap.count '\n')
      let tokens ← lexText (line + m.gap.count '\n') m.rest
      return token :: tokens
termination_by cs.length
decreasing_by exact firstMatch?_rest_lt (by assumption)

theorem lexText_of_blank {cs : List Char} (h : skipBlanks cs = []) (line : Nat) :
    lexText line cs = .ok [] := by
  rw [lexText, if_pos h]

theorem lexText_of_match {cs : List Char} {kind : TokenKind} {m : Match}
    (h : firstMatch? cs = some (kind, m)) (line : Nat) :
    lexText line cs = do
      let token ← Token.make kind (String.ofList m.payload) (line + m.gap.count '\n')
      let tokens ← lexText (line + m.gap.count '\n') m.rest
      return token :: tokens := by
  have hblank : skipBlanks cs ≠ [] := by
    intro hnil
    rw [firstMatch?_eq_lexemeAt?, hnil, Option.map_eq_some_iff] at h
    obtain ⟨⟨kind, payload, rest⟩, h, -⟩ := h
    obtain ⟨heq, hadmits, -⟩ := lexemeAt?_lexicon_eq_some.1 h
    exact hadmits.not_blank.1 (List.append_eq_nil_iff.1 heq.symm).1
  rw [lexText, if_neg hblank]
  split
  · next hnone => simp [hnone] at h
  · next hsome =>
    rw [h] at hsome
    cases hsome
    rfl

theorem lexText_of_no_match {cs : List Char} (hblank : skipBlanks cs ≠ [])
    (h : firstMatch? cs = none) (line : Nat) :
    lexText line cs = .error (.unmatched (line + (cs.takeWhile isBlank).count '\n')
      (String.ofList (trimBlanks ((skipBlanks cs).takeWhile (· ≠ '\n'))))) := by
  rw [lexText, if_neg hblank]
  split
  · rfl
  · next hsome => simp [h] at hsome

theorem skipBlanks_eq_self {cs : List Char} (h : cs.head?.any isBlank = false) :
    skipBlanks cs = cs :=
  dropWhile_run List.all_nil h

theorem skipBlanks_eq_nil {cs : List Char} : skipBlanks cs = [] ↔ cs.all isBlank = true := by
  constructor
  · intro h
    have hsplit : cs.takeWhile isBlank ++ skipBlanks cs = cs := List.takeWhile_append_dropWhile
    rw [h, List.append_nil] at hsplit
    rw [← hsplit]
    exact List.all_takeWhile
  · intro h
    simpa [skipBlanks] using @dropWhile_run isBlank cs [] h rfl

theorem skipBlanks_ne_nil {cs : List Char} (hne : cs ≠ [])
    (hlast : cs.getLast?.any isBlank = false) : skipBlanks cs ≠ [] := by
  rw [Ne, skipBlanks_eq_nil, List.all_eq_true]
  intro hblank
  simp [List.getLast?_eq_some_getLast hne, hblank _ (List.getLast_mem hne)] at hlast

theorem getLast?_any_of_append {p : Char → Bool} {cs rest : List Char}
    (h : (cs ++ rest).getLast?.any p = false) : rest.getLast?.any p = false := by
  rw [List.getLast?_append] at h
  cases hrest : rest.getLast? with
  | none => rfl
  | some c => simpa [hrest] using h

theorem head?_any_of_append {p : Char → Bool} {cs rest : List Char}
    (h : (cs ++ rest).head?.any p = false) : cs.head?.any p = false := by
  cases cs with
  | nil => rfl
  | cons c cs => exact h

theorem skipBlanks_append {gap : List Char} (hgap : gap.all isBlank = true) (cs : List Char) :
    skipBlanks (gap ++ cs) = skipBlanks cs :=
  List.dropWhile_append_of_pos (List.all_eq_true.1 hgap)

theorem trimBlanks_eq {before cs after : List Char} (hbefore : before.all isBlank = true)
    (hafter : after.all isBlank = true) (hhead : cs.head?.any isBlank = false)
    (hlast : cs.getLast?.any isBlank = false) : trimBlanks (before ++ (cs ++ after)) = cs := by
  rw [trimBlanks, skipBlanks_append hbefore]
  cases cs with
  | nil =>
    rw [List.nil_append, skipBlanks_eq_nil.2 hafter]
    rfl
  | cons c cs =>
    have hhead' : (c :: cs ++ after).head?.any isBlank = false := hhead
    rw [skipBlanks_eq_self hhead', List.reverse_append,
      skipBlanks_append (by rwa [List.all_reverse]),
      skipBlanks_eq_self (by rwa [List.head?_reverse]), List.reverse_reverse]

theorem exists_trimBlanks (cs : List Char) :
    ∃ before after, cs = before ++ (trimBlanks cs ++ after) ∧
      before.all isBlank = true ∧ after.all isBlank = true ∧
      (trimBlanks cs).getLast?.any isBlank = false := by
  refine ⟨cs.takeWhile isBlank, ((skipBlanks cs).reverse.takeWhile isBlank).reverse, ?_,
    List.all_takeWhile, by rw [List.all_reverse]; exact List.all_takeWhile, ?_⟩
  · rw [trimBlanks, ← List.reverse_append]
    change cs = _ ++ (_ ++ List.dropWhile _ _).reverse
    rw [List.takeWhile_append_dropWhile, List.reverse_reverse]
    exact List.takeWhile_append_dropWhile.symm
  · rw [trimBlanks, List.getLast?_reverse]
    exact head?_dropWhile_any isBlank _

theorem firstMatch?_append_left {gap : List Char} (hgap : gap.all isBlank = true)
    (cs : List Char) :
    firstMatch? (gap ++ cs) =
      (firstMatch? cs).map fun (kind, m) => (kind, { m with gap := gap ++ m.gap }) := by
  rw [firstMatch?_eq_lexemeAt?, firstMatch?_eq_lexemeAt?, skipBlanks_append hgap,
    List.takeWhile_append_of_pos (List.all_eq_true.1 hgap), Option.map_map]
  rfl

theorem lexText_append_left {gap : List Char} (hgap : gap.all isBlank = true) (line : Nat)
    (cs : List Char) : lexText line (gap ++ cs) = lexText (line + gap.count '\n') cs := by
  by_cases hblank : skipBlanks cs = []
  · rw [lexText_of_blank hblank, lexText_of_blank (by rwa [skipBlanks_append hgap])]
  have hmatch := firstMatch?_append_left hgap cs
  cases h : firstMatch? cs with
  | none =>
    rw [h, Option.map_none] at hmatch
    rw [lexText_of_no_match hblank h, lexText_of_no_match (by rwa [skipBlanks_append hgap]) hmatch,
      skipBlanks_append hgap, List.takeWhile_append_of_pos (List.all_eq_true.1 hgap),
      List.count_append, Nat.add_assoc]
  | some found =>
    rw [h, Option.map_some] at hmatch
    rw [lexText_of_match h, lexText_of_match hmatch, List.count_append, Nat.add_assoc]

theorem TokenKind.absorbs_blank (kind : TokenKind) (cs : List Char) {c : Char}
    (h : isBlank c = true) : kind.absorbs cs c = false := by
  have hword : isWordChar c = false :=
    Bool.eq_false_iff.2 fun hword => by simp [isBlank_eq_false_of_isWordChar hword] at h
  have hsymbol : ∀ s ∈ ['=', '&', '|'], (c == s) = false := by
    have hsymbols : ['=', '&', '|'].any isBlank = false := by decide
    intro s hs
    refine beq_false_of_ne ?_
    rintro rfl
    exact List.any_eq_false.1 hsymbols c hs h
  simp only [List.mem_cons, List.not_mem_nil, or_false, forall_eq_or_imp, forall_eq] at hsymbol
  simp [TokenKind.absorbs, hword, hsymbol]

theorem TokenKind.stops_append {kind : TokenKind} {word cs rest : List Char}
    (hcs : cs.head?.any (kind.absorbs word) = false) (hrest : rest.head?.all isBlank = true) :
    (cs ++ rest).head?.any (kind.absorbs word) = false := by
  cases cs with
  | cons c cs => exact hcs
  | nil =>
    cases rest with
    | nil => rfl
    | cons c rest => exact kind.absorbs_blank _ hrest

theorem firstMatch?_append_right {cs rest : List Char} (hne : skipBlanks cs ≠ [])
    (hrest : rest.head?.all isBlank = true) :
    firstMatch? (cs ++ rest) =
      (firstMatch? cs).map fun (kind, m) => (kind, { m with rest := m.rest ++ rest }) := by
  cases h : firstMatch? cs with
  | some found =>
    obtain ⟨kind, m⟩ := found
    obtain ⟨rfl, hgap, hadmits, hstop⟩ := firstMatch?_eq_some_iff.1 h
    rw [Option.map_some, firstMatch?_eq_some_iff]
    exact ⟨by simp, hgap, hadmits, TokenKind.stops_append hstop hrest⟩
  | none =>
    rw [Option.map_none]
    cases hlong : firstMatch? (cs ++ rest) with
    | none => rfl
    | some found =>
      obtain ⟨kind, m⟩ := found
      obtain ⟨heq, hgap, hadmits, hstop⟩ := firstMatch?_eq_some_iff.1 hlong
      -- The match ends inside `cs`: its text has no blanks, and starts where `cs` has none.
      suffices hinside : ∃ tail, cs = m.gap ++ (m.payload ++ tail) ∧ m.rest = tail ++ rest by
        obtain ⟨tail, hcs, htail⟩ := hinside
        have hshort : firstMatch? cs = some (kind, { m with rest := tail }) := by
          rw [htail] at hstop
          exact firstMatch?_eq_some_iff.2 ⟨hcs, hgap, hadmits, head?_any_of_append hstop⟩
        simp [h] at hshort
      rw [List.append_eq_append_iff] at heq
      rcases heq with ⟨more, hmore, -⟩ | ⟨word, hcs, heq⟩
      · rw [hmore, List.all_append, Bool.and_eq_true] at hgap
        exact absurd (skipBlanks_eq_nil.2 hgap.1) hne
      · rw [List.append_eq_append_iff] at heq
        rcases heq with ⟨tail, hword, hm⟩ | ⟨tail, hpayload, hm⟩
        · exact ⟨tail, by rw [hcs, hword], hm⟩
        · cases tail with
          | nil => exact ⟨[], by simp [hcs, hpayload], by simp [hm]⟩
          | cons c tail =>
            have hc := hadmits.not_blank.2 c (by simp [hpayload])
            simp [hm, hc] at hrest

theorem lexText_append_of_no_match {cs rest : List Char} (hne : cs ≠ [])
    (hlast : cs.getLast?.any isBlank = false) (hnewline : '\n' ∉ cs)
    (hrest : (rest.takeWhile (· ≠ '\n')).all isBlank = true)
    (hnone : firstMatch? (cs ++ rest) = none) (line : Nat) :
    lexText line (cs ++ rest) = .error (.unmatched line (String.ofList (skipBlanks cs))) := by
  have hsplit : cs.takeWhile isBlank ++ skipBlanks cs = cs := List.takeWhile_append_dropWhile
  have hgap : (cs.takeWhile isBlank).all isBlank = true := List.all_takeWhile
  have hhead : (skipBlanks cs).head?.any isBlank = false := head?_dropWhile_any isBlank cs
  have hword := skipBlanks_ne_nil hne hlast
  have hstop : (skipBlanks cs ++ rest).head?.any isBlank = false := by
    cases hcs : skipBlanks cs with
    | nil => exact absurd hcs hword
    | cons c word => simpa [hcs] using hhead
  have htake : (cs ++ rest).takeWhile isBlank = cs.takeWhile isBlank := by
    rw [← takeWhile_run hgap hstop, ← List.append_assoc, hsplit]
  have hskip : skipBlanks (cs ++ rest) = skipBlanks cs ++ rest := by
    rw [skipBlanks, ← dropWhile_run hgap hstop, ← List.append_assoc, hsplit]
  have hcount : (cs.takeWhile isBlank).count '\n' = 0 :=
    List.count_eq_zero.2 fun hmem => hnewline (List.takeWhile_subset _ hmem)
  have hline : ∀ c ∈ skipBlanks cs, (c ≠ '\n' : Bool) = true := fun c hc =>
    decide_eq_true fun heq => hnewline (heq ▸ List.dropWhile_subset _ hc)
  have hlast' : (skipBlanks cs).getLast?.any isBlank = false := by
    rw [← hsplit] at hlast
    exact getLast?_any_of_append hlast
  rw [lexText_of_no_match (by simp [hskip, hword]) hnone, htake, hcount, hskip,
    List.takeWhile_append_of_pos hline, Nat.add_zero]
  rw [← List.nil_append (skipBlanks cs ++ _), trimBlanks_eq List.all_nil hrest hhead hlast']

theorem head?_all_isBlank {rest : List Char}
    (h : (rest.takeWhile (· ≠ '\n')).all isBlank = true) : rest.head?.all isBlank = true := by
  cases rest with
  | nil => rfl
  | cons c rest =>
    by_cases hc : c = '\n'
    · subst hc
      exact (by decide : isBlank '\n' = true)
    · simp_all

/-- The tokens of a trimmed line come first, whatever stands on the lines after it. -/
theorem lexText_append_right {cs rest : List Char} (hlast : cs.getLast?.any isBlank = false)
    (hnewline : '\n' ∉ cs) (hrest : (rest.takeWhile (· ≠ '\n')).all isBlank = true) (line : Nat) :
    lexText line (cs ++ rest) = do
      let tokens ← lexLine line cs
      let later ← lexText line rest
      return tokens ++ later := by
  have hhead := head?_all_isBlank hrest
  fun_induction lexLine line cs with
  | case1 =>
    rw [List.nil_append]
    cases lexText line rest <;> rfl
  | case2 cs hne hnone =>
    have hlong := firstMatch?_append_right (skipBlanks_ne_nil hne hlast) hhead
    rw [hnone, Option.map_none] at hlong
    rw [lexText_append_of_no_match hne hlast hnewline hrest hlong]
    rfl
  | case3 cs hne kind m hsome ih =>
    have hlong := firstMatch?_append_right (skipBlanks_ne_nil hne hlast) hhead
    rw [hsome, Option.map_some] at hlong
    obtain ⟨hcs, -, -, -⟩ := firstMatch?_eq_some_iff.1 hsome
    have hgap : m.gap.count '\n' = 0 :=
      List.count_eq_zero.2 fun hmem => hnewline (by simp [hcs, hmem])
    have hnewline' : '\n' ∉ m.rest := fun hmem => hnewline (by simp [hcs, hmem])
    have hlast' : m.rest.getLast?.any isBlank = false := by
      rw [hcs, ← List.append_assoc] at hlast
      exact getLast?_any_of_append hlast
    rw [lexText_of_match hlong, hgap, Nat.add_zero, ih hlast' hnewline']
    simp only [bind_assoc, pure_bind, List.cons_append]

theorem lines_of_not_mem {cs : List Char} (h : '\n' ∉ cs) : lines cs = [cs] := by
  induction cs with
  | nil => rfl
  | cons c cs ih =>
    rw [List.mem_cons, not_or] at h
    obtain ⟨hc, hcs⟩ := h
    rw [lines, if_neg (Ne.symm hc), ih hcs]
    rfl

theorem lines_append {cs : List Char} (h : '\n' ∉ cs) (more : List Char) :
    lines (cs ++ '\n' :: more) = cs :: lines more := by
  induction cs with
  | nil => simp [lines]
  | cons c cs ih =>
    rw [List.mem_cons, not_or] at h
    obtain ⟨hc, hcs⟩ := h
    rw [List.cons_append, lines, if_neg (Ne.symm hc), ih hcs]
    rfl

theorem exists_line (cs : List Char) :
    ∃ line, '\n' ∉ line ∧ (cs = line ∨ ∃ more, cs = line ++ '\n' :: more) := by
  induction cs with
  | nil => exact ⟨[], by simp, .inl rfl⟩
  | cons c cs ih =>
    by_cases hc : c = '\n'
    · exact ⟨[], by simp, .inr ⟨cs, by simp [hc]⟩⟩
    · obtain ⟨line, hline, heq | ⟨more, rfl⟩⟩ := ih
      · exact ⟨c :: line, by simp [hline, Ne.symm hc], .inl (by rw [heq])⟩
      · exact ⟨c :: line, by simp [hline, Ne.symm hc], .inr ⟨more, rfl⟩⟩

theorem lexText_line {cs rest : List Char} (hnewline : '\n' ∉ cs)
    (hrest : rest.head?.all (· = '\n') = true) (line : Nat) :
    lexText line (cs ++ rest) = do
      let tokens ← lexLine line (trimBlanks cs)
      let later ← lexText line rest
      return tokens ++ later := by
  obtain ⟨before, after, hcs, hbefore, hafter, hlast⟩ := exists_trimBlanks cs
  have hparts : '\n' ∉ before ∧ '\n' ∉ trimBlanks cs ∧ '\n' ∉ after := by
    rw [hcs, List.mem_append, List.mem_append, not_or, not_or] at hnewline
    exact hnewline
  obtain ⟨hbefore', htrim, hafter'⟩ := hparts
  have hrest' : ((after ++ rest).takeWhile (· ≠ '\n')).all isBlank = true := by
    have hline : ∀ c ∈ after, decide (c ≠ '\n') = true := fun c hc =>
      decide_eq_true fun heq => hafter' (heq ▸ hc)
    rw [List.takeWhile_append_of_pos hline, List.all_append, hafter]
    cases rest with
    | nil => rfl
    | cons c rest =>
      have hc : c = '\n' := by simpa using hrest
      simp [hc]
  have htext : cs ++ rest = before ++ (trimBlanks cs ++ (after ++ rest)) := by
    rw [← List.append_assoc (trimBlanks cs), ← List.append_assoc before, ← hcs]
  rw [htext, lexText_append_left hbefore, List.count_eq_zero.2 hbefore', Nat.add_zero,
    lexText_append_right hlast htrim hrest', lexText_append_left hafter,
    List.count_eq_zero.2 hafter', Nat.add_zero]

/-- Lines do not matter to the tokens but for their numbers. -/
theorem lexLines_lines (line : Nat) (cs : List Char) :
    lexLines line (lines cs) = lexText line cs := by
  -- Induction on the length, as what follows a line is no structural part of the text.
  induction hn : cs.length using Nat.strongRecOn generalizing line cs with
  | ind n ih =>
    obtain ⟨first, hfirst, rfl | ⟨more, rfl⟩⟩ := exists_line cs
    · have hread := @lexText_line cs [] hfirst rfl line
      rw [List.append_nil] at hread
      rw [lines_of_not_mem hfirst, hread, lexText_of_blank rfl]
      rfl
    · have hread := @lexText_line first ('\n' :: more) hfirst rfl line
      have hlater := ih more.length (by simp [← hn]; omega) (line + 1) more rfl
      have hskip := @lexText_append_left ['\n'] (by decide) line more
      rw [List.singleton_append, List.count_singleton_self] at hskip
      rw [lines_append hfirst, hread, lexLines, hlater, hskip]

theorem lex_eq_lexText (source : String) : lex source = lexText 1 source.toList :=
  lexLines_lines 1 source.toList

end Declang
