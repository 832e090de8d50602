import Mathlib.Algebra.Group.Nat.Defs
import Declang.Proofs.Lexeme.Layout
namespace Declang

/-- What the first line of a text holds, without the blanks around it. -/
def lineRest (cs : List Char) : List Char :=
  trimBlanks (cs.takeWhile (· ≠ '\n'))

/-- The error of a text that starts with no token, on the line `line`. -/
inductive FailsAt (line : Nat) : LexError → List Char → Prop where
  | unmatched {cs : List Char} (no_match : firstMatch? cs = none) :
    FailsAt line (.unmatched line (String.ofList (lineRest cs))) cs
  | malformed {kind : TokenKind} {word rest : List Char} {fault : LiteralFault}
    (admits : kind.Admits word) (stops : rest.head?.any (kind.absorbs word) = false)
    (undecoded : kind.decode (String.ofList word) = .error fault) :
    FailsAt line (.malformed line (String.ofList word) fault) (word ++ rest)

/-- A text that holds tokens up to a point where there is none, with the error of that point. The
text starts on the line `line`. -/
inductive Broken : Nat → LexError → List Char → Prop where
  | here {line : Nat} {gap rest : List Char} {error : LexError} (blank : gap.all isBlank = true)
    (start : rest.head?.any (!isBlank ·) = true)
    (fails : FailsAt (line + gap.count '\n') error rest) : Broken line error (gap ++ rest)
  | cons {line : Nat} {gap : List Char} {token : Token} {rest : List Char} {error : LexError}
    (blank : gap.all isBlank = true) (valid : token.lexeme.Valid)
    (numbered : token.line = line + gap.count '\n')
    (stops : rest.head?.any (token.kind.absorbs token.text.toList) = false)
    (broken : Broken token.line error rest) :
    Broken line error (gap ++ (token.text.toList ++ rest))

theorem head?_any_skipBlanks {cs : List Char} (h : skipBlanks cs ≠ []) :
    (skipBlanks cs).head?.any (!isBlank ·) = true := by
  have hhead : (skipBlanks cs).head?.any isBlank = false := head?_dropWhile_any isBlank cs
  cases hcs : skipBlanks cs with
  | nil => exact absurd hcs h
  | cons c cs => simpa [hcs] using hhead

theorem exists_cons_of_start {cs : List Char} (h : cs.head?.any (!isBlank ·) = true) :
    ∃ c rest, cs = c :: rest ∧ isBlank c = false := by
  cases cs with
  | nil => cases h
  | cons c rest => exact ⟨c, rest, rfl, by simpa using h⟩

theorem not_blank_of_start {cs : List Char} (h : cs.head?.any (!isBlank ·) = true) :
    cs ≠ [] ∧ cs.head?.any isBlank = false := by
  obtain ⟨c, rest, rfl, hc⟩ := exists_cons_of_start h
  exact ⟨List.cons_ne_nil c rest, hc⟩

theorem TokenKind.Admits.head?_append {kind : TokenKind} {cs : List Char} (h : kind.Admits cs)
    (rest : List Char) : (cs ++ rest).head?.any (!isBlank ·) = true := by
  obtain ⟨hne, hblank⟩ := h.not_blank
  cases cs with
  | nil => exact absurd rfl hne
  | cons c cs => simpa using hblank c

theorem Broken.of_lexText {line : Nat} {cs : List Char} {error : LexError}
    (h : lexText line cs = .error error) : Broken line error cs := by
  fun_induction lexText line cs with
  | case1 => cases h
  | case2 line cs hblank hnone =>
    cases h
    -- The rules skip the blanks, the error is about what follows them.
    have hsplit : cs.takeWhile isBlank ++ skipBlanks cs = cs := List.takeWhile_append_dropWhile
    have hgap : (cs.takeWhile isBlank).all isBlank = true := List.all_takeWhile
    have hrest : firstMatch? (skipBlanks cs) = none := by
      have hmatch := firstMatch?_append_left hgap (skipBlanks cs)
      rw [hsplit, hnone] at hmatch
      exact Option.map_eq_none_iff.1 hmatch.symm
    have hbroken : Broken line _ (cs.takeWhile isBlank ++ skipBlanks cs) :=
      .here hgap (head?_any_skipBlanks hblank) (.unmatched hrest)
    rwa [hsplit] at hbroken
  | case3 line cs hblank kind m hsome ih =>
    obtain ⟨rfl, hgap, hadmits, hstop⟩ := firstMatch?_eq_some_iff.1 hsome
    rcases except_bind_eq_error_iff.1 h with hmake | ⟨token, hmake, hrest⟩
    · obtain ⟨fault, hdecode, rfl⟩ := Token.make_eq_error_iff.1 hmake
      exact .here hgap (hadmits.head?_append _) (.malformed hadmits hstop hdecode)
    · obtain ⟨rfl, htext, hline⟩ := Token.make_eq_ok_iff.1 hmake
      have hpayload : m.payload = token.text.toList := by rw [htext, String.toList_ofList]
      rcases except_bind_eq_error_iff.1 hrest with hlater | ⟨_, _, hreturn⟩
      · rw [hpayload] at hadmits hstop ⊢
        exact .cons hgap (token.lexeme_valid_iff.2 hadmits) hline hstop (hline ▸ ih hlater)
      · cases hreturn

theorem FailsAt.lexText_eq {line : Nat} {error : LexError} {cs : List Char}
    (h : FailsAt line error cs) (hstart : cs.head?.any (!isBlank ·) = true) :
    lexText line cs = .error error := by
  cases h with
  | unmatched hnone =>
    obtain ⟨hne, hhead⟩ := not_blank_of_start hstart
    have hskip := skipBlanks_eq_self hhead
    have hgap : cs.takeWhile isBlank = [] := takeWhile_run List.all_nil hhead
    rw [lexText_of_no_match (hskip.symm ▸ hne) hnone, hskip, hgap]
    rfl
  | @malformed kind word rest fault hadmits hstop hdecode =>
    have hmatch : firstMatch? (word ++ rest) = some (kind, ⟨[], word, rest⟩) :=
      firstMatch?_eq_some_iff.2 ⟨rfl, rfl, hadmits, hstop⟩
    have hmake : Token.make kind (String.ofList word) line = .error _ :=
      Token.make_eq_error_iff.2 ⟨fault, hdecode, rfl⟩
    rw [lexText_of_match hmatch]
    exact except_bind_eq_error_iff.2 (.inl hmake)

theorem Broken.lexText_eq {line : Nat} {error : LexError} {cs : List Char}
    (h : Broken line error cs) : lexText line cs = .error error := by
  induction h with
  | here hgap hstart hfails =>
    rw [lexText_append_left hgap, hfails.lexText_eq hstart]
  | cons hgap hvalid hline hstop _ ih =>
    rw [lexText_cons hgap hvalid hline hstop, ih]
    rfl

/-- A digit run of a value that no literal of its form has. -/
def Oversized (cs : List Char) : Prop :=
  ∃ digits, digits ≠ [] ∧ digits.all Char.isDigit = true ∧
    (cs = digits ∧ 2 ^ 31 - 1 < decimalValue digits ∨
      cs = digits ++ ['u'] ∧ 2 ^ 32 - 1 < decimalValue digits)

theorem decodeBelow_eq_error {bound : Nat} {digits : List Char} {fault : LiteralFault}
    (hne : digits ≠ []) (hdigits : digits.all Char.isDigit = true)
    (h : decodeBelow bound digits = .error fault) :
    fault = .tooLarge ∧ bound ≤ decimalValue digits := by
  rw [decodeBelow, readDigits?, if_pos ⟨hne, hdigits⟩] at h
  dsimp only at h
  split at h
  case isTrue => cases h
  next hvalue =>
  cases h
  exact ⟨rfl, Nat.le_of_not_lt hvalue⟩

/-- The rules and the decoder agree on what a literal is: a text of a literal's form is refused for
its value only. -/
theorem TokenKind.Admits.oversized {kind : TokenKind} {cs : List Char} {fault : LiteralFault}
    (h : kind.Admits cs) (hdecode : kind.decode (String.ofList cs) = .error fault) :
    fault = .tooLarge ∧ Oversized cs := by
  cases kind
  case integerLiteral =>
    obtain ⟨hne, hdigits⟩ := h
    rw [TokenKind.decode, String.toList_ofList, except_map_eq_error_iff, decodeSigned,
      except_map_eq_error_iff] at hdecode
    obtain ⟨hfault, hvalue⟩ := decodeBelow_eq_error hne hdigits hdecode
    exact ⟨hfault, cs, hne, hdigits, .inl ⟨rfl, hvalue⟩⟩
  case unsignedLiteral =>
    obtain ⟨digits, hne, hdigits, rfl⟩ := h
    rw [TokenKind.decode, String.toList_ofList, except_map_eq_error_iff, decodeUnsigned,
      if_pos List.getLast?_concat, List.dropLast_concat, except_map_eq_error_iff] at hdecode
    obtain ⟨hfault, hvalue⟩ := decodeBelow_eq_error hne hdigits hdecode
    exact ⟨hfault, digits, hne, hdigits, .inr ⟨rfl, hvalue⟩⟩
  all_goals cases hdecode

theorem lines_head? (cs : List Char) : (lines cs)[0]? = some (cs.takeWhile (· ≠ '\n')) := by
  induction cs with
  | nil => rfl
  | cons c cs ih =>
    by_cases hc : c = '\n'
    · simp [lines, hc]
    · simp [lines, hc, List.getElem?_modifyHead, ih]

theorem exists_lines_getElem? (before cs : List Char) :
    ∃ start, (lines (before ++ cs))[before.count '\n']? =
      some (start ++ cs.takeWhile (· ≠ '\n')) := by
  induction before with
  | nil => exact ⟨[], lines_head? cs⟩
  | cons c before ih =>
    obtain ⟨start, hstart⟩ := ih
    by_cases hc : c = '\n'
    · subst hc
      refine ⟨start, ?_⟩
      rw [List.cons_append, lines, if_pos rfl, List.count_cons_self, List.getElem?_cons_succ]
      exact hstart
    · rw [List.cons_append, lines, if_neg hc, List.count_cons_of_ne hc, List.getElem?_modifyHead,
        hstart]
      split_ifs
      · exact ⟨c :: start, rfl⟩
      · exact ⟨start, rfl⟩

theorem exists_trimBlanks_of_start {cs : List Char} (h : cs.head?.any (!isBlank ·) = true) :
    ∃ tail, cs = trimBlanks cs ++ tail ∧ tail.all isBlank = true ∧
      (trimBlanks cs).head?.any (!isBlank ·) = true ∧
      (trimBlanks cs).getLast?.any isBlank = false := by
  obtain ⟨gap, tail, hcs, hgap, htail, hlast⟩ := exists_trimBlanks cs
  generalize trimBlanks cs = word at *
  subst hcs
  cases gap with
  | cons c gap => simp_all
  | nil =>
    cases word with
    | cons c word => exact ⟨tail, rfl, htail, h, hlast⟩
    | nil =>
      cases tail with
      | nil => cases h
      | cons c tail => simp_all

theorem start_line {cs : List Char} (h : cs.head?.any (!isBlank ·) = true) :
    (cs.takeWhile (· ≠ '\n')).head?.any (!isBlank ·) = true := by
  obtain ⟨c, rest, rfl, hc⟩ := exists_cons_of_start h
  have hnewline : c ≠ '\n' := by
    rintro rfl
    exact absurd hc (by decide)
  simpa [hnewline] using hc

theorem start_lineRest {cs : List Char} (h : cs.head?.any (!isBlank ·) = true) :
    (lineRest cs).head?.any (!isBlank ·) = true := by
  obtain ⟨-, -, -, hhead, -⟩ := exists_trimBlanks_of_start (start_line h)
  exact hhead

theorem exists_lineRest {cs : List Char} (h : cs.head?.any (!isBlank ·) = true) :
    ∃ after, cs = lineRest cs ++ after ∧
      cs.takeWhile (· ≠ '\n') = lineRest cs ++ after.takeWhile (· ≠ '\n') ∧
      (after.takeWhile (· ≠ '\n')).all isBlank = true := by
  obtain ⟨tail, hline, htail, -⟩ := exists_trimBlanks_of_start (start_line h)
  change _ = lineRest cs ++ tail at hline
  have hall : (cs.takeWhile (· ≠ '\n')).all (· ≠ '\n') = true := List.all_takeWhile
  rw [hline, List.all_append, Bool.and_eq_true] at hall
  have hafter : (tail ++ cs.dropWhile (· ≠ '\n')).takeWhile (· ≠ '\n') = tail :=
    takeWhile_run hall.2 (head?_dropWhile_any _ cs)
  refine ⟨tail ++ cs.dropWhile (· ≠ '\n'), ?_, ?_, ?_⟩
  · rw [← List.append_assoc, ← hline, List.takeWhile_append_dropWhile]
  · rw [hafter, hline]
  · rw [hafter, htail]

theorem suffix_trimBlanks {word tail : List Char} (hhead : word.head?.any (!isBlank ·) = true)
    (hlast : word.getLast?.any isBlank = false) (htail : tail.all isBlank = true)
    (start : List Char) : word <:+ trimBlanks (start ++ (word ++ tail)) := by
  obtain ⟨gap, core, rfl, hgap, hcore⟩ : ∃ gap core, start = gap ++ core ∧
      gap.all isBlank = true ∧ core.head?.any isBlank = false :=
    ⟨_, _, List.takeWhile_append_dropWhile.symm, List.all_takeWhile,
      head?_dropWhile_any isBlank start⟩
  obtain ⟨hne, hhead⟩ := not_blank_of_start hhead
  have hword : (core ++ word).head?.any isBlank = false := by
    cases core with
    | nil => exact hhead
    | cons c core => exact hcore
  have hend : (core ++ word).getLast?.any isBlank = false := by
    rw [List.getLast?_append_of_ne_nil core hne]
    exact hlast
  have htrim : trimBlanks (gap ++ ((core ++ word) ++ tail)) = core ++ word :=
    trimBlanks_eq hgap htail hword hend
  rw [List.append_assoc, ← List.append_assoc core, htrim]
  exact List.suffix_append core word

/-- The place right after the text `before`: it is on the line `line`, and `rest` is what the
trimmed line holds from there on. -/
structure IsPlace (source before : List Char) (line : Nat) (rest : List Char) : Prop where
  number : line = 1 + before.count '\n'
  text : ∃ after, source = before ++ (rest ++ after) ∧
    (after.takeWhile (· ≠ '\n')).all isBlank = true
  suffix : ∃ whole, (lines source)[line - 1]? = some whole ∧ rest <:+ trimBlanks whole

theorem isPlace_lineRest {cs : List Char} (h : cs.head?.any (!isBlank ·) = true)
    (before : List Char) :
    IsPlace (before ++ cs) before (1 + before.count '\n') (lineRest cs) := by
  obtain ⟨-, -, -, hhead, hlast⟩ := exists_trimBlanks_of_start (start_line h)
  obtain ⟨after, hcs, hline, hafter⟩ := exists_lineRest h
  obtain ⟨start, hstart⟩ := exists_lines_getElem? before cs
  constructor
  · rfl
  · exact ⟨after, by rw [← hcs], hafter⟩
  · refine ⟨_, by rw [Nat.add_sub_cancel_left]; exact hstart, ?_⟩
    rw [hline]
    exact suffix_trimBlanks hhead hlast hafter start

theorem exists_firstMatch?_lineRest {cs : List Char} (h : cs.head?.any (!isBlank ·) = true) :
    ∃ after, firstMatch? cs = (firstMatch? (lineRest cs)).map
      fun (kind, m) => (kind, { m with rest := m.rest ++ after }) := by
  obtain ⟨hne, hblank⟩ := not_blank_of_start (start_lineRest h)
  rw [← skipBlanks_eq_self hblank] at hne
  obtain ⟨after, hcs, -, hafter⟩ := exists_lineRest h
  refine ⟨after, ?_⟩
  rw [← firstMatch?_append_right hne (head?_all_isBlank hafter), ← hcs]

/-- A text breaks off after the tokens before the place that has none. Without the rest, those
tokens are all there is. -/
theorem Broken.exists_place {line : Nat} {error : LexError} {cs : List Char}
    (h : Broken line error cs) :
    ∃ before rest tokens, cs = before ++ rest ∧ Laid line tokens before ∧
      rest.head?.any (!isBlank ·) = true ∧ FailsAt (line + before.count '\n') error rest := by
  induction h with
  | @here line gap rest error hgap hstart hfails =>
    exact ⟨gap, rest, [], rfl, .nil hgap, hstart, hfails⟩
  | @cons line gap token _ error hgap hvalid hline hstop _ ih =>
    obtain ⟨before, rest, tokens, rfl, hlaid, hstart, hfails⟩ := ih
    -- The end of `before` cuts off its last token as the rest did.
    refine ⟨gap ++ (token.text.toList ++ before), rest, token :: tokens, by simp,
      .cons hgap hvalid hline (head?_any_of_append hstop) hlaid, hstart, ?_⟩
    rw [Token.count_newline_append hvalid, ← Nat.add_assoc, ← hline]
    exact hfails

theorem exists_place_of_lex {source : String} {error : LexError} (h : lex source = .error error) :
    ∃ before rest tokens, source.toList = before ++ rest ∧
      lex (String.ofList before) = .ok tokens ∧ rest.head?.any (!isBlank ·) = true ∧
      FailsAt (1 + before.count '\n') error rest := by
  rw [lex_eq_lexText] at h
  obtain ⟨before, rest, tokens, hsource, hlaid, hplace⟩ := (Broken.of_lexText h).exists_place
  refine ⟨before, rest, tokens, hsource, ?_, hplace⟩
  rw [lex_eq_lexText, String.toList_ofList]
  exact hlaid.lexText_eq

/-- An error tells exactly what is wrong. A remainder is the rest of its trimmed line and no rule
applies to it; a malformed text is a literal of too large a value where it stands. What comes before
either of them has tokens. -/
theorem lex_error_exact (source : String) :
    (∀ n r, lex source = .error (.unmatched n r) →
      ∃ before, IsPlace source.toList before n r.toList ∧
        (∃ c cs, r.toList = c :: cs ∧ isBlank c = false) ∧ firstMatch? r.toList = none ∧
        ∃ tokens, lex (String.ofList before) = .ok tokens) ∧
    ∀ n t fault, lex source = .error (.malformed n t fault) →
      Oversized t.toList ∧ fault = .tooLarge ∧
        ∃ before rest, IsPlace source.toList before n rest ∧
          (∃ kind m, firstMatch? rest = some (kind, m) ∧ m.gap = [] ∧ m.payload = t.toList) ∧
          ∃ tokens, lex (String.ofList before) = .ok tokens := by
  constructor
  · intro n r h
    obtain ⟨before, rest, tokens, hsource, hlex, hstart, hfails⟩ := exists_place_of_lex h
    cases hfails with
    | unmatched hnone =>
      obtain ⟨after, hmatch⟩ := exists_firstMatch?_lineRest hstart
      rw [hnone] at hmatch
      rw [hsource, String.toList_ofList]
      exact ⟨before, isPlace_lineRest hstart before, exists_cons_of_start (start_lineRest hstart),
        Option.map_eq_none_iff.1 hmatch.symm, tokens, hlex⟩
  · intro n t fault h
    obtain ⟨before, rest, tokens, hsource, hlex, hstart, hfails⟩ := exists_place_of_lex h
    cases hfails with
    | @malformed kind word rest _ hadmits hstop hdecode =>
      obtain ⟨hfault, hsize⟩ := hadmits.oversized hdecode
      have hword : firstMatch? (word ++ rest) = some (kind, ⟨[], word, rest⟩) :=
        firstMatch?_eq_some_iff.2 ⟨rfl, rfl, hadmits, hstop⟩
      obtain ⟨after, hmatch⟩ := exists_firstMatch?_lineRest hstart
      rw [hword] at hmatch
      obtain ⟨⟨kind', gap, payload, more⟩, hline, heq⟩ := Option.map_eq_some_iff.1 hmatch.symm
      cases heq
      rw [hsource, String.toList_ofList]
      exact ⟨hsize, hfault, before, _, isPlace_lineRest hstart before, ⟨_, _, hline, rfl, rfl⟩,
        tokens, hlex⟩

theorem lex_error_exact_samples :
    (lex "int a;\r\n\t 5u  $x " = .error (.unmatched 2 "$x") ∧
      ∃ before, IsPlace "int a;\r\n\t 5u  $x ".toList before 2 "$x".toList ∧
        (∃ c cs, "$x".toList = c :: cs ∧ isBlank c = false) ∧ firstMatch? "$x".toList = none ∧
        ∃ tokens, lex (String.ofList before) = .ok tokens) ∧
    lex "int a;\n 5u 2147483648 b" = .error (.malformed 2 "2147483648" .tooLarge) ∧
      Oversized "2147483648".toList ∧ LiteralFault.tooLarge = .tooLarge ∧
        ∃ before rest, IsPlace "int a;\n 5u 2147483648 b".toList before 2 rest ∧
          (∃ kind m, firstMatch? rest = some (kind, m) ∧ m.gap = [] ∧
            m.payload = "2147483648".toList) ∧
          ∃ tokens, lex (String.ofList before) = .ok tokens := by
  have hunmatched : lex "int a;\r\n\t 5u  $x " = .error (.unmatched 2 "$x") := by decide +kernel
  have hmalformed : lex "int a;\n 5u 2147483648 b" =
      .error (.malformed 2 "2147483648" .tooLarge) := by decide +kernel
  exact ⟨⟨hunmatched, (lex_error_exact _).1 _ _ hunmatched⟩,
    hmalformed, (lex_error_exact _).2 _ _ _ hmalformed⟩

end Declang
