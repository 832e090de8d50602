import Mathlib.Data.List.Chain
import Declang.Proofs.Lexeme.Text
import Declang.Proofs.Literal
namespace Declang

theorem Token.lexeme_valid_iff (token : Token) :
    token.lexeme.Valid ↔ token.kind.Admits token.text.toList := by
  obtain ⟨kind, text, line, literal, hdecoded⟩ := token
  cases kind
  case unsignedLiteral =>
    refine ⟨fun _ => ?_, fun _ => ⟨literal, hdecoded⟩⟩
    obtain ⟨_, hvalue, -⟩ := except_map_eq_ok_iff.1 hdecoded
    obtain ⟨digits, htext, ⟨hne, hdigits⟩, -, -⟩ := decodeUnsigned_eq_ok_iff.1 hvalue
    exact ⟨digits, hne, hdigits, htext⟩
  case integerLiteral =>
    refine ⟨fun _ => ?_, fun _ => ⟨literal, hdecoded⟩⟩
    obtain ⟨_, hvalue, -⟩ := except_map_eq_ok_iff.1 hdecoded
    exact (decodeSigned_eq_ok_iff.1 hvalue).1
  all_goals simp [Token.lexeme, Lexeme.Valid, TokenKind.Admits]

theorem Lexeme.Valid.exists_token {lexeme : Lexeme} (h : lexeme.Valid) (line : Nat) :
    ∃ token : Token, token.lexeme = lexeme ∧ token.line = line := by
  obtain ⟨kind, text⟩ := lexeme
  have hdecoded : ∃ literal, kind.decode text = .ok literal := by
    cases kind
    case unsignedLiteral => exact h
    case integerLiteral => exact h
    all_goals exact ⟨none, rfl⟩
  obtain ⟨literal, hdecoded⟩ := hdecoded
  exact ⟨⟨kind, text, line, literal, hdecoded⟩, rfl, rfl⟩

theorem Lexeme.Valid.admits {lexeme : Lexeme} (h : lexeme.Valid) :
    lexeme.kind.Admits lexeme.text.toList := by
  obtain ⟨token, rfl, -⟩ := h.exists_token 1
  exact token.lexeme_valid_iff.1 h

/-- A text that holds these tokens, with blanks around them. The text starts on the line `line`. -/
inductive Laid : Nat → List Token → List Char → Prop where
  | nil {line : Nat} {tail : List Char} (blank : tail.all isBlank = true) : Laid line [] tail
  | cons {line : Nat} {gap : List Char} {token : Token} {tokens : List Token} {rest : List Char}
    (blank : gap.all isBlank = true) (valid : token.lexeme.Valid)
    (numbered : token.line = line + gap.count '\n')
    (stops : rest.head?.any (token.kind.absorbs token.text.toList) = false)
    (laid : Laid token.line tokens rest) :
    Laid line (token :: tokens) (gap ++ (token.text.toList ++ rest))

theorem Laid.of_lexText {line : Nat} {cs : List Char} {tokens : List Token}
    (h : lexText line cs = .ok tokens) : Laid line tokens cs := by
  fun_induction lexText line cs generalizing tokens with
  | case1 line cs hblank =>
    cases h
    exact .nil (skipBlanks_eq_nil.1 hblank)
  | case2 => cases h
  | case3 line cs hblank kind m hsome ih =>
    obtain ⟨token, hmake, h⟩ := except_bind_eq_ok_iff.1 h
    obtain ⟨later, hlater, h⟩ := except_bind_eq_ok_iff.1 h
    cases h
    obtain ⟨rfl, htext, hline⟩ := Token.make_eq_ok_iff.1 hmake
    obtain ⟨rfl, hgap, hadmits, hstop⟩ := firstMatch?_eq_some_iff.1 hsome
    have hpayload : m.payload = token.text.toList := by rw [htext, String.toList_ofList]
    rw [hpayload] at hadmits hstop ⊢
    exact .cons hgap (token.lexeme_valid_iff.2 hadmits) hline hstop (hline ▸ ih hlater)

theorem lexText_cons {line : Nat} {gap rest : List Char} {token : Token}
    (hgap : gap.all isBlank = true) (hvalid : token.lexeme.Valid)
    (hline : token.line = line + gap.count '\n')
    (hstop : rest.head?.any (token.kind.absorbs token.text.toList) = false) :
    lexText line (gap ++ (token.text.toList ++ rest)) =
      (lexText token.line rest).map (token :: ·) := by
  have hmatch : firstMatch? (gap ++ (token.text.toList ++ rest)) =
      some (token.kind, ⟨gap, token.text.toList, rest⟩) :=
    firstMatch?_eq_some_iff.2 ⟨rfl, hgap, token.lexeme_valid_iff.1 hvalid, hstop⟩
  have hmake : Token.make token.kind (String.ofList token.text.toList) (line + gap.count '\n') =
      .ok token := by
    rw [String.ofList_toList, ← hline]
    exact Token.make_eq_ok_iff.2 ⟨rfl, rfl, rfl⟩
  rw [lexText_of_match hmatch, hmake, ← hline]
  cases lexText token.line rest <;> rfl

theorem Laid.lexText_eq {line : Nat} {cs : List Char} {tokens : List Token}
    (h : Laid line tokens cs) : lexText line cs = .ok tokens := by
  induction h with
  | nil hblank => exact lexText_of_blank (skipBlanks_eq_nil.2 hblank) _
  | cons hgap hvalid hline hstop _ ih =>
    rw [lexText_cons hgap hvalid hline hstop, ih]
    rfl

theorem Lexeme.sticks_iff {left right : Lexeme} (h : right.kind.Admits right.text.toList) :
    left.Sticks right ↔
      right.text.toList.head?.any (left.kind.absorbs left.text.toList) = true := by
  have hword := h.isWord_eq
  obtain ⟨hne, -⟩ := h.not_blank
  cases hright : right.text.toList with
  | nil => exact absurd hright hne
  | cons c cs =>
    rw [hright] at hword
    simp [Lexeme.Sticks, TokenKind.absorbs, hright, hword, ← String.toList_inj, or_assoc]

/-- Blanks and lexemes in turn. -/
def spread (pieces : List (List Char × Lexeme)) : List Char :=
  pieces.flatMap fun (gap, lexeme) => gap ++ lexeme.text.toList

/-- The text before the lexeme number `i`. -/
def textBefore (pieces : List (List Char × Lexeme)) (i : Nat) : List Char :=
  spread (pieces.take i) ++ (pieces[i]?.elim [] Prod.fst)

/-- Only blanks stand around the lexemes, and some of them between two lexemes that `joins`. -/
structure Spaced (joins : Lexeme → Lexeme → Prop) (pieces : List (List Char × Lexeme))
    (tail : List Char) : Prop where
  blank : ∀ piece ∈ pieces, piece.1.all isBlank = true
  blank_tail : tail.all isBlank = true
  apart : pieces.IsChain fun left right => joins left.2 right.2 → right.1 ≠ []

theorem Lexeme.stops_iff {left right : Lexeme} {gap rest : List Char}
    (hright : right.kind.Admits right.text.toList) (hgap : gap.all isBlank = true) :
    (gap ++ (right.text.toList ++ rest)).head?.any (left.kind.absorbs left.text.toList) = false ↔
      (left.Sticks right → gap ≠ []) := by
  cases gap with
  | nil =>
    rw [Lexeme.sticks_iff hright]
    cases htext : right.text.toList with
    | nil => exact absurd htext hright.not_blank.1
    | cons c cs => simp
  | cons c gap =>
    rw [List.all_cons, Bool.and_eq_true] at hgap
    simp [left.kind.absorbs_blank _ hgap.1]

theorem spread_cons (gap : List Char) (lexeme : Lexeme) (pieces : List (List Char × Lexeme)) :
    spread ((gap, lexeme) :: pieces) = gap ++ (lexeme.text.toList ++ spread pieces) := by
  simp [spread]

theorem textBefore_cons_zero (piece : List Char × Lexeme) (pieces : List (List Char × Lexeme)) :
    textBefore (piece :: pieces) 0 = piece.1 := by
  simp [textBefore, spread]

theorem textBefore_cons_succ (gap : List Char) (lexeme : Lexeme)
    (pieces : List (List Char × Lexeme)) (i : Nat) :
    textBefore ((gap, lexeme) :: pieces) (i + 1) =
      gap ++ (lexeme.text.toList ++ textBefore pieces i) := by
  simp [textBefore, spread_cons]

theorem Token.count_newline {token : Token} (h : token.lexeme.Valid) :
    token.text.toList.count '\n' = 0 := by
  have hblank := (token.lexeme_valid_iff.1 h).not_blank.2
  refine List.count_eq_zero.2 fun hmem => ?_
  exact absurd (hblank _ hmem) (by decide)

theorem Token.count_newline_append {token : Token} (h : token.lexeme.Valid) (gap rest : List Char) :
    (gap ++ (token.text.toList ++ rest)).count '\n' = gap.count '\n' + rest.count '\n' := by
  rw [List.count_append, List.count_append, Token.count_newline h, Nat.zero_add]

theorem Spaced.of_cons {joins : Lexeme → Lexeme → Prop} {piece : List Char × Lexeme}
    {pieces : List (List Char × Lexeme)} {tail : List Char}
    (h : Spaced joins (piece :: pieces) tail) : Spaced joins pieces tail :=
  ⟨fun p hp => h.blank p (List.mem_cons_of_mem _ hp), h.blank_tail, h.apart.tail⟩

theorem Spaced.stops {gap : List Char} {lexeme : Lexeme} {pieces : List (List Char × Lexeme)}
    {tail : List Char} (h : Spaced Lexeme.Sticks ((gap, lexeme) :: pieces) tail)
    (hvalid : ∀ piece ∈ pieces, piece.2.Valid) :
    (spread pieces ++ tail).head?.any (lexeme.kind.absorbs lexeme.text.toList) = false := by
  cases pieces with
  | nil =>
    have htail := h.blank_tail
    cases tail with
    | nil => rfl
    | cons c tail =>
      rw [List.all_cons, Bool.and_eq_true] at htail
      exact lexeme.kind.absorbs_blank _ htail.1
  | cons next pieces =>
    obtain ⟨gap', next⟩ := next
    have hnext := (hvalid _ (List.mem_cons_self ..)).admits
    have hgap := h.blank (gap', next) (by simp)
    rw [spread_cons, List.append_assoc, List.append_assoc]
    exact (Lexeme.stops_iff hnext hgap).2 (List.isChain_cons_cons.1 h.apart).1

theorem Laid.of_spaced {pieces : List (List Char × Lexeme)} {tail : List Char} {tokens : List Token}
    {line : Nat} (hspaced : Spaced Lexeme.Sticks pieces tail)
    (htokens : tokens.map Token.lexeme = pieces.map Prod.snd)
    (hvalid : ∀ piece ∈ pieces, piece.2.Valid)
    (hline : ∀ i (h : i < tokens.length),
      tokens[i].line = line + (textBefore pieces i).count '\n') :
    Laid line tokens (spread pieces ++ tail) := by
  induction pieces generalizing tokens line with
  | nil =>
    cases List.map_eq_nil_iff.1 htokens
    exact .nil hspaced.blank_tail
  | cons piece pieces ih =>
    obtain ⟨gap, lexeme⟩ := piece
    cases tokens with
    | nil => cases htokens
    | cons token tokens =>
      obtain ⟨rfl, hlater⟩ := List.cons.inj htokens
      obtain ⟨hfirst, hvalid⟩ := List.forall_mem_cons.1 hvalid
      have hgap := hspaced.blank _ (List.mem_cons_self ..)
      have hnumber : token.line = line + gap.count '\n' := by
        have h := hline 0 (Nat.zero_lt_succ _)
        rwa [textBefore_cons_zero] at h
      rw [spread_cons, List.append_assoc, List.append_assoc]
      refine .cons hgap hfirst hnumber (hspaced.stops hvalid) (ih hspaced.of_cons hlater hvalid ?_)
      intro i hi
      have h := hline (i + 1) (Nat.succ_lt_succ hi)
      rw [textBefore_cons_succ, List.count_append, List.count_append, Token.lexeme,
        Token.count_newline hfirst, Nat.zero_add, ← Nat.add_assoc, ← hnumber] at h
      exact h

theorem Laid.exists_spaced {line : Nat} {tokens : List Token} {cs : List Char}
    (h : Laid line tokens cs) : ∃ pieces tail, cs = spread pieces ++ tail ∧
      tokens.map Token.lexeme = pieces.map Prod.snd ∧ Spaced Lexeme.Sticks pieces tail ∧
      (∀ token ∈ tokens, token.lexeme.Valid) ∧
      ∀ i (h : i < tokens.length), tokens[i].line = line + (textBefore pieces i).count '\n' := by
  induction h with
  | @nil line tail hblank =>
    refine ⟨[], tail, rfl, rfl, ⟨by simp, hblank, .nil⟩, by simp, fun i hi => ?_⟩
    cases hi
  | @cons line gap token tokens rest hgap hvalid hnumber hstop _ ih =>
    obtain ⟨pieces, tail, rfl, htokens, hspaced, hlater, hline⟩ := ih
    refine ⟨(gap, token.lexeme) :: pieces, tail, ?_, by simp [htokens],
      ⟨List.forall_mem_cons.2 ⟨hgap, hspaced.blank⟩, hspaced.blank_tail, ?_⟩,
      List.forall_mem_cons.2 ⟨hvalid, hlater⟩, ?_⟩
    · rw [spread_cons, List.append_assoc, List.append_assoc]
      rfl
    · cases pieces with
      | nil => exact .singleton _
      | cons next pieces =>
        obtain ⟨gap', next⟩ := next
        cases tokens with
        | nil => cases htokens
        | cons second tokens =>
          obtain ⟨rfl, -⟩ := List.cons.inj htokens
          have hnext := (hlater second (List.mem_cons_self ..)).admits
          have hgap' := hspaced.blank _ (List.mem_cons_self ..)
          rw [spread_cons, List.append_assoc, List.append_assoc] at hstop
          exact List.isChain_cons_cons.2
            ⟨(Lexeme.stops_iff hnext hgap').1 hstop, hspaced.apart⟩
    · intro i hi
      cases i with
      | zero => rwa [textBefore_cons_zero]
      | succ i =>
        rw [textBefore_cons_succ, List.count_append, List.count_append, Token.lexeme,
          Token.count_newline hvalid, Nat.zero_add, ← Nat.add_assoc, ← hnumber]
        exact hline i (Nat.lt_of_succ_lt_succ hi)

theorem filter_spread {pieces : List (List Char × Lexeme)}
    (hblank : ∀ piece ∈ pieces, piece.1.all isBlank = true)
    (hvalid : ∀ piece ∈ pieces, piece.2.Valid) :
    (spread pieces).filter (!isBlank ·) = (pieces.map Prod.snd).flatMap (·.text.toList) := by
  induction pieces with
  | nil => rfl
  | cons piece pieces ih =>
    obtain ⟨gap, lexeme⟩ := piece
    obtain ⟨hgap, hblank⟩ := List.forall_mem_cons.1 hblank
    obtain ⟨hfirst, hvalid⟩ := List.forall_mem_cons.1 hvalid
    have htext : lexeme.text.toList.filter (!isBlank ·) = lexeme.text.toList :=
      List.filter_eq_self.2 fun c hc => by simp [hfirst.admits.not_blank.2 c hc]
    have hnone : gap.filter (!isBlank ·) = [] :=
      List.filter_eq_nil_iff.2 fun c hc => by simp [List.all_eq_true.1 hgap c hc]
    rw [spread_cons, List.filter_append, List.filter_append, ih hblank hvalid, htext, hnone]
    simp

/-- The lexer accepts exactly the layouts of lexemes, each token with the number of the line it
stands on, and no character but blanks is lost. -/
theorem lex_eq_ok_iff_layout (source : String) (tokens : List Token) :
    (lex source = .ok tokens ↔
      ∃ pieces tail, source.toList = spread pieces ++ tail ∧
        tokens.map Token.lexeme = pieces.map Prod.snd ∧
        Spaced Lexeme.Sticks pieces tail ∧
        (∀ token ∈ tokens, token.lexeme.Valid) ∧
        ∀ i (h : i < tokens.length),
          tokens[i].line = 1 + (textBefore pieces i).count '\n') ∧
      (lex source = .ok tokens →
        source.toList.filter (!isBlank ·) = tokens.flatMap (·.text.toList)) := by
  have hiff : lex source = .ok tokens ↔ Laid 1 tokens source.toList := by
    rw [lex_eq_lexText]
    exact ⟨.of_lexText, Laid.lexText_eq⟩
  have hpieces {pieces : List (List Char × Lexeme)}
      (htokens : tokens.map Token.lexeme = pieces.map Prod.snd)
      (hvalid : ∀ token ∈ tokens, token.lexeme.Valid) : ∀ piece ∈ pieces, piece.2.Valid := by
    refine List.forall_mem_map.1 ?_
    rw [← htokens]
    exact List.forall_mem_map.2 hvalid
  constructor
  · rw [hiff]
    constructor
    · exact Laid.exists_spaced
    · rintro ⟨pieces, tail, hsource, htokens, hspaced, hvalid, hline⟩
      rw [hsource]
      exact .of_spaced hspaced htokens (hpieces htokens hvalid) hline
  · intro h
    obtain ⟨pieces, tail, hsource, htokens, hspaced, hvalid, -⟩ := (hiff.1 h).exists_spaced
    have htail : tail.filter (!isBlank ·) = [] :=
      List.filter_eq_nil_iff.2 fun c hc => by simp [List.all_eq_true.1 hspaced.blank_tail c hc]
    rw [hsource, List.filter_append, filter_spread hspaced.blank (hpieces htokens hvalid), htail,
      List.append_nil, ← htokens, List.flatMap_map]
    rfl

end Declang
