import Declang.Proofs.Lexeme.Failure
namespace Declang

/-- The token `d` lines further down. -/
def Token.later (d : Nat) (token : Token) : Token :=
  { token with line := token.line + d }

/-- The error `d` lines further down. -/
def LexError.later (d : Nat) : LexError → LexError
  | unmatched line remainder => unmatched (line + d) remainder
  | malformed line text fault => malformed (line + d) text fault

def newlines (text : String) : Nat :=
  text.toList.count '\n'

theorem Token.line_later {token : Token} {line gap : Nat} (h : token.line = line + gap) (d : Nat) :
    (token.later d).line = line + d + gap := by
  rw [Nat.add_right_comm, ← h]
  rfl

theorem Laid.later {line : Nat} {tokens : List Token} {cs : List Char} (h : Laid line tokens cs)
    (d : Nat) : Laid (line + d) (tokens.map (Token.later d)) cs := by
  induction h with
  | nil hblank => exact .nil hblank
  | @cons line gap token tokens rest hgap hvalid hline hstop _ ih =>
    exact @Laid.cons _ _ (token.later d) _ _ hgap hvalid (Token.line_later hline d) hstop ih

theorem FailsAt.later {line : Nat} {error : LexError} {cs : List Char} (h : FailsAt line error cs)
    (d : Nat) : FailsAt (line + d) (error.later d) cs := by
  cases h with
  | unmatched hnone => exact .unmatched hnone
  | malformed hadmits hstop hdecode => exact .malformed hadmits hstop hdecode

theorem Broken.later {line : Nat} {error : LexError} {cs : List Char} (h : Broken line error cs)
    (d : Nat) : Broken (line + d) (error.later d) cs := by
  induction h with
  | @here line gap rest error hgap hstart hfails =>
    have hfails' := hfails.later d
    rw [Nat.add_right_comm] at hfails'
    exact .here hgap hstart hfails'
  | @cons line gap token rest error hgap hvalid hline hstop _ ih =>
    exact @Broken.cons _ _ (token.later d) _ _ hgap hvalid (Token.line_later hline d) hstop ih

theorem Laid.lexText_append {line : Nat} {tokens : List Token} {cs : List Char}
    (h : Laid line tokens cs) {rest : List Char} (hrest : rest.head?.all isBlank = true) :
    lexText line (cs ++ rest) =
      (lexText (line + cs.count '\n') rest).map (tokens ++ ·) := by
  induction h with
  | @nil line tail hblank =>
    rw [lexText_append_left hblank]
    cases lexText (line + tail.count '\n') rest <;> rfl
  | @cons line gap token tokens cs hgap hvalid hline hstop _ ih =>
    rw [Token.count_newline_append hvalid, ← Nat.add_assoc, ← hline, List.append_assoc,
      List.append_assoc, lexText_cons hgap hvalid hline (TokenKind.stops_append hstop hrest), ih]
    cases lexText (token.line + cs.count '\n') rest <;> rfl

theorem trimBlanks_append_of_start {cs tail : List Char} (h : cs.head?.any (!isBlank ·) = true)
    (htail : tail.all isBlank = true) : trimBlanks (cs ++ tail) = trimBlanks cs := by
  obtain ⟨after, hcs, hafter, hhead, hlast⟩ := exists_trimBlanks_of_start h
  have hblank : (after ++ tail).all isBlank = true := by
    rw [List.all_append, hafter, htail]
    rfl
  have htrim : trimBlanks ([] ++ (trimBlanks cs ++ (after ++ tail))) = trimBlanks cs :=
    trimBlanks_eq List.all_nil hblank (not_blank_of_start hhead).2 hlast
  rwa [List.nil_append, ← List.append_assoc, ← hcs] at htrim

theorem lineRest_append {cs rest : List Char} (h : cs.head?.any (!isBlank ·) = true)
    (hrest : (rest.takeWhile (· ≠ '\n')).all isBlank = true) :
    lineRest (cs ++ rest) = lineRest cs := by
  -- The line of `rest` is blank and goes on from `cs` only if `cs` is all of its own line.
  rw [lineRest, List.takeWhile_append]
  split_ifs with hwhole
  · have hline : cs.takeWhile (· ≠ '\n') = cs :=
      (List.takeWhile_prefix _).eq_of_length hwhole
    rw [lineRest, hline]
    exact trimBlanks_append_of_start h hrest
  · rfl

theorem FailsAt.append {line : Nat} {error : LexError} {cs : List Char} (h : FailsAt line error cs)
    (hstart : cs.head?.any (!isBlank ·) = true) {rest : List Char}
    (hrest : (rest.takeWhile (· ≠ '\n')).all isBlank = true) : FailsAt line error (cs ++ rest) := by
  have hblank := head?_all_isBlank hrest
  cases h with
  | unmatched hnone =>
    obtain ⟨hne, hhead⟩ := not_blank_of_start hstart
    rw [← skipBlanks_eq_self hhead] at hne
    rw [← lineRest_append hstart hrest]
    apply FailsAt.unmatched
    rw [firstMatch?_append_right hne hblank, hnone]
    rfl
  | malformed hadmits hstop hdecode =>
    rw [List.append_assoc]
    exact .malformed hadmits (TokenKind.stops_append hstop hblank) hdecode

/-- An error stays what it is when nothing but blanks follows on the last line. -/
theorem Broken.append {line : Nat} {error : LexError} {cs : List Char} (h : Broken line error cs)
    {rest : List Char} (hrest : (rest.takeWhile (· ≠ '\n')).all isBlank = true) :
    Broken line error (cs ++ rest) := by
  induction h with
  | @here line gap cs error hgap hstart hfails =>
    rw [List.append_assoc]
    apply Broken.here hgap _ (hfails.append hstart hrest)
    obtain ⟨c, more, rfl, -⟩ := exists_cons_of_start hstart
    exact hstart
  | cons hgap hvalid hline hstop _ ih =>
    rw [List.append_assoc, List.append_assoc]
    exact .cons hgap hvalid hline (TokenKind.stops_append hstop (head?_all_isBlank hrest)) ih

theorem all_isBlank_line {w : List Char} (hblank : w.all isBlank = true) (hnewline : '\n' ∈ w)
    (cs : List Char) : ((w ++ cs).takeWhile (· ≠ '\n')).all isBlank = true := by
  obtain ⟨line, hline, rfl | ⟨more, rfl⟩⟩ := exists_line w
  · exact absurd hnewline hline
  · have hrun : line.all (· ≠ '\n') = true :=
      List.all_eq_true.2 fun c hc => decide_eq_true fun heq => hline (heq ▸ hc)
    rw [List.all_append, Bool.and_eq_true] at hblank
    rw [List.append_assoc, takeWhile_run hrun (by simp)]
    exact hblank.1

/-- Lexing goes part by part where blanks stand between the parts. The tokens of the first part stay
as they are and those of the second move down; an error of either is the error of the whole, that of
the first if a newline keeps the second off its line. -/
theorem lex_append_of_blank {a w : String} (hne : w ≠ "") (hblank : w.toList.all isBlank = true)
    (b : String) :
    (∀ tokens, lex a = .ok tokens →
      (∀ later, lex b = .ok later →
        lex (a ++ w ++ b) = .ok (tokens ++ later.map (Token.later (newlines (a ++ w))))) ∧
      ∀ error, lex b = .error error →
        lex (a ++ w ++ b) = .error (error.later (newlines (a ++ w)))) ∧
    ∀ error, lex a = .error error → '\n' ∈ w.toList → lex (a ++ w ++ b) = .error error := by
  have hsource : (a ++ w ++ b).toList = a.toList ++ (w.toList ++ b.toList) := by
    rw [String.toList_append, String.toList_append, List.append_assoc]
  simp only [lex_eq_lexText, hsource]
  constructor
  · intro tokens hfirst
    have hhead : (w.toList ++ b.toList).head?.all isBlank = true := by
      cases hw : w.toList with
      | nil => exact absurd (String.toList_eq_nil_iff.1 hw) hne
      | cons c cs =>
        rw [hw, List.all_cons, Bool.and_eq_true] at hblank
        exact hblank.1
    have hparts : lexText 1 (a.toList ++ (w.toList ++ b.toList)) =
        (lexText (1 + newlines (a ++ w)) b.toList).map (tokens ++ ·) := by
      rw [(Laid.of_lexText hfirst).lexText_append hhead, lexText_append_left hblank, newlines,
        String.toList_append, List.count_append, Nat.add_assoc]
    constructor
    · intro later hlater
      rw [hparts, ((Laid.of_lexText hlater).later _).lexText_eq]
      rfl
    · intro error herror
      rw [hparts, ((Broken.of_lexText herror).later _).lexText_eq]
      rfl
  · intro error herror hnewline
    exact ((Broken.of_lexText herror).append (all_isBlank_line hblank hnewline _)).lexText_eq

theorem lex_append_of_blank_samples :
    lex ("int f\r" ++ "\n \t" ++ "x\n 5u") = .ok ([⟨.typeKeyword, "int", 1, none, rfl⟩,
      ⟨.identifier, "f", 1, none, rfl⟩] ++ [⟨.identifier, "x", 2, none, rfl⟩,
      ⟨.unsignedLiteral, "5u", 3, some (.uint 5), by decide⟩]) ∧
    lex ("int f\r" ++ "\n \t" ++ "x\n 5u $ y ") = .error (.unmatched 3 "$ y") ∧
    lex ("f\n $ g" ++ "\n \t" ++ "x\n 5u") = .error (.unmatched 2 "$ g") := by
  have hblank : "\n \t".toList.all isBlank = true := by decide
  have hfirst : lex "int f\r" = .ok [⟨.typeKeyword, "int", 1, none, rfl⟩,
      ⟨.identifier, "f", 1, none, rfl⟩] := by decide +kernel
  refine ⟨?_, ?_, ?_⟩
  · exact ((lex_append_of_blank (by decide) hblank "x\n 5u").1 _ hfirst).1
      [⟨.identifier, "x", 1, none, rfl⟩, ⟨.unsignedLiteral, "5u", 2, some (.uint 5), by decide⟩]
      (by decide +kernel)
  · exact ((lex_append_of_blank (by decide) hblank "x\n 5u $ y ").1 _ hfirst).2
      (.unmatched 2 "$ y") (by decide +kernel)
  · exact (lex_append_of_blank (by decide) hblank "x\n 5u").2 (.unmatched 2 "$ g")
      (by decide +kernel) (by decide)

end Declang
