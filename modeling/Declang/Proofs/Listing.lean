import Mathlib.Data.Finset.Card
import Declang.Listing
import Declang.Proofs.Parse.Words
namespace Declang

namespace TokenKind

theorem ofName?_name (kind : TokenKind) : ofName? kind.name = some kind := by
  cases kind <;> rfl

theorem name_inj {kind other : TokenKind} (h : kind.name = other.name) : kind = other := by
  have hread := kind.ofName?_name
  rw [h, other.ofName?_name] at hread
  exact (Option.some.inj hread).symm

theorem isWord_name (kind : TokenKind) : IsWord kind.name := by
  have hnames : ∀ kind ∈ all, IsWord kind.name := by decide
  exact hnames kind kind.mem_all

end TokenKind

theorem Laid.le_line {line : Nat} {tokens : List Token} {cs : List Char}
    (h : Laid line tokens cs) : ∀ token ∈ tokens, line ≤ token.line := by
  induction h with
  | nil => exact List.forall_mem_nil _
  | cons _ _ hnumber _ _ ih =>
    have hle := hnumber ▸ Nat.le_add_right _ _
    intro other hother
    rcases List.mem_cons.1 hother with rfl | hlater
    · exact hle
    · exact Nat.le_trans hle (ih other hlater)

theorem Laid.sorted {line : Nat} {tokens : List Token} {cs : List Char}
    (h : Laid line tokens cs) : (tokens.map Token.line).Pairwise (· ≤ ·) := by
  induction h with
  | nil => exact .nil
  | cons _ _ _ _ hlaid ih =>
    apply List.pairwise_cons.2
    apply And.intro _ ih
    exact List.forall_mem_map.2 hlaid.le_line

namespace Token

/-- Whether a token stands on the line of the one before it, for each token but the first. -/
def joins (tokens : List Token) : List Bool :=
  List.zipWith (fun s t => decide (s.line = t.line)) tokens tokens.tail

def separator (joined : Bool) : Char :=
  if joined then ' ' else '\n'

theorem joins_eq_iff {tokens others : List Token} (h : tokens.length = others.length) :
    joins tokens = joins others ↔
      ∀ i (hi : i + 1 < tokens.length) (hi' : i + 1 < others.length),
        tokens[i].line = tokens[i + 1].line ↔ others[i].line = others[i + 1].line := by
  rw [List.ext_getElem_iff]
  simp only [joins, List.length_zipWith, List.length_tail, List.getElem_zipWith,
    List.getElem_tail, decide_eq_decide]
  constructor
  · intro ⟨_, hall⟩ i hi hi'
    exact hall i (by omega) (by omega)
  · intro hall
    exact ⟨by omega, fun i hi hi' => hall i (by omega) (by omega)⟩

variable {s t : Token} {tokens others : List Token}

theorem length_eq_of_lexemes (h : tokens.map lexeme = others.map lexeme) :
    tokens.length = others.length := by
  rw [← List.length_map, h, List.length_map]

theorem toList_entry (token : Token) :
    token.entry.toList = token.kind.name.toList ++ '(' :: (token.text.toList ++ [')']) := by
  simp [entry]

theorem entry_eq_iff : s.entry = t.entry ↔ s.lexeme = t.lexeme := by
  constructor
  · intro h
    rw [← String.toList_inj, toList_entry, toList_entry] at h
    obtain ⟨hname, htail⟩ := s.kind.isWord_name.append_inj t.kind.isWord_name rfl rfl h
    have htext := List.append_cancel_right (List.cons.inj htail).2
    rw [lexeme, lexeme, TokenKind.name_inj hname, String.toList_inj.1 htext]
  · intro h
    obtain ⟨hkind, htext⟩ := Lexeme.mk.inj h
    rw [entry, entry, hkind, htext]

theorem entry_not_blank (h : s.lexeme.Valid) : ∀ c ∈ s.entry.toList, isBlank c = false := by
  rw [toList_entry, List.forall_mem_append, List.forall_mem_cons, List.forall_mem_append]
  have hname : ∀ c ∈ s.kind.name.toList, isBlank c = false := by
    intro c hc
    exact isBlank_eq_false_of_isWordChar (List.all_eq_true.1 s.kind.isWord_name.2 c hc)
  refine ⟨hname, by decide, (s.lexeme_valid_iff.1 h).not_blank.2, ?_⟩
  exact List.forall_mem_singleton.2 (by decide)

theorem newline_not_mem_entry (h : s.lexeme.Valid) : '\n' ∉ s.entry.toList := by
  intro hmem
  exact absurd (entry_not_blank h _ hmem) (by decide)

/-- An entry ends at the first blank, whatever parentheses and commas its text has. -/
theorem entry_append_eq_iff {c d : Char} {rest more : List Char} (hs : s.lexeme.Valid)
    (ht : t.lexeme.Valid) (hc : isBlank c = true) (hd : isBlank d = true) :
    s.entry.toList ++ c :: rest = t.entry.toList ++ d :: more ↔
      s.lexeme = t.lexeme ∧ c = d ∧ rest = more := by
  have hrun {token : Token} (h : token.lexeme.Valid) :
      token.entry.toList.all (!isBlank ·) = true := by
    rw [List.all_eq_true]
    intro c hc
    rw [entry_not_blank h c hc]
    rfl
  constructor
  · intro heq
    obtain ⟨hentry, hrest⟩ := run_inj (hrun hs) (by simp [hc]) (hrun ht) (by simp [hd]) heq
    exact ⟨entry_eq_iff.1 (String.toList_inj.1 hentry), List.cons.inj hrest⟩
  · rintro ⟨hlexeme, rfl, rfl⟩
    rw [entry_eq_iff.2 hlexeme]

theorem isBlank_separator (joined : Bool) : isBlank (separator joined) = true := by
  cases joined <;> decide

theorem separator_eq_iff {joined other : Bool} :
    separator joined = separator other ↔ joined = other := by
  cases joined <;> cases other <;> decide

/-- Whether the first of the later tokens stands on the line of a token. -/
def leads (s : Token) (tokens : List Token) : Bool :=
  tokens.head?.any (s.line == ·.line)

theorem toList_listing_cons (s : Token) (tokens : List Token) :
    (listing (s :: tokens)).toList =
      s.entry.toList ++ separator (s.leads tokens) :: (listing tokens).toList := by
  cases tokens with
  | nil => simp [listing, listingAfter, separator, leads]
  | cons t tokens =>
    by_cases hline : s.line = t.line
    · simp [listing, listingAfter, separator, leads, hline]
    · simp [listing, listingAfter, separator, leads, hline, Ne.symm hline]

theorem listing_cons_ne_nil (s : Token) (tokens : List Token) :
    (listing (s :: tokens)).toList ≠ [] := by
  simp [listing, entry]

theorem joins_cons_eq_iff (h : tokens.length = others.length) :
    joins (s :: tokens) = joins (t :: others) ↔
      s.leads tokens = t.leads others ∧ joins tokens = joins others := by
  cases tokens with
  | nil =>
    rw [List.eq_nil_of_length_eq_zero h.symm]
    exact iff_of_true rfl ⟨rfl, rfl⟩
  | cons u tokens =>
    cases others with
    | nil => cases h
    | cons v others => exact List.cons_eq_cons

theorem toList_listing_eq_iff (h : ∀ token ∈ tokens, token.lexeme.Valid)
    (hothers : ∀ token ∈ others, token.lexeme.Valid) :
    (listing tokens).toList = (listing others).toList ↔
      tokens.map lexeme = others.map lexeme ∧ joins tokens = joins others := by
  induction tokens generalizing others with
  | nil =>
    cases others with
    | nil => exact iff_of_true rfl ⟨rfl, rfl⟩
    | cons t others => exact iff_of_false (listing_cons_ne_nil t others).symm (fun h => nomatch h.1)
  | cons s tokens ih =>
    cases others with
    | nil => exact iff_of_false (listing_cons_ne_nil s tokens) (fun h => nomatch h.1)
    | cons t others =>
      obtain ⟨hs, hlater⟩ := List.forall_mem_cons.1 h
      obtain ⟨ht, hlater'⟩ := List.forall_mem_cons.1 hothers
      rw [toList_listing_cons, toList_listing_cons,
        entry_append_eq_iff hs ht (isBlank_separator _) (isBlank_separator _), separator_eq_iff,
        ih hlater hlater', List.map_cons, List.map_cons, List.cons_eq_cons]
      constructor
      · rintro ⟨hfirst, hleads, hlexemes, hjoins⟩
        have hlength := length_eq_of_lexemes hlexemes
        exact ⟨⟨hfirst, hlexemes⟩, (joins_cons_eq_iff hlength).2 ⟨hleads, hjoins⟩⟩
      · rintro ⟨⟨hfirst, hlexemes⟩, hjoins⟩
        obtain ⟨hleads, hjoins⟩ := (joins_cons_eq_iff (length_eq_of_lexemes hlexemes)).1 hjoins
        exact ⟨hfirst, hleads, hlexemes, hjoins⟩

theorem exists_rows (h : ∀ token ∈ s :: tokens, token.lexeme.Valid)
    (hsorted : ((s :: tokens).map line).Pairwise (· ≤ ·)) {front : List Char}
    (hfront : '\n' ∉ front) :
    ∃ rows, lines (front ++ (listing (s :: tokens)).toList) = rows ++ [[]] ∧
      rows.length = ((s :: tokens).map line).toFinset.card := by
  induction tokens generalizing s front with
  | nil =>
    have hentry := newline_not_mem_entry (h s (List.mem_singleton_self s))
    refine ⟨[front ++ s.entry.toList], ?_, rfl⟩
    rw [toList_listing_cons, ← List.append_assoc]
    exact lines_append (by simp [hfront, hentry]) []
  | cons t tokens ih =>
    obtain ⟨hs, hlater⟩ := List.forall_mem_cons.1 h
    obtain ⟨hle, hsorted⟩ := List.pairwise_cons.1 hsorted
    have hentry := newline_not_mem_entry hs
    rw [List.map_cons, List.toFinset_cons, toList_listing_cons]
    by_cases hline : s.line = t.line
    · have hsame : s.line ∈ ((t :: tokens).map line).toFinset := by simp [hline]
      have hrow : '\n' ∉ front ++ (s.entry.toList ++ [' ']) := by simp [hfront, hentry]
      obtain ⟨rows, hrows, hlength⟩ := ih hlater hsorted hrow
      refine ⟨rows, ?_, ?_⟩
      · rw [← hrows]
        simp [separator, leads, hline]
      · rw [hlength, Finset.insert_eq_of_mem hsame]
    · -- All later tokens stand below the line that ends here.
      have hnew : s.line ∉ ((t :: tokens).map line).toFinset := by
        rw [List.mem_toFinset]
        intro hmem
        rcases List.mem_cons.1 hmem with heq | hmem
        · exact hline heq
        · have hlow : s.line ≤ t.line := hle t.line (List.mem_cons_self ..)
          have hhigh : t.line ≤ s.line := (List.pairwise_cons.1 hsorted).1 s.line hmem
          exact hline (Nat.le_antisymm hlow hhigh)
      have hrow : '\n' ∉ front ++ s.entry.toList := by simp [hfront, hentry]
      obtain ⟨rows, hrows, hlength⟩ := ih hlater hsorted List.not_mem_nil
      refine ⟨(front ++ s.entry.toList) :: rows, ?_, ?_⟩
      · rw [List.nil_append] at hrows
        have hbreak : s.leads (t :: tokens) = false := beq_eq_false_iff_ne.2 hline
        rw [hbreak, ← List.append_assoc]
        exact (lines_append hrow _).trans (congrArg (_ :: ·) hrows)
      · rw [Finset.card_insert_of_notMem hnew, List.length_cons, hlength]

end Token

/-- A listing tells the lexemes and where the lines end, and its lines are as many as the source
lines with tokens. -/
theorem listing_eq_iff {source source' : String} {tokens others : List Token}
    (h : lex source = .ok tokens) (h' : lex source' = .ok others) :
    (Token.listing tokens = Token.listing others ↔
      tokens.map Token.lexeme = others.map Token.lexeme ∧
        ∀ i (hi : i + 1 < tokens.length) (hi' : i + 1 < others.length),
          tokens[i].line = tokens[i + 1].line ↔ others[i].line = others[i + 1].line) ∧
      ∃ rows, lines (Token.listing tokens).toList = rows ++ [[]] ∧
        rows.length = (tokens.map Token.line).toFinset.card := by
  have hvalid := lexeme_valid_of_lex h
  have hvalid' := lexeme_valid_of_lex h'
  constructor
  · rw [← String.toList_inj, Token.toList_listing_eq_iff hvalid hvalid']
    apply and_congr_right
    intro hlexemes
    exact Token.joins_eq_iff (Token.length_eq_of_lexemes hlexemes)
  · cases tokens with
    | nil => exact ⟨[], rfl, rfl⟩
    | cons s tokens =>
      rw [lex_eq_lexText] at h
      exact Token.exists_rows hvalid (Laid.of_lexText h).sorted List.not_mem_nil

/-- The texts have a parenthesis and a comma in them, and blank lines do not show. -/
theorem listing_eq_iff_samples :
    ∃ tokens others, lex "f (\n, x)\n\n\n;" = .ok tokens ∧ lex "\n f(\r\n,\tx )\n;" = .ok others ∧
      (Token.listing tokens = Token.listing others ↔
        tokens.map Token.lexeme = others.map Token.lexeme ∧
          ∀ i (hi : i + 1 < tokens.length) (hi' : i + 1 < others.length),
            tokens[i].line = tokens[i + 1].line ↔ others[i].line = others[i + 1].line) ∧
        ∃ rows, lines (Token.listing tokens).toList = rows ++ [[]] ∧
          rows.length = (tokens.map Token.line).toFinset.card := by
  have hlex : lex "f (\n, x)\n\n\n;" = .ok [⟨.identifier, "f", 1, none, rfl⟩,
      ⟨.openParen, "(", 1, none, rfl⟩, ⟨.comma, ",", 2, none, rfl⟩,
      ⟨.identifier, "x", 2, none, rfl⟩, ⟨.closeParen, ")", 2, none, rfl⟩,
      ⟨.semicolon, ";", 5, none, rfl⟩] := by decide +kernel
  have hlex' : lex "\n f(\r\n,\tx )\n;" = .ok [⟨.identifier, "f", 2, none, rfl⟩,
      ⟨.openParen, "(", 2, none, rfl⟩, ⟨.comma, ",", 3, none, rfl⟩,
      ⟨.identifier, "x", 3, none, rfl⟩, ⟨.closeParen, ")", 3, none, rfl⟩,
      ⟨.semicolon, ";", 4, none, rfl⟩] := by decide +kernel
  exact ⟨_, _, hlex, hlex', listing_eq_iff hlex hlex'⟩

end Declang
