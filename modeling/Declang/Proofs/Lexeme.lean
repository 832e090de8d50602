import Declang.Lexer
namespace Declang

/-- A text with its category, without regard to where it stands. -/
structure Lexeme where
  kind : TokenKind
  text : String
  deriving DecidableEq, Repr

def Token.lexeme (token : Token) : Lexeme := ⟨token.kind, token.text⟩

/-- The words that are no identifiers. -/
def keywords : List String := ["int", "uint", "byte", "return", "if", "else"]

def IsIdentifier (text : String) : Prop :=
  text.toList.head?.any isWordStart = true ∧ text.toList.all isWordChar = true ∧ text ∉ keywords
  deriving Decidable

namespace TokenKind

/-- Keywords, identifiers and literals are made of word characters. -/
def isWord : TokenKind → Bool
  | typeKeyword | returnKeyword | ifKeyword | elseKeyword => true
  | identifier | unsignedLiteral | integerLiteral => true
  | _ => false

/-- The texts of a kind that has only finitely many. -/
def spellings : TokenKind → List String
  | openBrace => ["\x7b"]
  | closeBrace => ["\x7d"]
  | openParen => ["("]
  | closeParen => [")"]
  | comma => [","]
  | semicolon => [";"]
  | minus => ["-"]
  | complement => ["~"]
  | negation => ["!"]
  | addition => ["+"]
  | multiply => ["*"]
  | divide => ["/"]
  | logicalAnd => ["&&"]
  | logicalOr => ["||"]
  | bitwiseAnd => ["&"]
  | bitwiseOr => ["|"]
  | comparison => ["==", "!=", "<", "<=", ">", ">="]
  | assignment => ["="]
  | typeKeyword => ["uint", "int", "byte"]
  | returnKeyword => ["return"]
  | ifKeyword => ["if"]
  | elseKeyword => ["else"]
  | identifier | unsignedLiteral | integerLiteral => []

/-- The texts that the rule of a kind allows; a literal may be out of range. -/
def Admits (kind : TokenKind) (cs : List Char) : Prop :=
  match kind with
  | identifier => IsIdentifier (String.ofList cs)
  | unsignedLiteral => ∃ digits, digits ≠ [] ∧ digits.all Char.isDigit = true ∧ cs = digits ++ ['u']
  | integerLiteral => cs ≠ [] ∧ cs.all Char.isDigit = true
  | kind => String.ofList cs ∈ kind.spellings

/-- The rules read on over a character that stands right after such a text. -/
def absorbs (kind : TokenKind) (cs : List Char) (c : Char) : Bool :=
  kind.isWord && isWordChar c || [['='], ['!'], ['<'], ['>']].contains cs && c == '='
    || cs == ['&'] && c == '&' || cs == ['|'] && c == '|'

end TokenKind

namespace Lexeme

/-- The lexemes of the language: fixed spellings, identifiers, and literals that have a value. -/
def Valid (lexeme : Lexeme) : Prop :=
  match lexeme.kind with
  | .identifier => IsIdentifier lexeme.text
  | .unsignedLiteral | .integerLiteral =>
    ∃ literal, lexeme.kind.decode lexeme.text = .ok literal
  | kind => lexeme.text ∈ kind.spellings

/-- Two lexemes that would be read differently without a blank between them. -/
def Sticks (left right : Lexeme) : Prop :=
  left.kind.isWord = true ∧ right.kind.isWord = true
    ∨ left.text ∈ ["=", "!", "<", ">"] ∧ right.text.toList.head? = some '='
    ∨ left.text = "&" ∧ right.text.toList.head? = some '&'
    ∨ left.text = "|" ∧ right.text.toList.head? = some '|'
  deriving Decidable

end Lexeme

theorem isWordChar_of_isWordStart {c : Char} (h : isWordStart c = true) : isWordChar c = true := by
  simp only [isWordStart, Bool.or_eq_true] at h
  rcases h with h | h <;> simp [isWordChar, Char.isAlphanum, h]

theorem isWordChar_of_isDigit {c : Char} (h : c.isDigit = true) : isWordChar c = true := by
  simp [isWordChar, Char.isAlphanum, h]

theorem isAlpha_iff {c : Char} :
    c.isAlpha = true ↔ 65 ≤ c.toNat ∧ c.toNat ≤ 90 ∨ 97 ≤ c.toNat ∧ c.toNat ≤ 122 := by
  change (decide (c.val ≥ 'A'.val ∧ c.val ≤ 'Z'.val) ||
    (decide (c.val ≥ 'a'.val) && decide (c.val ≤ 'z'.val))) = true ↔ _
  rw [Bool.or_eq_true, Bool.and_eq_true, decide_eq_true_iff, decide_eq_true_iff, decide_eq_true_iff]
  exact .rfl

theorem isDigit_iff {c : Char} : c.isDigit = true ↔ 48 ≤ c.toNat ∧ c.toNat ≤ 57 := by
  change (decide (c.val ≥ '0'.val) && decide (c.val ≤ '9'.val)) = true ↔ _
  rw [Bool.and_eq_true, decide_eq_true_iff, decide_eq_true_iff]
  exact .rfl

theorem isWordStart_eq_false_of_isDigit {c : Char} (h : c.isDigit = true) :
    isWordStart c = false := by
  have hcode := isDigit_iff.1 h
  refine Bool.eq_false_iff.2 fun hstart => ?_
  rw [isWordStart, Bool.or_eq_true, beq_iff_eq] at hstart
  rcases hstart with halpha | rfl
  · have hletter := isAlpha_iff.1 halpha
    omega
  · exact absurd h (by decide)

theorem isBlank_eq_false_of_isWordChar {c : Char} (h : isWordChar c = true) :
    isBlank c = false := by
  have hcode : 48 ≤ c.toNat ∧ c.toNat ≤ 122 := by
    rw [isWordChar, Char.isAlphanum, Bool.or_eq_true, Bool.or_eq_true, beq_iff_eq] at h
    rcases h with (halpha | hdigit) | rfl
    · have hletter := isAlpha_iff.1 halpha
      omega
    · have hnumber := isDigit_iff.1 hdigit
      omega
    · decide
  simp only [isBlank, blankRanges, List.any_cons, List.any_nil, Bool.or_eq_false_iff,
    Bool.and_eq_false_iff, decide_eq_false_iff_not, and_true]
  omega

theorem any_of_imp {p q : Char → Bool} (hpq : ∀ {c}, p c = true → q c = true) {o : Option Char}
    (h : o.any p = true) : o.any q = true := by
  cases o with
  | none => cases h
  | some c => exact hpq h

theorem TokenKind.isLiteral_iff {kind : TokenKind} :
    kind.isLiteral = true ↔ kind = .unsignedLiteral ∨ kind = .integerLiteral := by
  cases kind <;> simp [TokenKind.isLiteral]

theorem TokenKind.admits_iff_mem_spellings {kind : TokenKind} (hname : kind ≠ .identifier)
    (hliteral : kind.isLiteral = false) {cs : List Char} :
    kind.Admits cs ↔ String.ofList cs ∈ kind.spellings := by
  cases kind <;> first | exact .rfl | exact absurd rfl hname | cases hliteral

theorem TokenKind.Admits.name {kind : TokenKind} {word : List Char} (h : kind.Admits word)
    (hkind : kind.isWord = true) (hliteral : kind.isLiteral = false) :
    word.head?.any isWordStart = true ∧ word.all isWordChar = true := by
  by_cases hname : kind = .identifier
  · subst hname
    simpa using And.intro h.1 h.2.1
  · have hkeywords : ∀ kind ∈ TokenKind.all, kind.isWord = true → ∀ text ∈ kind.spellings,
        text.toList.head?.any isWordStart = true ∧ text.toList.all isWordChar = true := by decide
    have htext := (TokenKind.admits_iff_mem_spellings hname hliteral).1 h
    simpa using hkeywords kind kind.mem_all hkind _ htext

theorem TokenKind.Admits.literal {kind : TokenKind} {cs : List Char} (h : kind.Admits cs)
    (hkind : kind.isLiteral = true) :
    cs.head?.any Char.isDigit = true ∧ cs.all isWordChar = true := by
  have hrun {digits : List Char} (hne : digits ≠ []) (hdigits : digits.all Char.isDigit = true) :
      digits.head?.any Char.isDigit = true ∧ digits.all isWordChar = true := by
    refine ⟨?_, List.all_eq_true.2 fun c hc => ?_⟩
    · cases digits with
      | nil => exact absurd rfl hne
      | cons c digits => simp_all
    · exact isWordChar_of_isDigit (List.all_eq_true.1 hdigits c hc)
  rcases TokenKind.isLiteral_iff.1 hkind with rfl | rfl
  · obtain ⟨digits, hne, hdigits, rfl⟩ := h
    obtain ⟨hhead, hall⟩ := hrun hne hdigits
    cases digits with
    | nil => exact absurd rfl hne
    | cons c digits => exact ⟨hhead, by simpa [isWordChar] using hall⟩
  · exact hrun h.1 h.2

theorem TokenKind.Admits.word {kind : TokenKind} {cs : List Char} (h : kind.Admits cs)
    (hkind : kind.isWord = true) :
    cs.head?.any isWordChar = true ∧ cs.all isWordChar = true := by
  cases hliteral : kind.isLiteral with
  | true =>
    obtain ⟨hhead, hall⟩ := h.literal hliteral
    exact ⟨any_of_imp isWordChar_of_isDigit hhead, hall⟩
  | false =>
    obtain ⟨hhead, hall⟩ := h.name hkind hliteral
    exact ⟨any_of_imp isWordChar_of_isWordStart hhead, hall⟩

theorem TokenKind.Admits.absorbs_eq {kind : TokenKind} {cs : List Char} (h : kind.Admits cs)
    (hkind : kind.isWord = true) : kind.absorbs cs = isWordChar := by
  have hne : ∀ s ∈ [['='], ['!'], ['<'], ['>'], ['&'], ['|']], cs ≠ s := by
    have hsymbol : ∀ s ∈ [['='], ['!'], ['<'], ['>'], ['&'], ['|']],
        s.head?.any isWordChar = false := by decide
    rintro s hs rfl
    exact absurd (h.word hkind).1 (Bool.eq_false_iff.1 (hsymbol _ hs))
  funext c
  simp only [List.mem_cons, List.not_mem_nil, or_false, forall_eq_or_imp, forall_eq] at hne
  obtain ⟨heq, hnot, hless, hmore, hand, hor⟩ := hne
  simp [TokenKind.absorbs, hkind, heq, hnot, hless, hmore, beq_false_of_ne hand,
    beq_false_of_ne hor]

theorem TokenKind.admits_iff_of_not_word {kind : TokenKind} (h : kind.isWord = false)
    {cs : List Char} : kind.Admits cs ↔ String.ofList cs ∈ kind.spellings := by
  have hkinds : ∀ kind ∈ TokenKind.all, kind.isWord = false →
      kind ≠ .identifier ∧ kind.isLiteral = false := by decide
  obtain ⟨hname, hliteral⟩ := hkinds kind kind.mem_all h
  exact TokenKind.admits_iff_mem_spellings hname hliteral

theorem TokenKind.Admits.isWord_eq {kind : TokenKind} {cs : List Char} (h : kind.Admits cs) :
    kind.isWord = cs.head?.any isWordChar := by
  cases hword : kind.isWord with
  | true => exact (h.word hword).1.symm
  | false =>
    have hsymbols : ∀ kind ∈ TokenKind.all, kind.isWord = false → ∀ text ∈ kind.spellings,
        text.toList.head?.any isWordChar = false := by decide
    have htext := (TokenKind.admits_iff_of_not_word hword).1 h
    simpa using (hsymbols kind kind.mem_all hword _ htext).symm

theorem TokenKind.Admits.not_blank {kind : TokenKind} {cs : List Char} (h : kind.Admits cs) :
    cs ≠ [] ∧ ∀ c ∈ cs, isBlank c = false := by
  cases hword : kind.isWord with
  | false =>
    have hsymbols : ∀ kind ∈ TokenKind.all, kind.isWord = false → ∀ text ∈ kind.spellings,
        text.toList ≠ [] ∧ text.toList.any isBlank = false := by decide
    have htext := (TokenKind.admits_iff_of_not_word hword).1 h
    simpa using hsymbols kind kind.mem_all hword _ htext
  | true =>
    obtain ⟨hhead, hall⟩ := h.word hword
    refine ⟨fun hnil => by simp [hnil] at hhead, fun c hc => ?_⟩
    exact isBlank_eq_false_of_isWordChar (List.all_eq_true.1 hall c hc)

end Declang
