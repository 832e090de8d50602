import Declang.Text.Blank
import Declang.Token.Kind
namespace Declang

/-- The form of a lexeme. -/
inductive Shape where
  /-- The first of these spellings that the text starts with. -/
  | spelled (spellings : List String)
  /-- The longest run of word characters, the first of them no digit. -/
  | word
  /-- The longest run of digits, with this text right after it. -/
  | digits (suffix : String)
  deriving DecidableEq, Repr

/-- Splits `cs` after a lexeme of this shape at its start. -/
def Shape.split? (shape : Shape) (cs : List Char) : Option (List Char × List Char) :=
  match shape with
  | spelled spellings =>
    (spellings.find? (·.toList.isPrefixOf cs)).map fun s => (s.toList, cs.drop s.toList.length)
  | word =>
    if cs.head?.any isWordStart then some (cs.takeWhile isWordChar, cs.dropWhile isWordChar)
    else none
  | digits suffix =>
    if cs.head?.any Char.isDigit ∧ suffix.toList.isPrefixOf (cs.dropWhile Char.isDigit) then
      some (cs.takeWhile Char.isDigit ++ suffix.toList,
        (cs.dropWhile Char.isDigit).drop suffix.toList.length)
    else none

/-- A rule of the lexicon. -/
structure Rule where
  kind : TokenKind
  shape : Shape
  /-- A whole lexeme is not followed by a word character. -/
  whole : Bool := false
  deriving DecidableEq, Repr

/-- An input split into the blanks before a lexeme, the lexeme, and the rest. -/
structure Match where
  gap : List Char
  payload : List Char
  rest : List Char
  deriving DecidableEq, Repr

/-- The length in UTF-8 bytes of what a match takes from its input. -/
def Match.consumed (m : Match) : Nat :=
  byteLength (m.gap ++ m.payload)

/-- Matches a rule after any blanks at the start of the input. -/
def Rule.match? (rule : Rule) (input : List Char) : Option Match :=
  match rule.shape.split? (skipBlanks input) with
  | none => none
  | some (payload, rest) =>
    if rule.whole && rest.head?.any isWordChar then none
    else some ⟨input.takeWhile isBlank, payload, rest⟩

/-- The lexical rules in order of precedence. -/
def lexicon : List Rule :=
  [⟨.openBrace, .spelled ["\x7b"], false⟩,
    ⟨.closeBrace, .spelled ["\x7d"], false⟩,
    ⟨.openParen, .spelled ["("], false⟩,
    ⟨.closeParen, .spelled [")"], false⟩,
    ⟨.comma, .spelled [","], false⟩,
    ⟨.semicolon, .spelled [";"], false⟩,
    ⟨.comparison, .spelled ["==", "!=", "<=", "<", ">=", ">"], false⟩,
    ⟨.minus, .spelled ["-"], false⟩,
    ⟨.complement, .spelled ["~"], false⟩,
    ⟨.negation, .spelled ["!"], false⟩,
    ⟨.addition, .spelled ["+"], false⟩,
    ⟨.multiply, .spelled ["*"], false⟩,
    ⟨.divide, .spelled ["/"], false⟩,
    ⟨.logicalAnd, .spelled ["&&"], false⟩,
    ⟨.logicalOr, .spelled ["||"], false⟩,
    ⟨.bitwiseAnd, .spelled ["&"], false⟩,
    ⟨.bitwiseOr, .spelled ["|"], false⟩,
    ⟨.assignment, .spelled ["="], false⟩,
    ⟨.typeKeyword, .spelled ["uint", "int", "byte"], true⟩,
    ⟨.returnKeyword, .spelled ["return"], true⟩,
    ⟨.ifKeyword, .spelled ["if"], true⟩,
    ⟨.elseKeyword, .spelled ["else"], true⟩,
    ⟨.identifier, .word, false⟩,
    ⟨.unsignedLiteral, .digits "u", true⟩,
    ⟨.integerLiteral, .digits "", true⟩]

/-- The first rule that matches decides. -/
def firstMatch? (input : List Char) : Option (TokenKind × Match) :=
  lexicon.findSome? fun rule => (rule.match? input).map (rule.kind, ·)

/-- What each rule matches on its own, in the order of the lexicon. -/
def allMatches (input : List Char) : List (TokenKind × Match) :=
  lexicon.filterMap fun rule => (rule.match? input).map (rule.kind, ·)

/-- A productive shape has no empty lexeme. -/
def Shape.Productive : Shape → Prop
  | spelled spellings => ∀ s ∈ spellings, s.toList ≠ []
  | word => True
  | digits _ => True

theorem lexicon_productive : ∀ rule ∈ lexicon, rule.shape.Productive := by
  simp [lexicon, Shape.Productive]

theorem Shape.Productive.split?_spec {shape : Shape} (h : shape.Productive)
    {cs payload rest : List Char} (hs : shape.split? cs = some (payload, rest)) :
    payload ≠ [] ∧ payload ++ rest = cs := by
  cases shape with
  | spelled spellings =>
    simp only [Shape.split?, Option.map_eq_some_iff, Prod.mk.injEq] at hs
    obtain ⟨s, hfind, rfl, rfl⟩ := hs
    have hstart := List.find?_some hfind
    rw [List.isPrefixOf_iff_prefix] at hstart
    obtain ⟨tail, rfl⟩ := hstart
    exact ⟨h s (List.mem_of_find?_eq_some hfind), by simp⟩
  | word =>
    cases cs with
    | nil => simp [Shape.split?] at hs
    | cons c cs =>
      rw [Shape.split?] at hs
      split at hs
      case isFalse => cases hs
      next hc =>
      cases hs
      have hword : isWordChar c = true := by
        simp only [List.head?_cons, Option.any_some, isWordStart, isWordChar, Char.isAlphanum,
          Bool.or_eq_true] at hc ⊢
        rcases hc with hc | hc <;> simp [hc]
      exact ⟨by simp [hword], List.takeWhile_append_dropWhile⟩
  | digits suffix =>
    cases cs with
    | nil => simp [Shape.split?] at hs
    | cons c cs =>
      rw [Shape.split?] at hs
      split at hs
      case isFalse => cases hs
      next hstart =>
      cases hs
      obtain ⟨hc, hstart⟩ := hstart
      rw [List.isPrefixOf_iff_prefix] at hstart
      obtain ⟨tail, htail⟩ := hstart
      refine ⟨by simp_all, ?_⟩
      rw [← htail, List.drop_left, List.append_assoc, htail]
      exact List.takeWhile_append_dropWhile

/-- A match of a productive rule splits its input, and its lexeme is not empty. -/
theorem Rule.match?_spec {rule : Rule} (h : rule.shape.Productive) {input : List Char} {m : Match}
    (hm : rule.match? input = some m) :
    m.payload ≠ [] ∧ m.gap ++ (m.payload ++ m.rest) = input := by
  unfold Rule.match? at hm
  split at hm
  · cases hm
  · next payload rest hs =>
    split at hm
    · cases hm
    · cases hm
      obtain ⟨hne, heq⟩ := h.split?_spec hs
      refine ⟨hne, ?_⟩
      simp only [heq]
      exact List.takeWhile_append_dropWhile

theorem firstMatch?_spec {input : List Char} {kind : TokenKind} {m : Match}
    (hm : firstMatch? input = some (kind, m)) :
    m.payload ≠ [] ∧ m.gap ++ (m.payload ++ m.rest) = input := by
  obtain ⟨rule, hrule, hmatch⟩ := List.exists_of_findSome?_eq_some hm
  obtain ⟨m', hm', heq⟩ := Option.map_eq_some_iff.1 hmatch
  cases heq
  exact Rule.match?_spec (lexicon_productive rule hrule) hm'

theorem firstMatch?_rest_lt {input : List Char} {kind : TokenKind} {m : Match}
    (hm : firstMatch? input = some (kind, m)) : m.rest.length < input.length := by
  obtain ⟨hne, heq⟩ := firstMatch?_spec hm
  have := List.length_pos_iff.2 hne
  rw [← heq]
  simp only [List.length_append]
  omega

end Declang
