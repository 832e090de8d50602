import Declang.Proofs.Source
import Declang.Proofs.Lexeme.Layout
import Declang.Proofs.Parse.Run
namespace Declang

theorem Lexeme.valid_of_mem_spellings {kind : TokenKind} {text : String}
    (h : text ∈ kind.spellings) : Lexeme.Valid ⟨kind, text⟩ := by
  cases kind
  case identifier => cases h
  case unsignedLiteral => cases h
  case integerLiteral => cases h
  all_goals exact h

/-- Whatever token a lexeme becomes, the trace tells it. -/
def Trace.Fits (trace : Trace) (lexeme : Lexeme) : Prop :=
  ∀ token : Token, token.lexeme = lexeme → trace.Of token

/-- Both lexemes are words, so they need a blank between them. -/
def Lexeme.BothWords (left right : Lexeme) : Prop :=
  left.kind.isWord = true ∧ right.kind.isWord = true
  deriving Decidable

/-- No symbol sticks to this lexeme from the right. -/
def Lexeme.Loose (lexeme : Lexeme) : Prop :=
  lexeme.text ∉ ["=", "!", "<", ">", "&", "|"]
  deriving Decidable

theorem Lexeme.Loose.bothWords {left right : Lexeme} (h : left.Loose)
    (hsticks : left.Sticks right) : left.BothWords right := by
  rcases hsticks with hwords | ⟨htext, -⟩ | ⟨htext, -⟩ | ⟨htext, -⟩
  · exact hwords
  · exact absurd (List.mem_append_left ["&", "|"] htext) h
  · exact absurd (by simp [htext]) h
  · exact absurd (by simp [htext]) h

theorem Lexeme.Valid.loose {lexeme : Lexeme} (h : lexeme.Valid)
    (hword : lexeme.kind.isWord = true) : lexeme.Loose := by
  have hsymbols : ∀ text ∈ ["=", "!", "<", ">", "&", "|"],
      text.toList.head?.any isWordChar = false := by decide
  intro htext
  have hhead := (h.admits.word hword).1
  rw [hsymbols _ htext] at hhead
  cases hhead

/-- The lexemes of a piece of a program in which only words need blanks between them, with what a
tree tells of that piece. -/
structure Written (lexemes : List Lexeme) (traces : List Trace) : Prop where
  valid : ∀ lexeme ∈ lexemes, lexeme.Valid
  fits : List.Forall₂ Trace.Fits traces lexemes
  apart : lexemes.IsChain fun left right => left.Sticks right → left.BothWords right
  last : ∀ lexeme ∈ lexemes.getLast?, lexeme.Loose

namespace Written

theorem nil : Written [] [] :=
  ⟨by simp, .nil, .nil, by simp⟩

theorem append {lexemes lexemes' : List Lexeme} {traces traces' : List Trace}
    (h : Written lexemes traces) (h' : Written lexemes' traces') :
    Written (lexemes ++ lexemes') (traces ++ traces') := by
  refine ⟨List.forall_mem_append.2 ⟨h.valid, h'.valid⟩, List.rel_append h.fits h'.fits,
    List.isChain_append.2 ⟨h.apart, h'.apart, ?_⟩, ?_⟩
  · intro left hleft right _
    exact (h.last left hleft).bothWords
  · intro lexeme hlexeme
    rw [List.getLast?_append] at hlexeme
    cases hlast : lexemes'.getLast? with
    | none =>
      rw [hlast] at hlexeme
      exact h.last lexeme hlexeme
    | some other =>
      rw [hlast] at hlexeme
      cases hlexeme
      exact h'.last _ hlast

theorem single {lexeme : Lexeme} {trace : Trace} (hvalid : lexeme.Valid) (hfits : trace.Fits lexeme)
    (hloose : lexeme.Loose) : Written [lexeme] [trace] := by
  refine ⟨by simpa using hvalid, .cons hfits .nil, .singleton _, ?_⟩
  simpa using hloose

theorem flatMap {α β : Type} {lexemes : α → List Lexeme} {traces : β → List Trace}
    {meaning : α → β} (h : ∀ a, Written (lexemes a) (traces (meaning a))) (as : List α) :
    Written (as.flatMap lexemes) ((as.map meaning).flatMap traces) := by
  induction as with
  | nil => exact nil
  | cons a as ih => exact (h a).append ih

theorem mark {kind : TokenKind} {text : String} (htext : text ∈ kind.spellings)
    (hloose : Lexeme.Loose ⟨kind, text⟩) : Written [⟨kind, text⟩] [.mark kind] :=
  single (Lexeme.valid_of_mem_spellings htext)
    (fun _ htoken => ⟨congrArg Lexeme.kind htoken, trivial⟩) hloose

theorem text {kind : TokenKind} {text : String} (hvalid : Lexeme.Valid ⟨kind, text⟩)
    (hword : kind.isWord = true) : Written [⟨kind, text⟩] [.text kind text] :=
  single hvalid (fun _ htoken => ⟨congrArg Lexeme.kind htoken, congrArg Lexeme.text htoken⟩)
    (hvalid.loose hword)

end Written

theorem BaseType.written (type : BaseType) :
    Written [type.lexeme] [.text .typeKeyword type.text] := by
  apply Written.text
  · apply Lexeme.valid_of_mem_spellings
    cases type <;> decide
  · rfl

theorem Name.written (name : Name) : Written [name.lexeme] [.text .identifier name.text] :=
  .text name.isIdentifier rfl

namespace Numeral

theorem decode_text (numeral : Numeral) :
    numeral.kind.decode numeral.text = .ok (some numeral.literal) := by
  obtain ⟨digits, unsigned, hrun, hrange⟩ := numeral
  cases unsigned with
  | false =>
    have hvalue := decodeSigned_eq_ok_iff.2 ⟨hrun, hrange, rfl⟩
    rw [kind, text, literal]
    simp [TokenKind.decode, hvalue, Except.map]
  | true =>
    have hvalue := decodeUnsigned_eq_ok_iff.2 ⟨digits, rfl, hrun, hrange, rfl⟩
    rw [kind, text, literal]
    simp [TokenKind.decode, hvalue, Except.map]

theorem valid (numeral : Numeral) : numeral.lexeme.Valid := by
  have hdecoded : ∃ literal, numeral.kind.decode numeral.text = .ok literal :=
    ⟨_, numeral.decode_text⟩
  obtain ⟨digits, unsigned, hrun, hrange⟩ := numeral
  cases unsigned with
  | false => exact hdecoded
  | true => exact hdecoded

theorem isLiteral_kind (numeral : Numeral) : numeral.kind.isLiteral = true := by
  unfold kind
  split <;> rfl

theorem isWord_kind (numeral : Numeral) : numeral.kind.isWord = true := by
  unfold kind
  split <;> rfl

theorem literal_kind (numeral : Numeral) : numeral.literal.kind = numeral.kind := by
  unfold literal kind
  split <;> rfl

theorem defaultKind_text (numeral : Numeral) : defaultKind numeral.text = numeral.kind := by
  obtain ⟨token, htoken, -⟩ := numeral.valid.exists_token 1
  have hkind : token.kind = numeral.kind := congrArg Lexeme.kind htoken
  have htext : token.text = numeral.text := congrArg Lexeme.text htoken
  have hliteral : token.kind = .integerLiteral ∨ token.kind = .unsignedLiteral := by
    rw [hkind]
    exact (TokenKind.isLiteral_iff.1 numeral.isLiteral_kind).symm
  rw [← htext, ← token.kind_eq_defaultKind hliteral, hkind]

theorem fits_value (numeral : Numeral) : (Trace.value numeral.literal).Fits numeral.lexeme := by
  intro token htoken
  have hkind : token.kind = numeral.kind := congrArg Lexeme.kind htoken
  have htext : token.text = numeral.text := congrArg Lexeme.text htoken
  have hdecoded := token.decoded
  rw [hkind, htext, numeral.decode_text] at hdecoded
  exact ⟨hkind.trans numeral.literal_kind.symm, (Except.ok.inj hdecoded).symm⟩

theorem not_sticks (numeral : Numeral) : ¬Lexeme.Sticks ⟨.assignment, "="⟩ numeral.lexeme := by
  have hhead := (numeral.valid.admits.literal numeral.isLiteral_kind).1
  rintro (⟨hword, -⟩ | ⟨-, hequals⟩ | ⟨htext, -⟩ | ⟨htext, -⟩)
  · cases hword
  · rw [hequals] at hhead
    cases hhead
  · exact absurd htext (by decide)
  · exact absurd htext (by decide)

theorem written_default (numeral : Numeral) :
    Written [⟨.assignment, "="⟩, numeral.lexeme]
      [.mark .assignment, .text (defaultKind numeral.text) numeral.text] := by
  have hassignment : Lexeme.Valid ⟨.assignment, "="⟩ :=
    Lexeme.valid_of_mem_spellings (by decide)
  have hnumeral : Written [numeral.lexeme] [.text (defaultKind numeral.text) numeral.text] := by
    rw [defaultKind_text]
    exact .text numeral.valid numeral.isWord_kind
  refine ⟨List.forall_mem_cons.2 ⟨hassignment, hnumeral.valid⟩, .cons ?_ hnumeral.fits,
    List.isChain_cons_cons.2 ⟨fun h => absurd h numeral.not_sticks, hnumeral.apart⟩, hnumeral.last⟩
  exact fun _ htoken => ⟨congrArg Lexeme.kind htoken, trivial⟩

end Numeral

namespace Source

theorem Parameter.written (p : Parameter) : Written p.lexemes p.meaning.traces :=
  p.type.written.append p.name.written

theorem parameters_written (parameters : List Parameter) :
    Written (parameterLexemes parameters) (parameterTraces (parameters.map Parameter.meaning)) := by
  cases parameters with
  | nil => exact .nil
  | cons first later =>
    refine first.written.append (.flatMap (fun p => ?_) later)
    exact (Written.mark (by decide) (by decide)).append p.written

theorem Function.written (f : Function) : Written f.lexemes f.meaning.header := by
  refine (f.returnType.written.append (f.name.written.append (.mark ?_ ?_))).append
    ((parameters_written f.parameters).append ((Written.mark ?_ ?_).append (.mark ?_ ?_)))
  all_goals decide

theorem Variable.written (v : Variable) : Written v.lexemes v.meaning.traces := by
  obtain ⟨type, name, _ | numeral⟩ := v
  · refine (type.written.append name.written).append (Written.mark ?_ ?_)
    all_goals decide
  · refine (type.written.append name.written).append
      (numeral.written_default.append (Written.mark ?_ ?_))
    all_goals decide

theorem Returned.written (r : Returned) : Written [r.lexeme] [r.meaning.trace] := by
  cases r with
  | literal numeral =>
    rw [meaning, Declang.Returned.trace_ofLiteral]
    exact .single numeral.valid numeral.fits_value (numeral.valid.loose numeral.isWord_kind)
  | name name => exact name.written

theorem Statement.written (statement : Statement) :
    Written statement.lexemes statement.meaning.traces := by
  cases statement with
  | declaration v => exact v.written
  | return_ returned =>
    have hreturn : Written [⟨.returnKeyword, "return"⟩] [.mark .returnKeyword] :=
      .mark (by decide) (by decide)
    have hsemicolon : Written [⟨.semicolon, ";"⟩] [.mark .semicolon] :=
      .mark (by decide) (by decide)
    cases returned with
    | none => exact hreturn.append hsemicolon
    | some r => exact hreturn.append (r.written.append hsemicolon)

theorem Item.written (item : Item) : Written item.lexemes item.meaning.traces := by
  cases item with
  | declaration v => exact v.written
  | function f body =>
    exact f.written.append ((Written.flatMap Statement.written body).append
      (.mark (by decide) (by decide)))

end Source

/-- Blanks between words are enough to keep all lexemes of a program apart. -/
theorem Written.spaced {lexemes : List Lexeme} {traces : List Trace} (h : Written lexemes traces)
    {pieces : List (List Char × Lexeme)} {tail : List Char}
    (hpieces : pieces.map Prod.snd = lexemes)
    (hspaced : Spaced Lexeme.BothWords pieces tail) : Spaced Lexeme.Sticks pieces tail := by
  have hapart := h.apart
  rw [← hpieces, List.isChain_map] at hapart
  refine ⟨hspaced.blank, hspaced.blank_tail, List.isChain_iff_getElem.2 fun i hi hsticks => ?_⟩
  exact List.isChain_iff_getElem.1 hspaced.apart i hi
    (List.isChain_iff_getElem.1 hapart i hi hsticks)

theorem exists_tokens {lexemes : List Lexeme} (hvalid : ∀ lexeme ∈ lexemes, lexeme.Valid)
    (line : Nat → Nat) :
    ∃ tokens : List Token, tokens.map Token.lexeme = lexemes ∧
      ∀ i (h : i < tokens.length), tokens[i].line = line i := by
  induction lexemes generalizing line with
  | nil => exact ⟨[], rfl, fun i hi => by cases hi⟩
  | cons lexeme lexemes ih =>
    obtain ⟨hfirst, hlater⟩ := List.forall_mem_cons.1 hvalid
    obtain ⟨token, htoken, hline⟩ := hfirst.exists_token (line 0)
    obtain ⟨tokens, htokens, hlines⟩ := ih hlater fun i => line (i + 1)
    refine ⟨token :: tokens, by rw [List.map_cons, htoken, htokens], fun i hi => ?_⟩
    cases i with
    | zero => exact hline
    | succ i => exact hlines i (Nat.lt_of_succ_lt_succ hi)

theorem Written.forall₂_of {lexemes : List Lexeme} {traces : List Trace}
    (h : Written lexemes traces) {tokens : List Token} (htokens : tokens.map Token.lexeme = lexemes) :
    List.Forall₂ Trace.Of traces tokens := by
  have hfits := h.fits
  rw [← htokens, List.forall₂_map_right_iff] at hfits
  exact hfits.imp fun trace token hfit => hfit token rfl

/-- A program survives being written and read: whatever blanks are put around its lexemes, as long
as words stay apart, its text is processed, and the tree reads back as the program. -/
theorem process_layout (program : List Source.Item) (pieces : List (List Char × Lexeme))
    (tail : List Char)
    (hpieces : pieces.map Prod.snd = program.flatMap Source.Item.lexemes)
    (hspaced : Spaced Lexeme.BothWords pieces tail) :
    ∃ arena, process (String.ofList (spread pieces ++ tail)) = .ok arena ∧
      arena.items? = some (program.map Source.Item.meaning) := by
  have hwritten := Written.flatMap Source.Item.written program
  have hvalid : ∀ piece ∈ pieces, piece.2.Valid := by
    refine List.forall_mem_map.1 ?_
    rw [hpieces]
    exact hwritten.valid
  obtain ⟨tokens, htokens, hline⟩ := exists_tokens hwritten.valid
    fun i => 1 + (textBefore pieces i).count '\n'
  have hlex : lex (String.ofList (spread pieces ++ tail)) = .ok tokens := by
    rw [lex_eq_lexText, String.toList_ofList]
    exact (Laid.of_spaced (hwritten.spaced hpieces hspaced) (htokens.trans hpieces.symm) hvalid
      hline).lexText_eq
  have hparse := parse_eq_ok_iff.2 ⟨_, hwritten.forall₂_of htokens, rfl⟩
  refine ⟨_, ?_, Arena.items?_ofTree _⟩
  rw [process, hlex]
  simp only [hparse]
  rfl

theorem process_layout_function :
    ∃ arena, process
        "\u00a0int\r\nf(byte a,uint b)\x7bint c=07;\n\treturn 4294967295u ;\x7d\n" = .ok arena ∧
      arena.items? = some [.function ⟨"int", "f", [⟨"byte", "a"⟩, ⟨"uint", "b"⟩]⟩
        [.declaration ⟨"int", "c", some "07"⟩, .return_ (some (.uint 4294967295))]] :=
  process_layout
    [.function ⟨.int, ⟨"f", by decide⟩, [⟨.byte, ⟨"a", by decide⟩⟩, ⟨.uint, ⟨"b", by decide⟩⟩]⟩
      [.declaration ⟨.int, ⟨"c", by decide⟩, some ⟨['0', '7'], false, by decide, by decide⟩⟩,
        .return_ (some (.literal ⟨"4294967295".toList, true, by decide, by decide⟩))]]
    [(['\u00a0'], ⟨.typeKeyword, "int"⟩), (['\r', '\n'], ⟨.identifier, "f"⟩),
      ([], ⟨.openParen, "("⟩), ([], ⟨.typeKeyword, "byte"⟩), ([' '], ⟨.identifier, "a"⟩),
      ([], ⟨.comma, ","⟩), ([], ⟨.typeKeyword, "uint"⟩), ([' '], ⟨.identifier, "b"⟩),
      ([], ⟨.closeParen, ")"⟩), ([], ⟨.openBrace, "\x7b"⟩), ([], ⟨.typeKeyword, "int"⟩),
      ([' '], ⟨.identifier, "c"⟩), ([], ⟨.assignment, "="⟩), ([], ⟨.integerLiteral, "07"⟩),
      ([], ⟨.semicolon, ";"⟩), (['\n', '\t'], ⟨.returnKeyword, "return"⟩),
      ([' '], ⟨.unsignedLiteral, "4294967295u"⟩), ([' '], ⟨.semicolon, ";"⟩),
      ([], ⟨.closeBrace, "\x7d"⟩)]
    ['\n'] (by decide) ⟨by decide, by decide, by decide⟩

end Declang
