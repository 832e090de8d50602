import Declang.Proofs.Parse.Read
namespace Declang

/-- The length of a function header with this number of parameters. -/
def IsHeaderLength (length count : Nat) : Prop :=
  count = 0 ∧ length = 5 ∨ 1 ≤ count ∧ length = 3 * count + 4

theorem parameterCount_eq_ok_iff {length count : Nat} :
    parameterCount length = .ok count ↔ IsHeaderLength length count := by
  unfold parameterCount IsHeaderLength
  split
  · rw [Except.ok.injEq]
    omega
  · split
    · rw [Except.ok.injEq]
      omega
    · constructor
      · intro h
        cases h
      · omega

/-- What a difference or a sum of 64 bits can miss. -/
inductive OutOfWord where
  | underflow
  | overflow
  deriving DecidableEq, Repr

def wordSub (a b : Nat) : Except OutOfWord Nat :=
  if b ≤ a then .ok (a - b) else .error .underflow

def wordAdd (a b : Nat) : Except OutOfWord Nat :=
  if a + b < 2 ^ 64 then .ok (a + b) else .error .overflow

/-- The number of parameters with every difference and sum checked. -/
def checkedParameterCount (length : Nat) : Except OutOfWord (Except Defect Nat) := do
  if length = 5 then
    return .ok 0
  else if 7 ≤ length then
    let remainder := (← wordSub length 7) % 3
    if remainder = 0 then
      let later := (← wordSub length 7) / 3
      return .ok (← wordAdd later 1)
    else
      return .error (.headerLength length)
  else
    return .error (.headerLength length)

theorem checkedParameterCount_eq {length : Nat} (h : length < 2 ^ 64) :
    checkedParameterCount length = .ok (parameterCount length) := by
  unfold checkedParameterCount parameterCount
  by_cases hfive : length = 5
  · rw [if_pos hfive, if_pos hfive]
    rfl
  rw [if_neg hfive, if_neg hfive]
  by_cases hseven : 7 ≤ length
  · have hsub : wordSub length 7 = .ok (length - 7) := if_pos hseven
    have hadd : wordAdd ((length - 7) / 3) 1 = .ok ((length - 7) / 3 + 1) := if_pos (by omega)
    rw [if_pos hseven, hsub]
    change (if (length - 7) % 3 = 0 then _ else _) = _
    by_cases hthree : (length - 7) % 3 = 0
    · rw [if_pos hthree, if_pos ⟨hseven, hthree⟩]
      change (wordAdd ((length - 7) / 3) 1 >>= _) = _
      rw [hadd]
      rfl
    · rw [if_neg hthree, if_neg fun h => hthree h.2]
      rfl
  · rw [if_neg hseven, if_neg fun h => hseven h.1]
    rfl

/-- The tokens behind the first opening parenthesis and before the next closing one. -/
def parenthesized (tokens : List Token) : List Token :=
  (tokens.dropWhile (·.kind ≠ .openParen)).tail.takeWhile (·.kind ≠ .closeParen)

/-- The pairs of a type keyword and the identifier right behind it. -/
def typedNames (tokens : List Token) : List (Token × Token) :=
  (tokens.zip tokens.tail).filter fun (first, second) =>
    first.kind = .typeKeyword ∧ second.kind = .identifier

theorem typedNames_cons_of_ne {first : Token} (h : first.kind ≠ .typeKeyword)
    (tokens : List Token) : typedNames (first :: tokens) = typedNames tokens := by
  cases tokens with
  | nil => rfl
  | cons second tokens => simp [typedNames, h]

theorem typedNames_cons_cons {first second : Token} (hfirst : first.kind = .typeKeyword)
    (hsecond : second.kind = .identifier) (tokens : List Token) :
    typedNames (first :: second :: tokens) = (first, second) :: typedNames tokens := by
  have hne : second.kind ≠ .typeKeyword := by
    rw [hsecond]
    decide
  rw [← typedNames_cons_of_ne hne tokens]
  simp [typedNames, hfirst, hsecond]

theorem exists_pair_of_traces {p : Parameter} {traces : List Trace} {tokens : List Token}
    (h : List.Forall₂ Trace.Of (p.traces ++ traces) tokens) :
    ∃ first second rest, tokens = first :: second :: rest ∧ first.kind = .typeKeyword ∧
      second.kind = .identifier ∧ List.Forall₂ Trace.Of traces rest := by
  obtain ⟨first, _, hfirst, hlater, rfl⟩ := List.forall₂_cons_left_iff.1 h
  obtain ⟨second, rest, hsecond, hrest, rfl⟩ := List.forall₂_cons_left_iff.1 hlater
  exact ⟨first, second, rest, rfl, hfirst.1, hsecond.1, hrest⟩

theorem getElem?_append_of_eq_some {α : Type} {as : List α} {i : Nat} {a : α} (h : as[i]? = some a)
    (bs : List α) : (as ++ bs)[i]? = some a := by
  rw [List.getElem?_append_left (List.getElem?_eq_some_iff.1 h).1, h]

/-- A pair and the comma before it stand at `offset`. -/
structure Placed (tokens : List Token) (offset : Nat) (pair : Token × Token) : Prop where
  comma : ∃ token, tokens[offset]? = some token ∧ token.kind = .comma
  first : tokens[offset + 1]? = some pair.1
  second : tokens[offset + 2]? = some pair.2

theorem Placed.append {tokens : List Token} {offset : Nat} {pair : Token × Token}
    (h : Placed tokens offset pair) (rest : List Token) : Placed (tokens ++ rest) offset pair := by
  obtain ⟨⟨token, htoken, hkind⟩, hfirst, hsecond⟩ := h
  exact ⟨⟨token, getElem?_append_of_eq_some htoken rest, hkind⟩,
    getElem?_append_of_eq_some hfirst rest, getElem?_append_of_eq_some hsecond rest⟩

theorem typedNames_laterTraces {later : List Parameter} {tokens : List Token}
    (h : List.Forall₂ Trace.Of (laterTraces later) tokens) :
    (typedNames tokens).length = later.length ∧
      ∀ {i pair}, (typedNames tokens)[i]? = some pair → Placed tokens (3 * i) pair := by
  induction later generalizing tokens with
  | nil =>
    cases h
    exact ⟨rfl, fun h => (nomatch h)⟩
  | cons p later ih =>
    obtain ⟨comma, _, hcomma, hpair, rfl⟩ := List.forall₂_cons_left_iff.1 h
    obtain ⟨first, second, tokens, rfl, hfirst, hsecond, hlater⟩ := exists_pair_of_traces hpair
    have hne : comma.kind ≠ .typeKeyword := by
      rw [hcomma.1]
      decide
    obtain ⟨hlength, hplaced⟩ := ih hlater
    rw [typedNames_cons_of_ne hne, typedNames_cons_cons hfirst hsecond]
    constructor
    · rw [List.length_cons, List.length_cons, hlength]
    · intro i pair hpair
      cases i with
      | zero =>
        cases hpair
        exact ⟨⟨comma, rfl, hcomma.1⟩, rfl, rfl⟩
      | succ i =>
        obtain ⟨hcomma, hfirst, hsecond⟩ := hplaced hpair
        exact ⟨hcomma, hfirst, hsecond⟩

theorem kind_ne_closeParen {parameters : List Parameter} {tokens : List Token}
    (h : List.Forall₂ Trace.Of (parameterTraces parameters) tokens) {token : Token}
    (htoken : token ∈ tokens) : token.kind ≠ .closeParen := by
  have htraces : ∀ trace ∈ parameterTraces parameters, trace.kind ≠ .closeParen := by
    cases parameters with
    | nil => exact fun _ htrace => (nomatch htrace)
    | cons first later =>
      intro trace htrace
      simp only [parameterTraces, laterTraces, Parameter.traces, List.mem_append, List.mem_flatMap,
        List.mem_cons, List.not_mem_nil, or_false] at htrace
      rcases htrace with (rfl | rfl) | ⟨p, -, rfl | rfl | rfl⟩ <;> simp [Trace.kind]
  have hkind : token.kind ∈ (parameterTraces parameters).map Trace.kind :=
    map_kind_of_forall₂ h ▸ List.mem_map_of_mem htoken
  obtain ⟨trace, htrace, hkind⟩ := List.mem_map.1 hkind
  exact hkind ▸ htraces trace htrace

theorem parenthesized_eq {first second opening closing : Token} {inner : List Token}
    (hfirst : first.kind ≠ .openParen) (hsecond : second.kind ≠ .openParen)
    (hopening : opening.kind = .openParen) (hinner : ∀ token ∈ inner, token.kind ≠ .closeParen)
    (hclosing : closing.kind = .closeParen) (rest : List Token) :
    parenthesized (first :: second :: opening :: (inner ++ closing :: rest)) = inner := by
  have hdrop : (first :: second :: opening :: (inner ++ closing :: rest)).dropWhile
      (·.kind ≠ .openParen) = opening :: (inner ++ closing :: rest) := by
    simp [hfirst, hsecond, hopening]
  rw [parenthesized, hdrop, List.tail_cons, List.takeWhile_append_of_pos,
    List.takeWhile_cons_of_neg, List.append_nil]
  · simp [hclosing]
  · simpa using hinner

theorem exists_parenthesized {f : Function} {tokens : List Token}
    (h : List.Forall₂ Trace.Of f.header tokens) :
    ∃ returnType name opening inner ending,
      tokens = returnType :: name :: opening :: (inner ++ ending) ∧
      (∀ rest, parenthesized (tokens ++ rest) = inner) ∧
      List.Forall₂ Trace.Of (parameterTraces f.parameters) inner := by
  obtain ⟨_, _, rfl, hstart, hlater⟩ := forall₂_append_iff.1 h
  obtain ⟨inner, _, rfl, hinner, hending⟩ := forall₂_append_iff.1 hlater
  obtain _ | ⟨hreturn, _ | ⟨hname, _ | ⟨hopening, _ | _⟩⟩⟩ := hstart
  obtain _ | ⟨hclosing, _ | ⟨hbrace, _ | _⟩⟩ := hending
  refine ⟨_, _, _, inner, _, rfl, fun rest => ?_, hinner⟩
  change parenthesized (_ :: _ :: _ :: (inner ++ [_, _] ++ rest)) = inner
  rw [List.append_assoc]
  apply parenthesized_eq _ _ hopening.1 (fun _ => kind_ne_closeParen hinner) hclosing.1
  · rw [hreturn.1]
    exact TokenKind.noConfusion
  · rw [hname.1]
    exact TokenKind.noConfusion

theorem typedNames_header {f : Function} {tokens : List Token}
    (h : List.Forall₂ Trace.Of f.header tokens) (rest : List Token) :
    (typedNames (parenthesized (tokens ++ rest))).length = f.parameters.length ∧
      ∀ {i pair}, (typedNames (parenthesized (tokens ++ rest)))[i]? = some pair →
        tokens[3 * i + 3]? = some pair.1 ∧ tokens[3 * i + 4]? = some pair.2 ∧
          (0 < i → ∃ token, tokens[3 * i + 2]? = some token ∧ token.kind = .comma) := by
  obtain ⟨returnType, name, opening, inner, ending, rfl, hinner, h⟩ := exists_parenthesized h
  rw [hinner]
  generalize f.parameters = parameters at h
  cases parameters with
  | nil =>
    cases h
    exact ⟨rfl, fun h => (nomatch h)⟩
  | cons p later =>
    obtain ⟨first, second, inner, rfl, hfirst, hsecond, hlater⟩ := exists_pair_of_traces h
    obtain ⟨hlength, hplaced⟩ := typedNames_laterTraces hlater
    rw [typedNames_cons_cons hfirst hsecond]
    constructor
    · rw [List.length_cons, List.length_cons, hlength]
    · intro i pair hpair
      cases i with
      | zero =>
        cases hpair
        exact ⟨rfl, rfl, fun h => absurd h (Nat.lt_irrefl 0)⟩
      | succ i =>
        obtain ⟨hcomma, hfirst, hsecond⟩ := (hplaced hpair).append ending
        exact ⟨hfirst, hsecond, fun _ => hcomma⟩

theorem kinds_of_mem_typedNames {tokens : List Token} {first second : Token}
    (h : (first, second) ∈ typedNames tokens) :
    first.kind = .typeKeyword ∧ second.kind = .identifier := by
  simpa [typedNames] using (List.mem_filter.1 h).2

theorem exists_header_of_take? {tokens : List Token} {n : Nat}
    (h : Production.functionDefinition.pattern.take? (tokens.map Token.kind) = some n) :
    ∃ f : Function, f.header.length = n ∧ List.Forall₂ Trace.Of f.header (tokens.take n) := by
  obtain ⟨hle, hword⟩ := Pattern.take?_sound h
  rw [← List.map_take] at hword
  rw [List.length_map] at hle
  obtain ⟨clause, hproduction, htokens⟩ := (Production.mem_language_pattern _ _).1 hword
  cases clause with
  | header f => exact ⟨f, htokens.length_eq.trans (List.length_take_of_le hle), htokens⟩
  | declaration v => cases hproduction
  | return_ returned => cases hproduction
  | close => cases hproduction

/-- The number of parameters is told by the length of a header alone, and the offsets that follow
from it are those of the parameters. -/
theorem header_arithmetic_exact :
    (∀ (tokens : List Token) (n : Nat),
      Production.functionDefinition.pattern.take? (tokens.map Token.kind) = some n →
      ∃ k, IsHeaderLength n k ∧ (∀ other, IsHeaderLength n other → other = k) ∧
        parameterCount n = .ok k ∧ (typedNames (parenthesized tokens)).length = k ∧
        ∀ i < k, ∃ first second,
          (typedNames (parenthesized tokens))[i]? = some (first, second) ∧
          first.kind = .typeKeyword ∧ second.kind = .identifier ∧
          tokens[3 * i + 3]? = some first ∧ tokens[3 * i + 4]? = some second ∧
          (0 < i → ∃ comma, tokens[3 * i + 2]? = some comma ∧ comma.kind = .comma) ∧
          readParameter (tokens.take n) i = .ok ⟨first.text, second.text⟩) ∧
    (∀ n, (∃ k, parameterCount n = .ok k) ↔ n = 5 ∨ 7 ≤ n ∧ 3 ∣ n - 7) ∧
    (∀ m n k, parameterCount m = .ok k → parameterCount n = .ok k → m = n) ∧
    ∀ n < 2 ^ 64, checkedParameterCount n = .ok (parameterCount n) := by
  refine ⟨?_, ?_, ?_, fun n hn => checkedParameterCount_eq hn⟩
  · intro tokens n htake
    obtain ⟨f, rfl, hheader⟩ := exists_header_of_take? htake
    have hcount := parameterCount_header f
    have hlength := parameterCount_eq_ok_iff.1 hcount
    obtain ⟨hpairs, hplaced⟩ := typedNames_header hheader (tokens.drop f.header.length)
    rw [List.take_append_drop] at hpairs hplaced
    refine ⟨_, hlength, ?_, hcount, hpairs, ?_⟩
    · intro other hother
      exact Except.ok.inj ((parameterCount_eq_ok_iff.2 hother).symm.trans hcount)
    · intro i hi
      obtain ⟨⟨first, second⟩, hpair⟩ :
          ∃ pair, (typedNames (parenthesized tokens))[i]? = some pair :=
        ⟨_, List.getElem?_eq_getElem (hpairs ▸ hi)⟩
      obtain ⟨hfirst, hsecond, hcomma⟩ := hplaced hpair
      obtain ⟨hfirstKind, hsecondKind⟩ := kinds_of_mem_typedNames (List.mem_of_getElem? hpair)
      have hkept {j : Nat} {token : Token}
          (htoken : (tokens.take f.header.length)[j]? = some token) : tokens[j]? = some token := by
        rw [← List.take_append_drop f.header.length tokens]
        exact getElem?_append_of_eq_some htoken _
      refine ⟨first, second, hpair, hfirstKind, hsecondKind, hkept hfirst, hkept hsecond, ?_, ?_⟩
      · intro hpos
        obtain ⟨comma, hcomma, hcommaKind⟩ := hcomma hpos
        exact ⟨comma, hkept hcomma, hcommaKind⟩
      · exact readParameter_of_getElem? hfirst hfirstKind hsecond hsecondKind hcomma
  · intro n
    simp only [parameterCount_eq_ok_iff, IsHeaderLength]
    constructor
    · rintro ⟨k, hk⟩
      omega
    · intro hn
      exact ⟨(n - 4) / 3, by omega⟩
  · intro m n k hm hn
    have hm := parameterCount_eq_ok_iff.1 hm
    have hn := parameterCount_eq_ok_iff.1 hn
    unfold IsHeaderLength at hm hn
    omega

/-- A function of two parameters and an empty body. -/
def headerTokens : List Token :=
  let spellings : List (TokenKind × String) :=
    [(.typeKeyword, "int"), (.identifier, "f"), (.openParen, "("), (.typeKeyword, "byte"),
      (.identifier, "a"), (.comma, ","), (.typeKeyword, "uint"), (.identifier, "b"),
      (.closeParen, ")"), (.openBrace, "\x7b"), (.closeBrace, "\x7d")]
  spellings.filterMap fun (kind, text) => (Token.make kind text 1).toOption

theorem header_arithmetic_exact_two :
    Production.functionDefinition.pattern.take? (headerTokens.map Token.kind) = some 10 ∧
      (∃ k, IsHeaderLength 10 k ∧ parameterCount 10 = .ok k ∧
        (typedNames (parenthesized headerTokens)).length = k) ∧
      (∃ n, parameterCount n = .ok 2 ∧ n = 10) ∧
      (10 < 2 ^ 64 ∧ checkedParameterCount 10 = .ok (parameterCount 10)) := by
  have htake : Production.functionDefinition.pattern.take? (headerTokens.map Token.kind) =
      some 10 := take?_header ⟨"int", "f", [⟨"byte", "a"⟩, ⟨"uint", "b"⟩]⟩ [.closeBrace]
  have hcount : parameterCount 10 = .ok 2 := rfl
  have hlimit : 10 < 2 ^ 64 := by decide
  obtain ⟨hheader, -, hinjective, hchecked⟩ := header_arithmetic_exact
  obtain ⟨k, hk, -, hcount', hpairs, -⟩ := hheader headerTokens 10 htake
  exact ⟨htake, ⟨k, hk, hcount', hpairs⟩, ⟨10, hcount, hinjective 10 10 2 hcount hcount⟩, hlimit,
    hchecked 10 hlimit⟩

end Declang
