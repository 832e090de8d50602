import Mathlib
import Declang.Format
import Declang.Proofs.Parse.Words
namespace Declang

theorem Parameter.label_append_inj {p q : Parameter} {rest more : List Char} (hp : p.Worded)
    (hq : q.Worded) (hrest : rest.head?.any isWordChar = false)
    (hmore : more.head?.any isWordChar = false)
    (h : p.label.toList ++ rest = q.label.toList ++ more) : p = q ∧ rest = more := by
  obtain ⟨type, name⟩ := p
  obtain ⟨type', name'⟩ := q
  simp only [label, String.toList_append, List.append_assoc] at h
  obtain ⟨rfl, hname⟩ := hp.1.append_inj hq.1 rfl rfl h
  obtain ⟨rfl, htail⟩ := hp.2.append_inj hq.2 hrest hmore (List.append_cancel_left hname)
  exact ⟨rfl, htail⟩

def laterLabels (later : List Parameter) : List Char :=
  later.flatMap fun p => ',' :: ' ' :: p.label.toList

theorem head?_laterLabels (later : List Parameter) :
    (laterLabels later).head?.any isWordChar = false := by
  cases later <;> rfl

theorem toList_intercalate_label (first : Parameter) (later : List Parameter) :
    (", ".intercalate ((first :: later).map Parameter.label)).toList =
      first.label.toList ++ laterLabels later := by
  induction later generalizing first with
  | nil => simp [laterLabels]
  | cons second later ih =>
    have hlater := ih second
    rw [List.map_cons] at hlater
    rw [List.map_cons, List.map_cons, String.intercalate_cons_cons, String.toList_append, hlater]
    simp [laterLabels]

theorem laterLabels_inj {later more : List Parameter} (hlater : ∀ p ∈ later, p.Worded)
    (hmore : ∀ p ∈ more, p.Worded) (h : laterLabels later = laterLabels more) : later = more := by
  induction later generalizing more with
  | nil =>
    cases more with
    | nil => rfl
    | cons q more => cases h
  | cons p later ih =>
    cases more with
    | nil => cases h
    | cons q more =>
      obtain ⟨hp, hlater⟩ := List.forall_mem_cons.1 hlater
      obtain ⟨hq, hothers⟩ := List.forall_mem_cons.1 hmore
      obtain ⟨rfl, htail⟩ := Parameter.label_append_inj hp hq (head?_laterLabels later)
        (head?_laterLabels more) (List.cons.inj (List.cons.inj h).2).2
      rw [ih hlater hothers htail]

theorem Function.parameters_inj {f g : Function} (hf : ∀ p ∈ f.parameters, p.Worded)
    (hg : ∀ p ∈ g.parameters, p.Worded) (h : f.parameterList = g.parameterList) :
    f.parameters = g.parameters := by
  have hlist := congrArg String.toList h
  rw [parameterList, parameterList] at hlist
  cases hparameters : f.parameters with
  | nil =>
    cases hmore : g.parameters with
    | nil => rfl
    | cons q more =>
      rw [hparameters, hmore, toList_intercalate_label] at hlist
      exact absurd hlist (by simp [Parameter.label])
  | cons p later =>
    cases hmore : g.parameters with
    | nil =>
      rw [hparameters, hmore, toList_intercalate_label] at hlist
      exact absurd hlist (by simp [Parameter.label])
    | cons q more =>
      rw [hparameters, hmore, toList_intercalate_label, toList_intercalate_label] at hlist
      rw [hparameters] at hf
      rw [hmore] at hg
      obtain ⟨hp, hlater⟩ := List.forall_mem_cons.1 hf
      obtain ⟨hq, hothers⟩ := List.forall_mem_cons.1 hg
      obtain ⟨rfl, htail⟩ := Parameter.label_append_inj hp hq (head?_laterLabels later)
        (head?_laterLabels more) hlist
      rw [laterLabels_inj hlater hothers htail]

namespace NodeKind

/-- The word that a label starts with. -/
def headword : NodeKind → String
  | program => "PROGRAM"
  | function _ => "FUNCTION"
  | declaration _ => "VAR"
  | return_ => "RETURN"
  | int _ => "INT"
  | uint _ => "UINT"
  | identifier _ => "IDENT"

/-- What stands after the first word of a label. -/
def detail : NodeKind → List Char
  | program | return_ => []
  | function f => ' ' :: (f.name.toList ++ '(' :: (f.parameterList.toList ++ [')']))
  | declaration v =>
    ' ' :: (v.typeName.toList ++ ' ' :: (v.name.toList
      ++ ' ' :: '=' :: ' ' :: (v.defaultValue.getD "<DEFAULT>").toList))
  | int value => ' ' :: (toString value.toInt).toList
  | uint value => ' ' :: (toString value.toNat).toList
  | identifier name => ' ' :: name.toList

theorem toList_label (kind : NodeKind) : kind.label.toList = kind.headword.toList ++ kind.detail := by
  cases kind <;> simp [label, headword, detail]

theorem isWord_headword (kind : NodeKind) : IsWord kind.headword := by
  have hwords : ∀ word ∈ ["PROGRAM", "FUNCTION", "VAR", "RETURN", "INT", "UINT", "IDENT"],
      IsWord word := by decide
  apply hwords
  cases kind <;> simp [headword]

theorem head?_detail (kind : NodeKind) : kind.detail.head?.any isWordChar = false := by
  cases kind <;> rfl

theorem getD_default_inj {value other : Option String} (h : ∀ text ∈ value, IsWord text)
    (hother : ∀ text ∈ other, IsWord text)
    (heq : value.getD "<DEFAULT>" = other.getD "<DEFAULT>") : value = other := by
  have hmissing : ¬IsWord "<DEFAULT>" := by decide
  cases value with
  | none =>
    cases other with
    | none => rfl
    | some text =>
      obtain rfl : "<DEFAULT>" = text := heq
      exact absurd (hother _ rfl) hmissing
  | some text =>
    cases other with
    | none =>
      obtain rfl : text = "<DEFAULT>" := heq
      exact absurd (h _ rfl) hmissing
    | some word => exact congrArg some heq

/-- Forgets the return type of a function. -/
def eraseReturnType : NodeKind → NodeKind
  | function f => function { f with returnType := "" }
  | kind => kind

/-- A label tells all of a payload but the return type of a function. -/
theorem label_inj {kind other : NodeKind} (h : kind.Worded) (hother : other.Worded)
    (heq : kind.label = other.label) : kind.eraseReturnType = other.eraseReturnType := by
  have hlist := congrArg String.toList heq
  rw [toList_label, toList_label] at hlist
  obtain ⟨hhead, hdetail⟩ := kind.isWord_headword.append_inj other.isWord_headword
    kind.head?_detail other.head?_detail hlist
  -- The first word tells the kind, so what is left are two payloads of one kind.
  cases kind with
  | program =>
    cases other with
    | program => rfl
    | _ => simp [headword] at hhead
  | return_ =>
    cases other with
    | return_ => rfl
    | _ => simp [headword] at hhead
  | function f =>
    cases other with
    | function g =>
      obtain ⟨hname, htail⟩ := h.2.1.append_inj hother.2.1 rfl rfl (List.cons.inj hdetail).2
      have hlist := List.append_cancel_right (List.cons.inj htail).2
      have hparameters := Function.parameters_inj h.2.2 hother.2.2 (String.toList_inj.1 hlist)
      rw [eraseReturnType, eraseReturnType, hname, hparameters]
    | _ => simp [headword] at hhead
  | declaration v =>
    cases other with
    | declaration w =>
      obtain ⟨htype, hrest⟩ := h.1.append_inj hother.1 rfl rfl (List.cons.inj hdetail).2
      obtain ⟨hname, hrest⟩ := h.2.1.append_inj hother.2.1 rfl rfl (List.cons.inj hrest).2
      have hlist := (List.cons.inj (List.cons.inj (List.cons.inj hrest).2).2).2
      have hdefault := getD_default_inj h.2.2 hother.2.2 (String.toList_inj.1 hlist)
      rw [Variable.ext htype hname hdefault]
    | _ => simp [headword] at hhead
  | int value =>
    cases other with
    | int number =>
      have hvalue := Int.repr_injective (String.toList_inj.1 (List.cons.inj hdetail).2)
      rw [Int32.toInt_inj.1 hvalue]
    | _ => simp [headword] at hhead
  | uint value =>
    cases other with
    | uint number =>
      have hvalue := Nat.repr_injective (String.toList_inj.1 (List.cons.inj hdetail).2)
      rw [UInt32.toNat_inj.1 hvalue]
    | _ => simp [headword] at hhead
  | identifier name =>
    cases other with
    | identifier word => rw [String.toList_inj.1 (List.cons.inj hdetail).2]
    | _ => simp [headword] at hhead

end NodeKind

/-- What a format shows of the program in an arena. -/
def Arena.render? (arena : Arena) (format : Format) (options : FormatOptions) : Option String :=
  (arena.tree? root).bind fun tree => (format.renderTree options tree).toOption

theorem Arena.render?_ofTree (format : Format) (options : FormatOptions) (tree : Tree) :
    (ofTree tree).render? format options = (format.renderTree options tree).toOption := by
  rw [render?, tree?_ofTree, Option.bind_some]

end Declang
