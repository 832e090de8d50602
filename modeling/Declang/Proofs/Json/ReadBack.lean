import Declang.Json.Printer
import Declang.Json.Reader
namespace Declang.Json

theorem escape_cases (c : Char) :
    (∃ e, unescape? e = some c ∧ escape c = ['\\', e]) ∨
      (c.toNat < 0x20 ∧
        escape c = ['\\', 'u', '0', '0', hexDigit (c.toNat / 16), hexDigit (c.toNat % 16)]) ∨
      (¬c.toNat < 0x20 ∧ c ≠ '"' ∧ c ≠ '\\' ∧ escape c = [c]) := by
  have hnamed {named e : Char} (hunescape : unescape? e = some named)
      (hescape : escape named = ['\\', e]) (h : c = named) :
      ∃ e, unescape? e = some c ∧ escape c = ['\\', e] := by
    subst h
    exact ⟨e, hunescape, hescape⟩
  by_cases hquote : c = '"'
  · exact .inl (hnamed rfl rfl hquote)
  by_cases hbackslash : c = '\\'
  · exact .inl (hnamed rfl rfl hbackslash)
  by_cases hb : c = '\x08'
  · exact .inl (hnamed rfl rfl hb)
  by_cases hf : c = '\x0c'
  · exact .inl (hnamed rfl rfl hf)
  by_cases hn : c = '\n'
  · exact .inl (hnamed rfl rfl hn)
  by_cases hr : c = '\r'
  · exact .inl (hnamed rfl rfl hr)
  by_cases ht : c = '\t'
  · exact .inl (hnamed rfl rfl ht)
  simp only [escape, hquote, hbackslash, hb, hf, hn, hr, ht, if_false]
  by_cases hcontrol : c.toNat < 0x20
  · exact .inr (.inl ⟨hcontrol, if_pos hcontrol⟩)
  · exact .inr (.inr ⟨hcontrol, hquote, hbackslash, if_neg hcontrol⟩)

theorem hexValue?_hexDigit {n : Nat} (h : n < 16) : hexValue? (hexDigit n) = some n := by
  have hdigits : ∀ n < 16, hexValue? (hexDigit n) = some n := by decide
  exact hdigits n h

theorem hexUnit?_control {n : Nat} (h : n < 0x20) :
    hexUnit? '0' '0' (hexDigit (n / 16)) (hexDigit (n % 16)) = some n := by
  have hzero : hexValue? '0' = some 0 := rfl
  have hvalue : n / 16 * 16 + n % 16 = n := Nat.div_add_mod' n 16
  rw [hexUnit?, hzero, hexValue?_hexDigit (by omega), hexValue?_hexDigit (by omega)]
  simp [hvalue]

theorem readUnits?_escape (c : Char) (cs : List Char) :
    readUnits? (escape c ++ cs) =
      (readUnits? cs).map fun (units, rest) => (c.toNat :: units, rest) := by
  rcases escape_cases c with ⟨e, hunescape, hescape⟩ | ⟨hcontrol, hescape⟩ |
    ⟨hcontrol, hquote, hbackslash, hescape⟩
  · have hu : e ≠ 'u' := by
      rintro rfl
      cases hunescape
    rw [hescape, List.cons_append, List.singleton_append, readUnits?]
    · rw [hunescape]
      cases readUnits? cs <;> rfl
    · intro _ _ _ _ _ heq
      exact absurd heq hu
  · rw [hescape]
    simp only [List.cons_append, List.nil_append]
    rw [readUnits?, hexUnit?_control hcontrol]
    cases readUnits? cs <;> rfl
  · rw [hescape, List.singleton_append, readUnits?]
    · rw [if_neg hcontrol]
      cases readUnits? cs <;> rfl
    · exact fun heq => absurd heq hbackslash
    · exact fun heq => absurd heq hquote
    · exact fun _ _ _ _ _ heq => absurd heq hbackslash
    · exact fun _ _ heq => absurd heq hbackslash

theorem readUnits?_flatMap_escape (chars cs : List Char) :
    readUnits? (chars.flatMap escape ++ cs) =
      (readUnits? cs).map fun (units, rest) => (chars.map Char.toNat ++ units, rest) := by
  induction chars with
  | nil => cases h : readUnits? cs <;> simp [h]
  | cons c chars ih =>
    rw [List.flatMap_cons, List.append_assoc, readUnits?_escape, ih]
    cases readUnits? cs <;> rfl

/-- No character is half of a surrogate pair. -/
theorem joinUnits?_map_toNat (chars : List Char) :
    joinUnits? (chars.map Char.toNat) = some chars := by
  have hvalid (c : Char) : c.toNat < 0xD800 ∨ 0xE000 ≤ c.toNat := by
    rcases c.valid with h | ⟨h, -⟩
    · exact .inl h
    · exact .inr h
  induction chars with
  | nil => rfl
  | cons c chars ih =>
    have hc := hvalid c
    cases chars with
    | nil =>
      rw [List.map_cons, List.map_nil, joinUnits?, if_neg (by omega), Char.ofNat_toNat]
    | cons d chars =>
      rw [List.map_cons] at ih
      rw [List.map_cons, List.map_cons, joinUnits?, if_neg (by omega), if_neg (by omega), ih,
        Char.ofNat_toNat]
      rfl

theorem readText?_write (t : Text) (rest : List Char) :
    ∃ cs, t.write ++ rest = '"' :: cs ∧ readText? cs = some (t, rest) := by
  cases t with
  | whole s =>
    have hwrite : (Text.whole s).write = '"' :: (s.toList.flatMap escape ++ ['"']) := rfl
    refine ⟨s.toList.flatMap escape ++ '"' :: rest, by simp [hwrite], ?_⟩
    rw [readText?, readUnits?_flatMap_escape, readUnits?]
    simp [joinUnits?_map_toNat]
  | broken =>
    have hunit : hexUnit? 'd' '8' '0' '0' = some 0xD800 := rfl
    refine ⟨'\\' :: 'u' :: 'd' :: '8' :: '0' :: '0' :: '"' :: rest, rfl, ?_⟩
    rw [readText?, readUnits?, hunit, readUnits?]
    rfl

/-- All that a layout puts between the parts of a value is skipped when it is read. -/
structure Layout.Blank (layout : Layout) : Prop where
  line (depth : Nat) : (layout.line depth).all isGap = true
  colon : ∃ gap, layout.colon = ':' :: gap ∧ gap.all isGap = true

theorem Layout.blank_compact : Layout.compact.Blank :=
  ⟨fun _ => rfl, [], rfl, rfl⟩

theorem Layout.blank_pretty : Layout.pretty.Blank := by
  refine ⟨fun depth => ?_, [' '], rfl, rfl⟩
  have hindent : (List.replicate (2 * depth) ' ').all isGap = true :=
    List.all_eq_true.2 fun c hc => (List.eq_of_mem_replicate hc) ▸ rfl
  exact Bool.and_eq_true_iff.2 ⟨rfl, hindent⟩

theorem skipGap_append {gap : List Char} (h : gap.all isGap = true) (cs : List Char) :
    skipGap (gap ++ cs) = skipGap cs :=
  List.dropWhile_append_of_pos (List.all_eq_true.1 h)

theorem skipGap_cons {c : Char} (h : isGap c = false) (cs : List Char) :
    skipGap (c :: cs) = c :: cs :=
  List.dropWhile_cons_of_neg (Bool.eq_false_iff.1 h)

mutual

/-- No number occurs in the value, so its text shows by itself where it ends. -/
def NumberFree : Json → Prop
  | number _ => False
  | array items => ItemsNumberFree items
  | object fields => FieldsNumberFree fields
  | _ => True

def ItemsNumberFree : List Json → Prop
  | [] => True
  | item :: items => item.NumberFree ∧ ItemsNumberFree items

def FieldsNumberFree : List (Text × Json) → Prop
  | [] => True
  | (_, value) :: fields => value.NumberFree ∧ FieldsNumberFree fields

end

theorem numberFree_record {fields : List (String × Json)} :
    (record fields).NumberFree ↔ ∀ field ∈ fields, field.2.NumberFree := by
  rw [record, NumberFree]
  induction fields with
  | nil => simp [FieldsNumberFree]
  | cons field fields ih => rw [List.map_cons, FieldsNumberFree, ih, List.forall_mem_cons]

theorem exists_write_cons {value : Json} (h : value.NumberFree) (layout : Layout) (depth : Nat) :
    ∃ c cs, value.write layout depth = c :: cs ∧ isGap c = false ∧ c ≠ ']' := by
  cases value with
  | null => exact ⟨'n', _, rfl, rfl, by decide⟩
  | bool value => cases value <;> exact ⟨_, _, rfl, rfl, by decide⟩
  | number spelling => exact h.elim
  | text t =>
    obtain ⟨cs, hwrite, -⟩ := readText?_write t []
    rw [List.append_nil] at hwrite
    exact ⟨'"', cs, hwrite, rfl, by decide⟩
  | array items => cases items <;> exact ⟨'[', _, rfl, rfl, by decide⟩
  | object fields => cases fields <;> exact ⟨'\x7b', _, rfl, rfl, by decide⟩

theorem length_write_pos {value : Json} (h : value.NumberFree) (layout : Layout) (depth : Nat) :
    0 < (value.write layout depth).length := by
  obtain ⟨c, cs, hwrite, -⟩ := exists_write_cons h layout depth
  rw [hwrite, List.length_cons]
  exact Nat.succ_pos _

theorem skipGap_write {value : Json} (h : value.NumberFree) {gap : List Char}
    (hgap : gap.all isGap = true) (layout : Layout) (depth : Nat) (rest : List Char) :
    skipGap (gap ++ (value.write layout depth ++ rest)) = value.write layout depth ++ rest := by
  obtain ⟨c, cs, hwrite, hc, -⟩ := exists_write_cons h layout depth
  rw [skipGap_append hgap, hwrite, List.cons_append, skipGap_cons hc]

mutual

/-- A value is read back, whatever follows it. Each character of its text pays for two steps. -/
theorem readValue?_write {layout : Layout} (hblank : layout.Blank) (depth fuel : Nat)
    (value : Json) (hfree : value.NumberFree) (rest : List Char)
    (hfuel : 2 * (value.write layout depth).length ≤ fuel) :
    readValue? fuel (value.write layout depth ++ rest) = some (value, rest) := by
  have hpos := length_write_pos hfree layout depth
  obtain ⟨fuel, rfl⟩ := Nat.exists_eq_add_one_of_ne_zero (show fuel ≠ 0 by omega)
  cases value with
  | null => rfl
  | bool value => cases value <;> rfl
  | number spelling => exact hfree.elim
  | text t =>
    obtain ⟨cs, hwrite, hread⟩ := readText?_write t rest
    rw [write, hwrite, readValue?, hread]
    rfl
  | array items =>
    cases items with
    | nil => rfl
    | cons item items =>
      obtain ⟨hitem, hitems⟩ := hfree
      rw [write, List.length_cons, List.length_append, List.length_append] at hfuel
      have hread := readItems?_write hblank depth fuel item hitem items hitems rest (by omega)
      obtain ⟨c, cs, hstart, -, hclose⟩ := exists_write_cons hitem layout (depth + 1)
      rw [write, List.cons_append, List.append_assoc, List.append_assoc, readValue?,
        skipGap_write hitem (hblank.line _)]
      rw [hstart] at hread ⊢
      split
      · next heq => exact absurd (List.cons.inj heq).1 hclose
      · rw [hread]
        rfl
  | object fields =>
    cases fields with
    | nil => rfl
    | cons field fields =>
      obtain ⟨key, value⟩ := field
      obtain ⟨hvalue, hfields⟩ := hfree
      rw [write, List.length_cons] at hfuel
      simp only [List.length_append] at hfuel
      have hread := readFields?_write hblank depth fuel key value hvalue fields hfields rest
        (by omega)
      obtain ⟨cs, hkey, -⟩ := readText?_write key (layout.colon
        ++ (value.write layout (depth + 1) ++ (writeFields layout depth fields ++ rest)))
      rw [write, List.cons_append]
      simp only [List.append_assoc]
      rw [readValue?, skipGap_append (hblank.line _)]
      rw [hkey] at hread ⊢
      rw [skipGap_cons rfl]
      split
      · next heq => exact absurd (List.cons.inj heq).1 (by decide)
      · rw [hread]
        rfl

theorem readItems?_write {layout : Layout} (hblank : layout.Blank) (depth fuel : Nat)
    (item : Json) (hitem : item.NumberFree) (items : List Json) (hitems : ItemsNumberFree items)
    (rest : List Char)
    (hfuel : 2 * ((item.write layout (depth + 1)).length + (writeItems layout depth items).length)
      ≤ fuel) :
    readItems? fuel (item.write layout (depth + 1) ++ (writeItems layout depth items ++ rest)) =
      some (item :: items, rest) := by
  have hpos := length_write_pos hitem layout (depth + 1)
  obtain ⟨fuel, rfl⟩ := Nat.exists_eq_add_one_of_ne_zero (show fuel ≠ 0 by omega)
  have hvalue := readValue?_write hblank (depth + 1) fuel item hitem
    (writeItems layout depth items ++ rest)
  cases items with
  | nil =>
    rw [writeItems, List.length_append, List.length_singleton] at hfuel
    rw [readItems?, hvalue (by omega), writeItems, List.append_assoc]
    simp only [Option.bind_eq_bind, Option.bind_some, skipGap_append (hblank.line _)]
    rfl
  | cons next items =>
    obtain ⟨hnext, hitems⟩ := hitems
    rw [writeItems, List.length_cons, List.length_append, List.length_append] at hfuel
    have hlater := readItems?_write hblank depth fuel next hnext items hitems rest (by omega)
    rw [readItems?, hvalue (by omega), writeItems]
    simp only [Option.bind_eq_bind, Option.bind_some, List.cons_append, List.append_assoc]
    rw [skipGap_cons rfl]
    simp only [skipGap_write hnext (hblank.line _), hlater]
    rfl

theorem readFields?_write {layout : Layout} (hblank : layout.Blank) (depth fuel : Nat)
    (key : Text) (value : Json) (hvalue : value.NumberFree) (fields : List (Text × Json))
    (hfields : FieldsNumberFree fields) (rest : List Char)
    (hfuel : 2 * ((value.write layout (depth + 1)).length
      + (writeFields layout depth fields).length) ≤ fuel) :
    readFields? fuel (key.write ++ (layout.colon ++ (value.write layout (depth + 1)
      ++ (writeFields layout depth fields ++ rest)))) = some ((key, value) :: fields, rest) := by
  have hpos := length_write_pos hvalue layout (depth + 1)
  obtain ⟨fuel, rfl⟩ := Nat.exists_eq_add_one_of_ne_zero (show fuel ≠ 0 by omega)
  obtain ⟨gap, hcolon, hgap⟩ := hblank.colon
  obtain ⟨cs, hkey, hread⟩ := readText?_write key (layout.colon
    ++ (value.write layout (depth + 1) ++ (writeFields layout depth fields ++ rest)))
  have hvalue' := readValue?_write hblank (depth + 1) fuel value hvalue
    (writeFields layout depth fields ++ rest)
  rw [hkey, readFields?, hread]
  simp only [Option.bind_eq_bind, Option.bind_some, hcolon, List.cons_append]
  rw [skipGap_cons rfl]
  simp only [skipGap_write hvalue hgap]
  cases fields with
  | nil =>
    rw [writeFields, List.length_append, List.length_singleton] at hfuel
    rw [hvalue' (by omega), writeFields, List.append_assoc]
    simp only [Option.bind_some, skipGap_append (hblank.line _)]
    rfl
  | cons field fields =>
    obtain ⟨next, later⟩ := field
    obtain ⟨hnext, hfields⟩ := hfields
    rw [writeFields, List.length_cons] at hfuel
    simp only [List.length_append] at hfuel
    have hlater := readFields?_write hblank depth fuel next later hnext fields hfields rest
      (by omega)
    obtain ⟨cs, hnextKey, -⟩ := readText?_write next (layout.colon
      ++ (later.write layout (depth + 1) ++ (writeFields layout depth fields ++ rest)))
    rw [hvalue' (by omega), writeFields]
    simp only [Option.bind_some, List.cons_append, List.append_assoc]
    rw [skipGap_cons rfl]
    simp only [skipGap_append (hblank.line _)]
    rw [hnextKey] at hlater ⊢
    rw [skipGap_cons rfl, hlater]
    rfl

end

theorem parse?_render {layout : Layout} (hblank : layout.Blank) {value : Json}
    (h : value.NumberFree) : parse? (value.render layout) = some value := by
  have hnone : ([] : List Char).all isGap = true := rfl
  have hskip := skipGap_write h hnone layout 0 []
  have hread := readValue?_write hblank 0 _ value h [] (Nat.le_add_right _ 2)
  rw [List.nil_append, List.append_nil] at hskip
  rw [List.append_nil] at hread
  rw [parse?, render, String.toList_ofList, hskip, hread]
  rfl

end Declang.Json
