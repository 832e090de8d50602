import Mathlib.Data.List.Basic
import Mathlib.Tactic.SplitIfs
namespace Declang

/-- The UTF-8 bytes of a text. -/
def utf8Bytes (text : String) : List UInt8 :=
  text.toUTF8.data.toList

theorem utf8Bytes_eq_flatMap (text : String) :
    utf8Bytes text = text.toList.flatMap String.utf8EncodeChar := by
  have hbytes : text.toUTF8 = text.toList.utf8Encode := by
    rw [String.toUTF8_eq_toByteArray, ← String.toByteArray_ofList, String.ofList_toList]
  rw [utf8Bytes, hbytes, List.utf8Encode, List.toList_data_toByteArray]

/-- The bytes of two characters differ at a place that both have. -/
theorem utf8EncodeChar_append_lt {c d : Char} (h : c < d) (u v : List UInt8) :
    String.utf8EncodeChar c ++ u < String.utf8EncodeChar d ++ v := by
  have hval : c.val.toNat < d.val.toNat := h
  have hmax : d.val.toNat < 0x110000 := by
    rcases d.valid with hd | hd
    · exact Nat.lt_trans hd (by decide)
    · exact hd.2
  unfold String.utf8EncodeChar
  generalize c.val.toNat = m at hval
  generalize d.val.toNat = n at hval hmax
  -- The three payload bits of a four-byte lead hold the whole quotient.
  have hm : m / 262144 % 8 = m / 262144 := by omega
  have hn : n / 262144 % 8 = n / 262144 := by omega
  simp only [hm, hn]
  split_ifs
  all_goals
    simp only [List.cons_append, List.nil_append, List.cons_lt_cons_iff,
      UInt8.lt_iff_toNat_lt, ← UInt8.toNat_inj, UInt8.toNat_ofNat']
    simp (disch := omega) only [Nat.mod_eq_of_lt (b := 2 ^ 8)]
    omega

theorem utf8Bytes_lt {a b : String} (h : a < b) : utf8Bytes a < utf8Bytes b := by
  rw [utf8Bytes_eq_flatMap, utf8Bytes_eq_flatMap]
  have hlt : a.toList < b.toList := String.lt_iff.mp h
  generalize a.toList = cs at hlt
  generalize b.toList = ds at hlt
  induction cs generalizing ds with
  | nil =>
    cases ds with
    | nil => cases hlt
    | cons d ds =>
      rw [List.flatMap_nil, List.flatMap_cons]
      have hnonempty := String.utf8EncodeChar_ne_nil (c := d)
      cases hd : String.utf8EncodeChar d with
      | nil => exact absurd hd hnonempty
      | cons byte bytes => exact .nil
  | cons c cs ih =>
    cases ds with
    | nil => cases hlt
    | cons d ds =>
      rw [List.flatMap_cons, List.flatMap_cons]
      rcases List.cons_lt_cons_iff.mp hlt with hchar | ⟨rfl, htail⟩
      · exact utf8EncodeChar_append_lt hchar _ _
      · exact List.append_left_lt (ih ds htail)

end Declang
