namespace Declang.Utf8

/-- What a leading byte announces: the bits it carries, how many bytes follow it, and the range of
the first of them. The ranges leave out overlong forms, surrogates and code points that are too
large. -/
def leading? (b : Nat) : Option (Nat × Nat × Nat × Nat) :=
  if b ≤ 0x7F then some (b, 0, 0x80, 0xBF)
  else if b < 0xC2 then none
  else if b ≤ 0xDF then some (b - 0xC0, 1, 0x80, 0xBF)
  else if b = 0xE0 then some (0, 2, 0xA0, 0xBF)
  else if b = 0xED then some (0xD, 2, 0x80, 0x9F)
  else if b ≤ 0xEF then some (b - 0xE0, 2, 0x80, 0xBF)
  else if b = 0xF0 then some (0, 3, 0x90, 0xBF)
  else if b ≤ 0xF3 then some (b - 0xF0, 3, 0x80, 0xBF)
  else if b = 0xF4 then some (4, 3, 0x80, 0x8F)
  else none

/-- Reads `count` following bytes, the first of them in a range of its own. -/
def following? (value : Nat) : Nat → Nat → Nat → List UInt8 → Option (Nat × List UInt8)
  | 0, _, _, bytes => some (value, bytes)
  | _ + 1, _, _, [] => none
  | count + 1, low, high, b :: bytes =>
    if low ≤ b.toNat ∧ b.toNat ≤ high then
      following? (value * 64 + (b.toNat - 0x80)) count 0x80 0xBF bytes
    else none

theorem following?_length_le {value count low high code : Nat} {bytes rest : List UInt8}
    (h : following? value count low high bytes = some (code, rest)) :
    rest.length ≤ bytes.length := by
  induction count generalizing value low high bytes with
  | zero =>
    simp only [following?, Option.some.injEq, Prod.mk.injEq] at h
    exact Nat.le_of_eq (congrArg List.length h.2.symm)
  | succ count ih =>
    cases bytes with
    | nil => simp [following?] at h
    | cons b bytes =>
      rw [following?] at h
      split at h
      · have := ih h
        simp only [List.length_cons]
        omega
      · cases h

/-- The characters that bytes write, if all of them are valid. -/
def decode? : List UInt8 → Option (List Char)
  | [] => some []
  | b :: bytes =>
    match leading? b.toNat with
    | none => none
    | some (value, count, low, high) =>
      match _hnext : following? value count low high bytes with
      | none => none
      | some (code, rest) => (decode? rest).map (Char.ofNat code :: ·)
termination_by bytes => bytes.length
decreasing_by
  have := following?_length_le (by assumption)
  simp only [List.length_cons]
  omega

def text? (bytes : List UInt8) : Option String :=
  (decode? bytes).map String.ofList

end Declang.Utf8
