import Declang.Snapshot.Attributes
namespace Declang

theorem insertSorted_of_forall_lt {key : String} (value : String) {entries : List (String × String)}
    (h : ∀ entry ∈ entries, entry.1 < key) :
    insertSorted key value entries = entries ++ [(key, value)] := by
  induction entries with
  | nil => rfl
  | cons entry entries ih =>
    obtain ⟨hentry, hentries⟩ := List.forall_mem_cons.1 h
    have hne : key ≠ entry.1 := fun heq => String.lt_irrefl _ (heq ▸ hentry)
    rw [insertSorted, if_neg (String.lt_asymm hentry), if_neg hne, ih hentries, List.cons_append]

theorem lookup_cons_eq_ite {α : Type} (entry : String × α) (entries : List (String × α))
    (key : String) :
    (entry :: entries).lookup key = if key = entry.1 then some entry.2 else entries.lookup key := by
  by_cases h : key = entry.1
  · rw [if_pos h, h, List.lookup_cons_self]
  · rw [if_neg h, List.lookup_cons, beq_false_of_ne h]

theorem lookup_insertSorted (key value other : String) (entries : List (String × String)) :
    (insertSorted key value entries).lookup other =
      if other = key then some value else entries.lookup other := by
  induction entries with
  | nil => exact lookup_cons_eq_ite (key, value) [] other
  | cons entry entries ih =>
    rw [insertSorted]
    split
    · exact lookup_cons_eq_ite (key, value) (entry :: entries) other
    · split
      · next heq =>
        rw [lookup_cons_eq_ite, lookup_cons_eq_ite, heq]
        split <;> rfl
      · next hne =>
        rw [lookup_cons_eq_ite, lookup_cons_eq_ite, ih]
        by_cases h : other = entry.1
        · rw [if_pos h, if_pos h, if_neg (h ▸ Ne.symm hne)]
        · rw [if_neg h, if_neg h]

namespace Attributes

@[simp]
theorem get?_empty (key : String) : empty.get? key = none :=
  rfl

@[simp]
theorem get?_insert (attributes : Attributes) (key value other : String) :
    (attributes.insert key value).get? other =
      if other = key then some value else attributes.get? other :=
  lookup_insertSorted key value other attributes.entries

theorem entries_foldl_insert {done : Attributes} {later : List (String × String)}
    (h : SortedByKey (done.entries ++ later)) :
    (later.foldl (fun attributes (key, value) => attributes.insert key value) done).entries =
      done.entries ++ later := by
  induction later generalizing done with
  | nil => exact (List.append_nil _).symm
  | cons entry later ih =>
    have hlast : (done.insert entry.1 entry.2).entries = done.entries ++ [entry] := by
      apply insertSorted_of_forall_lt
      intro other hother
      exact (List.pairwise_append.1 h).2.2 other hother entry List.mem_cons_self
    rw [List.append_cons] at h ⊢
    rw [List.foldl_cons, ← hlast]
    rw [← hlast] at h
    exact ih h

theorem ofList_entries (attributes : Attributes) : ofList attributes.entries = attributes :=
  ext (entries_foldl_insert attributes.sorted)

end Attributes

end Declang
