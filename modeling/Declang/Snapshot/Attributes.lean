namespace Declang

/-- Puts an entry into a list sorted by key, in place of one with the same key. -/
def insertSorted (key value : String) : List (String × String) → List (String × String)
  | [] => [(key, value)]
  | entry :: entries =>
    if key < entry.1 then (key, value) :: entry :: entries
    else if key = entry.1 then (key, value) :: entries
    else entry :: insertSorted key value entries

theorem mem_insertSorted {key value : String} {entries : List (String × String)}
    {entry : String × String} (h : entry ∈ insertSorted key value entries) :
    entry = (key, value) ∨ entry ∈ entries := by
  induction entries with
  | nil => simpa [insertSorted] using h
  | cons head tail ih =>
    rw [insertSorted] at h
    split at h
    · simpa using h
    · split at h
      · rcases List.mem_cons.1 h with h | h
        · exact Or.inl h
        · exact Or.inr (List.mem_cons_of_mem _ h)
      · rcases List.mem_cons.1 h with h | h
        · exact Or.inr (h ▸ List.mem_cons_self)
        · exact (ih h).imp_right (List.mem_cons_of_mem _)

/-- The entries of a map, ordered by key. -/
def SortedByKey (entries : List (String × String)) : Prop :=
  entries.Pairwise fun a b => a.1 < b.1

theorem SortedByKey.insert {entries : List (String × String)} (h : SortedByKey entries)
    (key value : String) : SortedByKey (insertSorted key value entries) := by
  induction entries with
  | nil => exact List.pairwise_singleton _ _
  | cons head tail ih =>
    obtain ⟨hhead, htail⟩ := List.pairwise_cons.1 h
    rw [insertSorted]
    split
    · next hlt =>
      refine List.pairwise_cons.2 ⟨fun entry hentry => ?_, h⟩
      rcases List.mem_cons.1 hentry with rfl | hentry
      · exact hlt
      · exact String.lt_trans hlt (hhead entry hentry)
    · next hle =>
      split
      · next heq =>
        exact List.pairwise_cons.2 ⟨fun entry hentry => heq ▸ hhead entry hentry, htail⟩
      · next hne =>
        refine List.pairwise_cons.2 ⟨fun entry hentry => ?_, ih htail⟩
        rcases mem_insertSorted hentry with rfl | hentry
        · exact Std.lt_of_le_of_ne (String.not_lt.1 hle) (Ne.symm hne)
        · exact hhead entry hentry

/-- Named texts, at most one for each name, in the order of the names' UTF-8 bytes. -/
structure Attributes where
  entries : List (String × String)
  sorted : SortedByKey entries
  deriving DecidableEq

namespace Attributes

def empty : Attributes := ⟨[], .nil⟩

/-- Sets the value of a key; an earlier value is lost. -/
def insert (attributes : Attributes) (key value : String) : Attributes :=
  ⟨insertSorted key value attributes.entries, attributes.sorted.insert key value⟩

def ofList (entries : List (String × String)) : Attributes :=
  entries.foldl (fun attributes (key, value) => attributes.insert key value) empty

def get? (attributes : Attributes) (key : String) : Option String :=
  attributes.entries.lookup key

@[ext]
theorem ext {a b : Attributes} (h : a.entries = b.entries) : a = b := by
  cases a
  cases b
  cases h
  rfl

end Attributes

end Declang
