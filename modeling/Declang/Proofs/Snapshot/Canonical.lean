import Declang.Snapshot.Yaml
import Declang.Proofs.Snapshot.ReadBack
import Declang.Proofs.Text.ByteOrder
namespace Declang

theorem SortedByKey.nodup {entries : List (String × String)} (h : SortedByKey entries) :
    entries.Nodup :=
  h.imp fun hlt => ne_of_apply_ne Prod.fst (String.ne_of_lt hlt)

theorem SortedByKey.lookup_eq_some_iff {entries : List (String × String)} (h : SortedByKey entries)
    {key value : String} : entries.lookup key = some value ↔ (key, value) ∈ entries := by
  induction entries with
  | nil => simp
  | cons entry entries ih =>
    obtain ⟨hhead, htail⟩ := List.pairwise_cons.1 h
    rw [lookup_cons_eq_ite, List.mem_cons, Prod.ext_iff]
    split
    · next heq =>
      have hnotin : (key, value) ∉ entries := fun hmem =>
        String.ne_of_lt (hhead (key, value) hmem) heq.symm
      rw [Option.some_inj, or_iff_left hnotin, and_iff_right heq, eq_comm]
    · next hne =>
      rw [ih htail, or_iff_right (hne ·.1)]

namespace Attributes

theorem ext_get? {a b : Attributes} (h : ∀ key, a.get? key = b.get? key) : a = b := by
  have hmem (entry : String × String) : entry ∈ a.entries ↔ entry ∈ b.entries := by
    rw [← a.sorted.lookup_eq_some_iff, ← b.sorted.lookup_eq_some_iff]
    exact iff_of_eq (congrArg (· = some entry.2) (h entry.1))
  have hperm : a.entries.Perm b.entries :=
    (List.perm_ext_iff_of_nodup a.sorted.nodup b.sorted.nodup).2 hmem
  exact ext (hperm.eq_of_pairwise
    (fun _ _ _ _ hab hba => absurd hba (String.lt_asymm hab)) a.sorted b.sorted)

end Attributes

/-- The value that the last call for a key sets. -/
def lastValue? (calls : List (String × String)) (key : String) : Option String :=
  calls.reverse.lookup key

theorem lastValue?_cons (key value : String) (calls : List (String × String)) (other : String) :
    lastValue? ((key, value) :: calls) other =
      (lastValue? calls other).or (if other = key then some value else none) := by
  rw [lastValue?, List.reverse_cons, List.lookup_append, lookup_cons_eq_ite, List.lookup_nil,
    lastValue?]

namespace Snapshot

theorem attributes_withAttribute (snapshot : Snapshot) (key value : String) :
    (snapshot.withAttribute key value).attributes = snapshot.attributes.insert key value := by
  cases snapshot
  rfl

theorem withAttributes_node (nodeType label : String) (attributes : Attributes)
    (children : List Snapshot) (calls : List (String × String)) :
    (node nodeType label attributes children).withAttributes calls =
      node nodeType label
        (calls.foldl (fun attributes (key, value) => attributes.insert key value) attributes)
        children := by
  induction calls generalizing attributes with
  | nil => rfl
  | cons call calls ih => exact ih (attributes.insert call.1 call.2)

/-- The payload of a node is what a call for each of its parts leaves. -/
theorem withAttributes_empty (nodeType label : String) (children : List Snapshot)
    (calls : List (String × String)) :
    (node nodeType label .empty children).withAttributes calls =
      node nodeType label (.ofList calls) children :=
  withAttributes_node nodeType label .empty children calls

theorem get?_withAttributes (snapshot : Snapshot) (calls : List (String × String)) (key : String) :
    (snapshot.withAttributes calls).attributes.get? key =
      (lastValue? calls key).or (snapshot.attributes.get? key) := by
  induction calls generalizing snapshot with
  | nil => rfl
  | cons call calls ih =>
    rw [withAttributes, List.foldl_cons, ← withAttributes, ih, attributes_withAttribute,
      Attributes.get?_insert, lastValue?_cons, Option.or_assoc]
    split <;> rfl

theorem withAttributes_congr (snapshot : Snapshot) {calls calls' : List (String × String)}
    (h : ∀ key, lastValue? calls key = lastValue? calls' key) :
    snapshot.withAttributes calls = snapshot.withAttributes calls' := by
  have hget (key : String) : (snapshot.withAttributes calls).attributes.get? key =
      (snapshot.withAttributes calls').attributes.get? key := by
    rw [get?_withAttributes, get?_withAttributes, h]
  have hattributes := Attributes.ext_get? hget
  obtain ⟨nodeType, label, attributes, children⟩ := snapshot
  rw [withAttributes_node, withAttributes_node] at hattributes ⊢
  exact congrArg (node nodeType label · children) hattributes

/-- The entries of a written object of attributes, in its order. -/
def writtenEntries? : Option Json → Option (List (String × String))
  | none => some []
  | some (.object fields) => fields.mapM entryOf?
  | some _ => none

theorem writtenEntries?_attributesPart (attributes : Attributes) :
    writtenEntries? (attributesPart attributes) = some attributes.entries := by
  rw [attributesPart]
  split
  · next hempty => rw [List.isEmpty_iff.1 hempty, writtenEntries?]
  · rw [Json.record, writtenEntries?, List.map_map]
    exact mapM_map_eq_some fun entry _ => rfl

/-- The attributes in the order in which a JSON text writes them. -/
def writtenAttributes? (source : String) : Option (List (String × String)) :=
  ((Json.parse? source).bind parts?).bind fun parts => writtenEntries? parts.attributes

theorem writtenAttributes?_toJsonText {layout : Json.Layout} (hblank : layout.Blank)
    (snapshot : Snapshot) :
    writtenAttributes? (snapshot.toJsonText layout) = some snapshot.attributes.entries := by
  rw [writtenAttributes?, toJsonText, Json.parse?_render hblank snapshot.numberFree_toJson,
    Option.bind_some, parts?_toJson, Option.bind_some, writtenEntries?_attributesPart]

/-- A repeated key, and two keys that UTF-16 orders the other way round. -/
def repeatedCalls : List (String × String) :=
  [("😀", "1"), ("\uffee", "2"), ("😀", "3")]

end Snapshot

end Declang
