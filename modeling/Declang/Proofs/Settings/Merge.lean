import Mathlib.Data.List.Basic
import Declang.Settings
import Declang.Proofs.Snapshot.Attributes
namespace Declang

theorem lookup_putEntry {α : Type} (key : String) (value : α) (other : String)
    (entries : List (String × α)) :
    (putEntry key value entries).lookup other =
      if other = key then some value else entries.lookup other := by
  induction entries with
  | nil => exact lookup_cons_eq_ite (key, value) [] other
  | cons entry entries ih =>
    rw [putEntry]
    split
    · next heq =>
      rw [lookup_cons_eq_ite, lookup_cons_eq_ite, heq]
      split <;> rfl
    · next hne =>
      rw [lookup_cons_eq_ite, lookup_cons_eq_ite, ih]
      by_cases h : other = entry.1
      · rw [if_pos h, if_pos h, if_neg (h ▸ hne)]
      · rw [if_neg h, if_neg h]

theorem lookup_eq_none_of_notMem {α : Type} {key : String} {entries : List (String × α)}
    (h : key ∉ entries.map Prod.fst) : entries.lookup key = none := by
  rw [List.lookup_eq_none_iff]
  intro entry hentry
  exact bne_iff_ne.2 fun heq => h (heq ▸ List.mem_map_of_mem hentry)

namespace Value

/-- The value under keys, each in the table of the one before it. -/
def at? : List String → Value → Option Value
  | [], value => some value
  | key :: keys, value => (value.entries.lookup key).bind (at? keys)

theorem at?_cons_eq_some_iff {key : String} {keys : List String} {value found : Value} :
    at? (key :: keys) value = some found ↔
      ∃ entries part, value = .table entries ∧ entries.lookup key = some part ∧
        at? keys part = some found := by
  cases value with
  | table entries => simp [at?, Value.entries, Option.bind_eq_some_iff]
  | _ => simp [at?, Value.entries]

/-- What a value makes of the entry that it is merged into. -/
def onto : Value → Option Value → Value
  | table incoming, current => mergeAll incoming (current.getD (.table []))
  | value, _ => value

theorem merge_eq_putEntry (key : String) (value target : Value) :
    merge key value target = .table (putEntry (lowerKey key)
      (value.onto (target.entries.lookup (lowerKey key))) target.entries) := by
  cases value <;> rw [merge] <;> first | rfl | simp

theorem merge_congr {key : String} {value target target' : Value}
    (h : target.entries = target'.entries) : merge key value target = merge key value target' := by
  rw [merge_eq_putEntry, merge_eq_putEntry, h]

/-- No two keys of these entries name the same, whatever their case. -/
structure Keyed (entries : List (String × Value)) : Prop where
  nodup : (entries.map Prod.fst).Nodup
  lower : ∀ entry ∈ entries, lowerKey entry.1 = entry.1

theorem Keyed.tail {entry : String × Value} {entries : List (String × Value)}
    (h : Keyed (entry :: entries)) : Keyed entries :=
  ⟨h.nodup.of_cons, fun other hother => h.lower other (List.mem_cons_of_mem _ hother)⟩

theorem lookup_mergeAll {incoming : List (String × Value)} (h : Keyed incoming) (target : Value)
    (key : String) :
    (mergeAll incoming target).entries.lookup key =
      ((incoming.lookup key).map (·.onto (target.entries.lookup key))).or
        (target.entries.lookup key) := by
  induction incoming generalizing target with
  | nil => rfl
  | cons entry incoming ih =>
    obtain ⟨name, value⟩ := entry
    have hlower : lowerKey name = name := h.lower _ List.mem_cons_self
    rw [mergeAll, ih h.tail, merge_eq_putEntry, hlower, entries, lookup_putEntry,
      lookup_cons_eq_ite]
    by_cases heq : key = name
    · have hnone : incoming.lookup key = none :=
        lookup_eq_none_of_notMem (heq ▸ (List.nodup_cons.1 h.nodup).1)
      rw [hnone, if_pos heq, if_pos heq, heq]
      rfl
    · rw [if_neg heq, if_neg heq]

/-- Only tables stand along these keys, and what is at their end satisfies `holds`. -/
def Fits (holds : Value → Prop) : List String → Value → Prop
  | [], value => holds value
  | key :: keys, value => ∃ entries, value = .table entries ∧ Keyed entries ∧
      ∀ part, entries.lookup key = some part → Fits holds keys part

theorem Fits.at? {holds : Value → Prop} {keys : List String} {value found : Value}
    (h : Fits holds keys value) (hfound : at? keys value = some found) : holds found := by
  induction keys generalizing value with
  | nil => exact Option.some.inj hfound ▸ h
  | cons key keys ih =>
    obtain ⟨entries, rfl, -, hpart⟩ := h
    obtain ⟨part, hlookup, hfound⟩ := Option.bind_eq_some_iff.1 hfound
    exact ih (hpart part hlookup) hfound

/-- Not a table, so that it replaces what it is merged into. -/
def Flat (value : Value) : Prop :=
  ∀ entries, value ≠ .table entries

theorem Flat.onto {value : Value} (h : value.Flat) (current : Option Value) :
    value.onto current = value := by
  cases value with
  | table entries => exact absurd rfl (h entries)
  | _ => rfl

/-- Merging is deep: what is written along the keys is there afterwards, and otherwise what was
there stays. -/
theorem at?_mergeAll {holds : Value → Prop} (hflat : ∀ value, holds value → value.Flat)
    {key : String} {keys : List String} {incoming : List (String × Value)}
    (h : Fits holds (key :: keys) (.table incoming)) (target : Value) :
    at? (key :: keys) (mergeAll incoming target) =
      (at? (key :: keys) (.table incoming)).or (at? (key :: keys) target) := by
  induction keys generalizing key incoming target with
  | nil =>
    obtain ⟨_, ⟨⟩, hkeyed, hpart⟩ := h
    rw [at?, lookup_mergeAll hkeyed, at?, entries, at?]
    cases hlookup : incoming.lookup key with
    | none => rfl
    | some part =>
      rw [Option.map_some, (hflat part (hpart part hlookup)).onto]
      rfl
  | cons next keys ih =>
    obtain ⟨_, ⟨⟩, hkeyed, hpart⟩ := h
    rw [at?, lookup_mergeAll hkeyed, at?, entries, at?]
    cases hlookup : incoming.lookup key with
    | none => rfl
    | some part =>
      have hfits := hpart part hlookup
      obtain ⟨inner, rfl, -⟩ := id hfits
      rw [Option.map_some, Option.some_or, Option.bind_some, Option.bind_some, onto, ih hfits]
      cases target.entries.lookup key <;> rfl

/-- A value in tables that hold nothing else, under these keys. -/
def wrap : List String → Value → Value
  | [], value => value
  | key :: keys, value => .table [(key, wrap keys value)]

theorem mergeAll_singleton (key : String) (value target : Value) :
    mergeAll [(key, value)] target = merge key value target := by
  rw [mergeAll, mergeAll]

theorem set?_keys (key : String) (keys : List String) (value target : Value) :
    set? value (.key key :: keys.map .key) target = some (mergeAll [(key, wrap keys value)] target)
    := by
  rw [mergeAll_singleton]
  induction keys generalizing key target with
  | nil => rfl
  | cons next keys ih =>
    have hentries : ((target.entries.lookup (lowerKey key)).getD .nil).entries =
        ((target.entries.lookup (lowerKey key)).getD (.table [])).entries := by
      cases target.entries.lookup (lowerKey key) <;> rfl
    rw [List.map_cons, set?, ih, merge_congr hentries, merge_eq_putEntry key, wrap, onto,
      mergeAll_singleton]
    · rfl
    · exact List.cons_ne_nil _ _

/-- To set a value under keys is to merge a table that holds only this value. -/
theorem setPath?_keys (key : String) (keys : List String) (value target : Value) :
    setPath? value ⟨key, keys.map .key⟩ target =
      some (mergeAll [(key, wrap keys value)] target) :=
  set?_keys key keys value target

end Value

end Declang
