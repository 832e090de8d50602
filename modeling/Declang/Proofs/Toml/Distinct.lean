import Mathlib.Data.List.Nodup
import Declang.Toml
namespace Declang

/-- Each table in the value has at most one entry for each key. -/
inductive Value.Distinct : Value → Prop
  | nil : Distinct .nil
  | bool (value : Bool) : Distinct (.bool value)
  | int (value : Int) : Distinct (.int value)
  | float (value : Binary64) : Distinct (.float value)
  | text (value : String) : Distinct (.text value)
  | array {items : List Value} (items_distinct : ∀ item ∈ items, Distinct item) :
    Distinct (.array items)
  | table {entries : List (String × Value)} (nodup : (entries.map Prod.fst).Nodup)
      (parts : ∀ entry ∈ entries, Distinct entry.2) : Distinct (.table entries)

theorem mem_putEntry {α : Type} {key : String} {value : α} {entries : List (String × α)}
    {entry : String × α} (h : entry ∈ putEntry key value entries) :
    entry = (key, value) ∨ entry ∈ entries := by
  induction entries with
  | nil => exact .inl (List.mem_singleton.1 h)
  | cons head tail ih =>
    rw [putEntry] at h
    split at h
    · exact (List.mem_cons.1 h).imp_right (List.mem_cons_of_mem _)
    · rcases List.mem_cons.1 h with h | h
      · exact .inr (h ▸ List.mem_cons_self)
      · exact (ih h).imp_right (List.mem_cons_of_mem _)

theorem nodup_keys_putEntry {α : Type} {key : String} {value : α} {entries : List (String × α)}
    (h : (entries.map Prod.fst).Nodup) : ((putEntry key value entries).map Prod.fst).Nodup := by
  induction entries with
  | nil => exact List.nodup_singleton _
  | cons head tail ih =>
    obtain ⟨hhead, htail⟩ := List.nodup_cons.1 h
    rw [putEntry]
    split
    · next heq =>
      rw [heq] at hhead
      exact List.nodup_cons.2 ⟨hhead, htail⟩
    · next hne =>
      refine List.nodup_cons.2 ⟨fun hmem => ?_, ih htail⟩
      obtain ⟨entry, hentry, hkey⟩ := List.mem_map.1 hmem
      rcases mem_putEntry hentry with rfl | hentry
      · exact hne hkey.symm
      · exact hhead (hkey ▸ List.mem_map_of_mem hentry)

theorem mem_of_lookup_eq_some {α : Type} {key : String} {value : α} {entries : List (String × α)}
    (h : entries.lookup key = some value) : (key, value) ∈ entries := by
  obtain ⟨before, after, rfl, -⟩ := List.lookup_eq_some_iff.1 h
  exact List.mem_append_right _ List.mem_cons_self

namespace Toml

mutual

/-- Each table in the item has at most one entry for each key. -/
inductive Item.Distinct : Item → Prop
  | scalar {value : Value} (value_distinct : value.Distinct) : Item.Distinct (.scalar value)
  | moment (text : String) : Item.Distinct (.moment text)
  | array {items : List Item} (items_distinct : ∀ item ∈ items, Item.Distinct item) :
    Item.Distinct (.array items)
  | inline {table : Table} (table_distinct : Table.Distinct table) : Item.Distinct (.inline table)
  | table {table : Table} (table_distinct : Table.Distinct table) : Item.Distinct (.table table)
  | tables {elements : List Table} (elements_distinct : ∀ table ∈ elements, Table.Distinct table) :
    Item.Distinct (.tables elements)

/-- Each table in the table, and the table itself, has at most one entry for each key. -/
inductive Table.Distinct : Table → Prop
  | mk {origin : Origin} {entries : List (String × Item)} (nodup : (entries.map Prod.fst).Nodup)
      (parts : ∀ entry ∈ entries, Item.Distinct entry.2) : Table.Distinct (.mk origin entries)

end

mutual

theorem Item.distinct_toValue {item : Item} (h : item.Distinct) {value : Value}
    (hvalue : item.toValue? = some value) : value.Distinct := by
  cases item with
  | scalar scalar =>
    cases h with | scalar hscalar => exact Option.some.inj hvalue ▸ hscalar
  | moment text => exact Option.some.inj hvalue ▸ .text text
  | array items =>
    cases h with
    | array hitems =>
      rw [Item.toValue?] at hvalue
      obtain ⟨values, hvalues, rfl⟩ := Option.map_eq_some_iff.1 hvalue
      exact .array (Item.distinct_toValues hitems hvalues)
  | inline table =>
    cases h with
    | inline htable => exact Table.distinct_toValue htable hvalue
  | table table =>
    cases h with
    | table htable => exact Table.distinct_toValue htable hvalue
  | tables elements =>
    cases h with
    | tables helements =>
      rw [Item.toValue?] at hvalue
      obtain ⟨values, hvalues, rfl⟩ := Option.map_eq_some_iff.1 hvalue
      exact .array (Table.distinct_toValues helements hvalues)

theorem Table.distinct_toValue {table : Table} (h : table.Distinct) {value : Value}
    (hvalue : table.toValue? = some value) : value.Distinct := by
  obtain ⟨origin, entries⟩ := table
  cases h with
  | mk hnodup hparts =>
    cases entries with
    | nil => exact Option.some.inj hvalue ▸ .table List.nodup_nil (List.forall_mem_nil _)
    | cons entry entries =>
      obtain ⟨key, item⟩ := entry
      obtain ⟨hitem, hentries⟩ := List.forall_mem_cons.1 hparts
      unfold Table.toValue? at hvalue
      split at hvalue
      · split at hvalue
        · obtain ⟨text, -, rfl⟩ := Option.map_eq_some_iff.1 hvalue
          exact .text text
        · cases hvalue
      · simp only [Option.bind_eq_bind, Option.bind_eq_some_iff] at hvalue
        obtain ⟨value, hvalue, values, hvalues, ⟨⟩⟩ := hvalue
        obtain ⟨hkeys, hvalues⟩ := Table.distinct_toEntries hentries hvalues
        refine .table ?_ (List.forall_mem_cons.2 ⟨Item.distinct_toValue hitem hvalue, hvalues⟩)
        rw [List.map_cons, hkeys]
        exact hnodup

theorem Table.distinct_toEntries {entries : List (String × Item)}
    (h : ∀ entry ∈ entries, entry.2.Distinct) {values : List (String × Value)}
    (hvalues : Table.toEntries? entries = some values) :
    values.map Prod.fst = entries.map Prod.fst ∧ ∀ entry ∈ values, entry.2.Distinct := by
  cases entries with
  | nil =>
    cases hvalues
    exact ⟨rfl, List.forall_mem_nil _⟩
  | cons entry entries =>
    obtain ⟨key, item⟩ := entry
    simp only [Table.toEntries?, Option.bind_eq_bind, Option.bind_eq_some_iff] at hvalues
    obtain ⟨value, hvalue, values, hvalues, ⟨⟩⟩ := hvalues
    obtain ⟨hitem, hentries⟩ := List.forall_mem_cons.1 h
    obtain ⟨hkeys, hvalues⟩ := Table.distinct_toEntries hentries hvalues
    refine ⟨?_, List.forall_mem_cons.2 ⟨Item.distinct_toValue hitem hvalue, hvalues⟩⟩
    rw [List.map_cons, List.map_cons, hkeys]

theorem Item.distinct_toValues {items : List Item} (h : ∀ item ∈ items, item.Distinct)
    {values : List Value} (hvalues : Item.toValues? items = some values) :
    ∀ value ∈ values, value.Distinct := by
  cases items with
  | nil =>
    cases hvalues
    exact List.forall_mem_nil _
  | cons item items =>
    simp only [Item.toValues?, Option.bind_eq_bind, Option.bind_eq_some_iff] at hvalues
    obtain ⟨value, hvalue, values, hvalues, ⟨⟩⟩ := hvalues
    obtain ⟨hitem, hitems⟩ := List.forall_mem_cons.1 h
    exact List.forall_mem_cons.2
      ⟨Item.distinct_toValue hitem hvalue, Item.distinct_toValues hitems hvalues⟩

theorem Table.distinct_toValues {tables : List Table} (h : ∀ table ∈ tables, table.Distinct)
    {values : List Value} (hvalues : Table.toValues? tables = some values) :
    ∀ value ∈ values, value.Distinct := by
  cases tables with
  | nil =>
    cases hvalues
    exact List.forall_mem_nil _
  | cons table tables =>
    simp only [Table.toValues?, Option.bind_eq_bind, Option.bind_eq_some_iff] at hvalues
    obtain ⟨value, hvalue, values, hvalues, ⟨⟩⟩ := hvalues
    obtain ⟨htable, htables⟩ := List.forall_mem_cons.1 h
    exact List.forall_mem_cons.2
      ⟨Table.distinct_toValue htable hvalue, Table.distinct_toValues htables hvalues⟩

end

namespace Table.Distinct

theorem empty (origin : Origin) : (Table.empty origin).Distinct :=
  .mk List.nodup_nil (List.forall_mem_nil _)

theorem get? {table : Table} (h : table.Distinct) {key : String} {item : Item}
    (hitem : table.get? key = some item) : item.Distinct := by
  cases h with | mk _ hparts => exact hparts _ (mem_of_lookup_eq_some hitem)

theorem put {table : Table} (h : table.Distinct) (key : String) {item : Item}
    (hitem : item.Distinct) : (table.put key item).Distinct := by
  cases h with
  | mk hnodup hparts =>
    refine .mk (nodup_keys_putEntry hnodup) fun entry hentry => ?_
    rcases mem_putEntry hentry with rfl | hentry
    · exact hitem
    · exact hparts entry hentry

theorem putLast {table : Table} (h : table.Distinct) (key : String) {item : Item}
    (hitem : item.Distinct) : (table.putLast key item).Distinct := by
  cases h with
  | @mk _ entries hnodup hparts =>
    refine .mk ?_ fun entry hentry => ?_
    · rw [List.map_append, List.map_singleton, List.nodup_append]
      refine ⟨hnodup.sublist (List.filter_sublist.map _), List.nodup_singleton _, ?_⟩
      intro other hother last hlast
      obtain ⟨entry, hentry, rfl⟩ := List.mem_map.1 hother
      rw [List.mem_singleton.1 hlast]
      simpa using (List.mem_filter.1 hentry).2
    · rcases List.mem_append.1 hentry with hentry | hentry
      · exact hparts entry (List.mem_filter.1 hentry).1
      · exact List.mem_singleton.1 hentry ▸ hitem

theorem modifyAt {origin : Origin} {change : Table → Option Table}
    (hchange : ∀ {table changed}, table.Distinct → change table = some changed → changed.Distinct)
    {keys : List String} {table changed : Table} (h : table.Distinct)
    (hchanged : table.modifyAt? origin change keys = some changed) : changed.Distinct := by
  induction keys generalizing table changed with
  | nil => exact hchange h hchanged
  | cons key keys ih =>
    have hput {item? : Option Item}
        (hbind : (item?.bind fun item => some (table.put key item)) = some changed)
        (hitem : ∀ item, item? = some item → item.Distinct) : changed.Distinct := by
      obtain ⟨item, rfl, hchanged⟩ := Option.bind_eq_some_iff.1 hbind
      exact Option.some.inj hchanged ▸ h.put key (hitem item rfl)
    rw [Table.modifyAt?] at hchanged
    split at hchanged
    · refine hput hchanged fun item hitem => ?_
      obtain ⟨inner, hinner, rfl⟩ := Option.map_eq_some_iff.1 hitem
      exact .table (ih (.empty origin) hinner)
    · next inner hget =>
      split at hchanged
      · cases hchanged
      · refine hput hchanged fun item hitem => ?_
        obtain ⟨changed, hinner, rfl⟩ := Option.map_eq_some_iff.1 hitem
        cases h.get? hget with | table hdistinct => exact .table (ih hdistinct hinner)
    · next elements hget =>
      obtain ⟨last, hlast, hchanged⟩ := Option.bind_eq_some_iff.1 hchanged
      obtain ⟨changed, hinner, hchanged⟩ := Option.bind_eq_some_iff.1 hchanged
      refine hput hchanged fun item hitem => Option.some.inj hitem ▸ ?_
      cases h.get? hget with
      | tables helements =>
        refine .tables fun element helement => ?_
        rcases List.mem_append.1 helement with helement | helement
        · exact helements element (List.dropLast_subset _ helement)
        · rw [List.mem_singleton.1 helement]
          exact ih (helements last (List.mem_of_getLast? hlast)) hinner
    · cases hchanged

theorem insert {table inserted : Table} (h : table.Distinct) {path : KeyPath} {item : Item}
    (hitem : item.Distinct) (hinserted : table.insert? path item = some inserted) :
    inserted.Distinct := by
  refine h.modifyAt (fun hinner hchanged => ?_) hinserted
  split at hchanged
  · cases hchanged
  · split at hchanged
    · cases hchanged
    · exact Option.some.inj hchanged ▸ hinner.put path.name hitem

theorem insertAll {table inserted : Table} (h : table.Distinct) {entries : List (KeyPath × Item)}
    (hentries : ∀ entry ∈ entries, entry.2.Distinct)
    (hinserted : table.insertAll? entries = some inserted) : inserted.Distinct := by
  induction entries generalizing table with
  | nil => exact Option.some.inj hinserted ▸ h
  | cons entry entries ih =>
    obtain ⟨hentry, hrest⟩ := List.forall_mem_cons.1 hentries
    rw [Table.insertAll?, List.foldlM_cons] at hinserted
    obtain ⟨next, hnext, hinserted⟩ := Option.bind_eq_some_iff.1 hinserted
    exact ih (h.insert hentry hnext) hrest hinserted

theorem addSection {document changed : Table} (h : document.Distinct) {s : Section}
    (hentries : ∀ entry ∈ s.entries, entry.2.Distinct)
    (hchanged : document.addSection? s = some changed) : changed.Distinct := by
  refine h.modifyAt (fun {parent added} hparent hadded => ?_) hchanged
  have hput {elements : List Table} (helements : ∀ table ∈ elements, table.Distinct)
      (hbind : (((Table.empty .header).insertAll? s.entries).bind fun element =>
        some (parent.put s.path.name (.tables (elements ++ [element])))) = some added) :
      added.Distinct := by
    obtain ⟨element, helement, hadded⟩ := Option.bind_eq_some_iff.1 hbind
    refine Option.some.inj hadded ▸ hparent.put _ (.tables fun table htable => ?_)
    rcases List.mem_append.1 htable with htable | htable
    · exact helements table htable
    · exact List.mem_singleton.1 htable ▸ (empty .header).insertAll hentries helement
  have hputLast {start : Table} (hstart : start.Distinct)
      (hbind : ((start.insertAll? s.entries).bind fun table =>
        some (parent.putLast s.path.name (.table table))) = some added) : added.Distinct := by
    obtain ⟨table, htable, hadded⟩ := Option.bind_eq_some_iff.1 hbind
    exact Option.some.inj hadded ▸ hparent.putLast _ (.table (hstart.insertAll hentries htable))
  split at hadded
  · split at hadded
    · exact hput (List.forall_mem_nil _) hadded
    · next elements hget =>
      cases hparent.get? hget with | tables helements => exact hput helements hadded
    · cases hadded
  · split at hadded
    · exact hputLast (empty .header) hadded
    · next entries hget =>
      cases hparent.get? hget with
      | table hdistinct =>
        cases hdistinct with | mk hnodup hparts => exact hputLast (.mk hnodup hparts) hadded
    · cases hadded

end Table.Distinct

/-- A reader takes only values off a text that no table in them repeats a key. -/
def ReadsDistinct (read : Reader Item) : Prop :=
  ∀ {cs item rest}, read cs = some (item, rest) → item.Distinct

theorem distinct_readItems {read : Reader Item} (hread : ReadsDistinct read) {fuel : Nat}
    {cs rest : List Char} {items : List Item} (h : readItems? read fuel cs = some (items, rest)) :
    ∀ item ∈ items, item.Distinct := by
  induction fuel generalizing cs items with
  | zero => cases h
  | succ fuel ih =>
    rw [readItems?] at h
    split at h
    · cases h
      exact List.forall_mem_nil _
    · obtain ⟨⟨first, after⟩, hfirst, h⟩ := Option.bind_eq_some_iff.1 h
      dsimp only at h
      split at h
      · obtain ⟨⟨later, after⟩, hlater, ⟨⟩⟩ := Option.bind_eq_some_iff.1 h
        exact List.forall_mem_cons.2 ⟨hread hfirst, ih hlater⟩
      · cases h
        exact List.forall_mem_singleton.2 (hread hfirst)
      · cases h

theorem distinct_readAssignment {read : Reader Item} (hread : ReadsDistinct read)
    {cs rest : List Char} {path : KeyPath} {item : Item}
    (h : readAssignment? read cs = some ((path, item), rest)) : item.Distinct := by
  obtain ⟨⟨path, after⟩, -, h⟩ := Option.bind_eq_some_iff.1 h
  obtain ⟨after, -, h⟩ := Option.bind_eq_some_iff.1 h
  obtain ⟨⟨item, after⟩, hitem, ⟨⟩⟩ := Option.bind_eq_some_iff.1 h
  exact hread hitem

theorem distinct_readEntries {read : Reader Item} (hread : ReadsDistinct read) {fuel : Nat}
    {cs rest : List Char} {entries : List (KeyPath × Item)}
    (h : readEntries? read fuel cs = some (entries, rest)) :
    ∀ entry ∈ entries, entry.2.Distinct := by
  induction fuel generalizing cs entries with
  | zero => cases h
  | succ fuel ih =>
    obtain ⟨⟨⟨path, item⟩, after⟩, hentry, h⟩ := Option.bind_eq_some_iff.1 h
    have hitem := distinct_readAssignment hread hentry
    dsimp only at h
    split at h
    · obtain ⟨⟨later, after⟩, hlater, ⟨⟩⟩ := Option.bind_eq_some_iff.1 h
      exact List.forall_mem_cons.2 ⟨hitem, ih hlater⟩
    · cases h
      exact List.forall_mem_singleton.2 hitem
    · cases h

theorem readsDistinct_inlineTable {read : Reader Item} (hread : ReadsDistinct read) :
    ReadsDistinct (readInlineTable? read) := by
  intro cs item rest h
  have hinsert {entries : List (KeyPath × Item)} {after : List Char}
      (hentries : ∀ entry ∈ entries, entry.2.Distinct)
      (hbind : (((Table.empty .header).insertAll? entries).bind fun table =>
        some (Item.inline table, after)) = some (item, rest)) : item.Distinct := by
    obtain ⟨table, htable, ⟨⟩⟩ := Option.bind_eq_some_iff.1 hbind
    exact .inline ((Table.Distinct.empty .header).insertAll hentries htable)
  rw [readInlineTable?] at h
  split at h
  · exact hinsert (List.forall_mem_nil _) h
  · obtain ⟨⟨entries, after⟩, hentries, h⟩ := Option.bind_eq_some_iff.1 h
    exact hinsert (distinct_readEntries hread hentries) h

theorem distinct_readFloat {cs rest : List Char} {value : Value}
    (h : readFloat? cs = some (value, rest)) : value.Distinct := by
  unfold readFloat? at h
  obtain ⟨⟨whole, after⟩, -, h⟩ := Option.bind_eq_some_iff.1 h
  dsimp only at h
  split at h
  -- Without a fraction there is an exponent to read; the rest is the same.
  case' h_2 => obtain ⟨⟨exponent, after⟩, -, h⟩ := Option.bind_eq_some_iff.1 h
  all_goals
    obtain ⟨⟨decimal, after⟩, -, h⟩ := Option.bind_eq_some_iff.1 h
    dsimp only at h
    split at h
    · cases h
    · cases h
      exact .float _

theorem distinct_readSpecial {cs rest : List Char} {value : Value}
    (h : readSpecial? cs = some (value, rest)) : value.Distinct := by
  unfold readSpecial? at h
  dsimp only at h
  split at h
  · cases h
    exact .float _
  · cases h
    exact .float _
  · cases h

theorem distinct_readInteger {cs rest : List Char} {value : Value}
    (h : readInteger? cs = some (value, rest)) : value.Distinct := by
  have hbased {base : Nat} {cs : List Char} (h : readBased? base cs = some (value, rest)) :
      value.Distinct := by
    obtain ⟨⟨run, after⟩, -, h⟩ := Option.bind_eq_some_iff.1 h
    obtain ⟨digits, -, h⟩ := Option.bind_eq_some_iff.1 h
    obtain ⟨-, ⟨⟩⟩ := Option.ite_none_right_eq_some.1 h
    exact .int _
  unfold readInteger? at h
  split at h
  · exact hbased h
  · exact hbased h
  · exact hbased h
  · obtain ⟨⟨run, after⟩, -, h⟩ := Option.bind_eq_some_iff.1 h
    obtain ⟨-, ⟨⟩⟩ := Option.ite_none_right_eq_some.1 h
    exact .int _

theorem readsDistinct_numeric : ReadsDistinct readNumeric? := by
  intro cs item rest h
  rw [readNumeric?] at h
  split at h
  · cases h
    exact .moment _
  · obtain ⟨⟨value, after⟩, hvalue, ⟨⟩⟩ := Option.map_eq_some_iff.1 h
    rw [Option.or_eq_some_iff, Option.or_eq_some_iff] at hvalue
    rcases hvalue with hvalue | ⟨-, hvalue | ⟨-, hvalue⟩⟩
    · exact .scalar (distinct_readFloat hvalue)
    · exact .scalar (distinct_readSpecial hvalue)
    · exact .scalar (distinct_readInteger hvalue)

theorem readsDistinct_scalar : ReadsDistinct readScalar? := by
  intro cs item rest h
  unfold readScalar? at h
  split at h
  · cases h
    exact .scalar (.bool true)
  · cases h
    exact .scalar (.bool false)
  · split at h
    · obtain ⟨⟨text, after⟩, -, ⟨⟩⟩ := Option.map_eq_some_iff.1 h
      exact .scalar (.text text)
    · exact readsDistinct_numeric h

theorem readsDistinct_value (levels : Nat) : ReadsDistinct (readValue? levels) := by
  induction levels with
  | zero =>
    intro cs item rest h
    unfold readValue? at h
    exact readsDistinct_scalar h
  | succ levels ih =>
    intro cs item rest h
    unfold readValue? at h
    split at h
    · next hlevels =>
      cases hlevels
      obtain ⟨⟨items, after⟩, hitems, ⟨⟩⟩ := Option.map_eq_some_iff.1 h
      exact .array (distinct_readItems ih hitems)
    · next hlevels =>
      cases hlevels
      exact readsDistinct_inlineTable ih h
    · exact readsDistinct_scalar h

/-- No table in the items of these statements repeats a key. -/
def Statement.Distinct : Statement → Prop
  | .entry _ item => item.Distinct
  | .header _ _ => True

theorem eq_header_of_readHeader {cs rest : List Char} {statement : Statement}
    (h : readHeader? cs = some (statement, rest)) :
    ∃ path isArray, statement = .header path isArray := by
  unfold readHeader? at h
  split at h
  · obtain ⟨⟨path, after⟩, -, h⟩ := Option.bind_eq_some_iff.1 h
    obtain ⟨after, -, h⟩ := Option.bind_eq_some_iff.1 h
    obtain ⟨after, -, ⟨⟩⟩ := Option.bind_eq_some_iff.1 h
    exact ⟨path, true, rfl⟩
  · obtain ⟨⟨path, after⟩, -, h⟩ := Option.bind_eq_some_iff.1 h
    obtain ⟨after, -, ⟨⟩⟩ := Option.bind_eq_some_iff.1 h
    exact ⟨path, false, rfl⟩
  · cases h

theorem distinct_readStatement {cs rest : List Char} {statement : Statement}
    (h : readStatement? cs = some (statement, rest)) : statement.Distinct := by
  rw [readStatement?] at h
  split at h
  · obtain ⟨path, isArray, rfl⟩ := eq_header_of_readHeader h
    trivial
  · obtain ⟨⟨⟨path, item⟩, after⟩, hread, ⟨⟩⟩ := Option.map_eq_some_iff.1 h
    exact distinct_readAssignment (readsDistinct_value _) hread

theorem distinct_readStatements {fuel : Nat} {cs : List Char} {statements : List Statement}
    (h : readStatements? fuel cs = some statements) :
    ∀ statement ∈ statements, statement.Distinct := by
  induction fuel generalizing cs statements with
  | zero => cases h
  | succ fuel ih =>
    unfold readStatements? at h
    split at h
    · cases h
      exact List.forall_mem_nil _
    · obtain ⟨after, -, h⟩ := Option.bind_eq_some_iff.1 h
      exact ih h
    · obtain ⟨after, -, h⟩ := Option.bind_eq_some_iff.1 h
      exact ih h
    · obtain ⟨after, -, h⟩ := Option.bind_eq_some_iff.1 h
      exact ih h
    · obtain ⟨⟨statement, after⟩, hread, h⟩ := Option.bind_eq_some_iff.1 h
      obtain ⟨after, -, h⟩ := Option.bind_eq_some_iff.1 h
      obtain ⟨later, hlater, ⟨⟩⟩ := Option.bind_eq_some_iff.1 h
      exact List.forall_mem_cons.2 ⟨distinct_readStatement hread, ih hlater⟩

theorem distinct_sections {statements : List Statement}
    (h : ∀ statement ∈ statements, statement.Distinct) :
    (∀ entry ∈ (sections statements).1, entry.2.Distinct) ∧
      ∀ s ∈ (sections statements).2, ∀ entry ∈ s.entries, entry.2.Distinct := by
  induction statements with
  | nil => exact ⟨List.forall_mem_nil _, List.forall_mem_nil _⟩
  | cons statement statements ih =>
    obtain ⟨hstatement, hstatements⟩ := List.forall_mem_cons.1 h
    obtain ⟨hentries, hlater⟩ := ih hstatements
    cases statement with
    | entry path item => exact ⟨List.forall_mem_cons.2 ⟨hstatement, hentries⟩, hlater⟩
    | header path isArray =>
      exact ⟨List.forall_mem_nil _, List.forall_mem_cons.2 ⟨hentries, hlater⟩⟩

theorem distinct_foldlM_addSection {later : List Section}
    (h : ∀ s ∈ later, ∀ entry ∈ s.entries, entry.2.Distinct) {table document : Table}
    (htable : table.Distinct) (hdocument : later.foldlM Table.addSection? table = some document) :
    document.Distinct := by
  induction later generalizing table with
  | nil => exact Option.some.inj hdocument ▸ htable
  | cons s later ih =>
    obtain ⟨hs, hlater⟩ := List.forall_mem_cons.1 h
    rw [List.foldlM_cons] at hdocument
    obtain ⟨next, hnext, hdocument⟩ := Option.bind_eq_some_iff.1 hdocument
    exact ih hlater (htable.addSection hs hnext) hdocument

/-- No table of a document repeats a key. -/
theorem distinct_parse {source : String} {entries : List (String × Value)}
    (h : parse? source = some entries) : (Value.table entries).Distinct := by
  obtain ⟨statements, hstatements, h⟩ := Option.bind_eq_some_iff.1 h
  obtain ⟨hentries, hlater⟩ := distinct_sections (distinct_readStatements hstatements)
  obtain ⟨root, hroot, h⟩ := Option.bind_eq_some_iff.1 h
  obtain ⟨document, hdocument, h⟩ := Option.bind_eq_some_iff.1 h
  split at h
  · next found hfound =>
    cases h
    have hdistinct := (Table.Distinct.empty .header).insertAll hentries hroot
    exact Table.distinct_toValue (distinct_foldlM_addSection hlater hdistinct hdocument) hfound
  · cases h

end Toml

end Declang
