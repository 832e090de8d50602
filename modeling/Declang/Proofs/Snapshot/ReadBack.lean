import Declang.Snapshot.Json
import Declang.Proofs.Json.ReadBack
import Declang.Proofs.Parse.Unparse
import Declang.Proofs.Snapshot.Attributes
namespace Declang

namespace Snapshot

theorem ofJson?_eq_some_iff {depth : Nat} {json : Json} {snapshot : Snapshot} :
    ofJson? (depth + 1) json = some snapshot ↔
      ∃ parts, parts? json = some parts ∧ textOf? parts.nodeType = some snapshot.nodeType ∧
        textOf? parts.label = some snapshot.label ∧
        attributesOf? depth parts.attributes = some snapshot.attributes ∧
        childrenOf? depth parts.children = some snapshot.children := by
  rw [ofJson?]
  simp only [Option.bind_eq_bind, Option.bind_eq_some_iff]
  constructor
  · rintro ⟨parts, hparts, _, hnodeType, _, hlabel, _, hattributes, _, hchildren, h⟩
    cases h
    exact ⟨parts, hparts, hnodeType, hlabel, hattributes, hchildren⟩
  · rintro ⟨parts, hparts, hnodeType, hlabel, hattributes, hchildren⟩
    refine ⟨parts, hparts, _, hnodeType, _, hlabel, _, hattributes, _, hchildren, ?_⟩
    cases snapshot
    rfl

theorem eq_empty_of_attributesOf? {json : Option Json} {attributes : Attributes}
    (h : attributesOf? 0 json = some attributes) : attributes = .empty := by
  cases json with
  | none => exact (Option.some.inj h).symm
  | some json => cases json <;> cases h

theorem eq_nil_of_childrenOf? {json : Option Json} {children : List Snapshot}
    (h : childrenOf? 0 json = some children) : children = [] := by
  cases json with
  | none => exact (Option.some.inj h).symm
  | some json => cases json <;> cases h

theorem exists_of_mem_childrenOf? {depth : Nat} {json : Option Json} {children : List Snapshot}
    {child : Snapshot} (h : childrenOf? (depth + 1) json = some children)
    (hchild : child ∈ children) : ∃ item, ofJson? depth item = some child := by
  cases json with
  | none =>
    cases h
    cases hchild
  | some json =>
    cases json with
    | array items =>
      obtain ⟨i, hi, rfl⟩ := List.getElem_of_mem hchild
      have hitems := mapM_eq_some_iff.1 h
      exact ⟨_, (List.forall₂_iff_get.1 hitems).2 i (hitems.length_eq ▸ hi) hi⟩
    | _ => cases h

/-- The objects and arrays of the written snapshot nest at most `depth` deep. -/
def Within : Nat → Snapshot → Prop
  | 0, _ => False
  | 1, snapshot => snapshot.attributes = .empty ∧ snapshot.children = []
  | depth + 2, snapshot => ∀ child ∈ snapshot.children, child.Within depth

theorem within_of_ofJson? {depth : Nat} {json : Json} {snapshot : Snapshot}
    (h : ofJson? depth json = some snapshot) : snapshot.Within depth := by
  fun_induction Within depth snapshot generalizing json with
  | case1 => cases h
  | case2 snapshot =>
    obtain ⟨parts, -, -, -, hattributes, hchildren⟩ := ofJson?_eq_some_iff.1 h
    exact ⟨eq_empty_of_attributesOf? hattributes, eq_nil_of_childrenOf? hchildren⟩
  | case3 depth snapshot ih =>
    obtain ⟨parts, -, -, -, -, hchildren⟩ := ofJson?_eq_some_iff.1 h
    intro child hchild
    obtain ⟨item, hitem⟩ := exists_of_mem_childrenOf? hchildren hchild
    exact ih child hitem

theorem fieldsOf?_record (known : List String) (fields : List (String × Json)) :
    fieldsOf? known (fields.map fun (key, value) => (.whole key, value)) =
      if (known.all fun key => (fields.filter (·.1 == key)).length ≤ 1) then some fields
      else none := by
  have hfields : (fields.map fun (key, value) => (Json.Text.whole key, value)).mapM fieldOf? =
      some fields := mapM_map_eq_some fun field _ => rfl
  rw [fieldsOf?, hfields]
  rfl

/-- What a snapshot with these attributes writes for them. -/
def attributesPart (attributes : Attributes) : Option Json :=
  if attributes.entries.isEmpty then none
  else some (.record (attributes.entries.map fun (key, value) => (key, .string value)))

/-- What a snapshot with these children writes for them. -/
def childrenPart (children : List Snapshot) : Option Json :=
  if children.isEmpty then none else some (.array (toJsons children))

theorem parts?_toJson (snapshot : Snapshot) :
    parts? snapshot.toJson = some ⟨.string snapshot.nodeType, .string snapshot.label,
      attributesPart snapshot.attributes, childrenPart snapshot.children⟩ := by
  obtain ⟨nodeType, label, attributes, children⟩ := snapshot
  rw [toJson, Json.record, parts?, fieldsOf?_record, attributesField, attributesPart, childrenPart]
  simp only [Snapshot.attributes, Snapshot.children, Snapshot.nodeType, Snapshot.label]
  by_cases hattributes : attributes.entries.isEmpty <;> by_cases hchildren : children.isEmpty <;>
    simp [hattributes, hchildren, List.lookup_cons]

theorem attributesOf?_empty (depth : Nat) :
    attributesOf? depth (attributesPart .empty) = some .empty := by
  cases depth <;> rfl

theorem attributesOf?_attributesPart (depth : Nat) (attributes : Attributes) :
    attributesOf? (depth + 1) (attributesPart attributes) = some attributes := by
  rw [attributesPart]
  split
  · next hempty =>
    have hattributes : attributes = .empty := Attributes.ext (List.isEmpty_iff.1 hempty)
    rw [hattributes, attributesOf?]
  · have hentries : ((attributes.entries.map fun (key, value) => (key, Json.string value)).map
        fun (key, value) => (Json.Text.whole key, value)).mapM entryOf? =
          some attributes.entries := by
      rw [List.map_map]
      exact mapM_map_eq_some fun entry _ => rfl
    rw [Json.record, attributesOf?, hentries, Option.map_some, Attributes.ofList_entries]

theorem childrenOf?_nil (depth : Nat) : childrenOf? depth (childrenPart []) = some [] := by
  cases depth <;> rfl

theorem childrenOf?_childrenPart {depth : Nat} {children : List Snapshot}
    (h : ∀ child ∈ children, ofJson? depth child.toJson = some child) :
    childrenOf? (depth + 1) (childrenPart children) = some children := by
  cases children with
  | nil => exact childrenOf?_nil _
  | cons child children =>
    rw [childrenPart, if_neg (by simp), childrenOf?, toJsons_eq_map]
    exact mapM_map_eq_some h

/-- A snapshot is read back from its JSON value by a reader that goes deep enough. -/
theorem ofJson?_toJson {depth : Nat} {snapshot : Snapshot} (h : snapshot.Within depth) :
    ofJson? depth snapshot.toJson = some snapshot := by
  fun_induction Within depth snapshot with
  | case1 => exact h.elim
  | case2 snapshot =>
    obtain ⟨hattributes, hchildren⟩ := h
    refine ofJson?_eq_some_iff.2 ⟨_, parts?_toJson snapshot, rfl, rfl, ?_, ?_⟩
    · rw [hattributes]
      exact attributesOf?_empty 0
    · rw [hchildren]
      exact childrenOf?_nil 0
  | case3 depth snapshot ih =>
    refine ofJson?_eq_some_iff.2 ⟨_, parts?_toJson snapshot, rfl, rfl, ?_, ?_⟩
    · exact attributesOf?_attributesPart depth snapshot.attributes
    · exact childrenOf?_childrenPart fun child hchild => ih child (h child hchild)

mutual

theorem numberFree_toJson (snapshot : Snapshot) : snapshot.toJson.NumberFree := by
  cases snapshot with
  | node nodeType label attributes children =>
    have hchildren := numberFree_toJsons children
    rw [toJson, attributesField, Json.numberFree_record]
    intro field hfield
    rw [List.mem_append, List.mem_append] at hfield
    rcases hfield with (hfield | hfield) | hfield
    · rcases List.mem_pair.1 hfield with rfl | rfl <;> trivial
    · split at hfield
      · cases hfield
      · rw [List.mem_singleton.1 hfield, Json.numberFree_record]
        exact List.forall_mem_map.2 fun _ _ => trivial
    · split at hfield
      · cases hfield
      · rw [List.mem_singleton.1 hfield]
        exact hchildren

theorem numberFree_toJsons (snapshots : List Snapshot) :
    Json.ItemsNumberFree (toJsons snapshots) := by
  cases snapshots with
  | nil => trivial
  | cons snapshot snapshots =>
    exact ⟨numberFree_toJson snapshot, numberFree_toJsons snapshots⟩

end

theorem ofJsonText?_toJsonText {layout : Json.Layout} (hblank : layout.Blank) {snapshot : Snapshot}
    (h : snapshot.Within maxNesting) :
    ofJsonText? (snapshot.toJsonText layout) = some snapshot := by
  rw [ofJsonText?, toJsonText, Json.parse?_render hblank snapshot.numberFree_toJson,
    Option.bind_some, ofJson?_toJson h]

theorem within_of_ofJsonText? {source : String} {snapshot : Snapshot}
    (h : ofJsonText? source = some snapshot) : snapshot.Within maxNesting := by
  obtain ⟨json, -, hjson⟩ := Option.bind_eq_some_iff.1 h
  exact within_of_ofJson? hjson

theorem within_map {α : Type} {tree : α → Tree} {depth : Nat} {as : List α}
    (h : ∀ a, (tree a).snapshot.Within depth) (kind : NodeKind) :
    (Tree.node kind (as.map tree)).snapshot.Within (depth + 2) := by
  intro child hchild
  rw [Tree.snapshot, children, Tree.snapshots_eq_map] at hchild
  obtain ⟨_, htree, rfl⟩ := List.mem_map.1 hchild
  obtain ⟨a, -, rfl⟩ := List.mem_map.1 htree
  exact h a

theorem within_leaf (kind : NodeKind) (depth : Nat) :
    (Tree.node kind []).snapshot.Within (depth + 2) := by
  intro child hchild
  cases hchild

theorem within_statement (statement : Statement) (depth : Nat) :
    statement.tree.snapshot.Within (depth + 4) := by
  cases statement with
  | declaration v => exact within_leaf (.declaration v) _
  | return_ returned =>
    cases returned with
    | none => exact within_leaf .return_ _
    | some r =>
      intro child hchild
      rw [List.mem_singleton.1 hchild]
      exact within_leaf r.kind depth

theorem within_item (item : Item) (depth : Nat) : item.tree.snapshot.Within (depth + 6) := by
  cases item with
  | declaration v => exact within_leaf (.declaration v) _
  | function f body => exact within_map (within_statement · depth) (.function f)

theorem within_program (items : List Item) (depth : Nat) :
    (Tree.program items).snapshot.Within (depth + 8) :=
  within_map (within_item · depth) .program

/-- The JSON texts of the snapshot, the compact one and the pretty one, are read as the snapshot. -/
def ReadsBack (snapshot : Snapshot) : Prop :=
  ∀ layout ∈ [Json.Layout.compact, .pretty],
    ofJsonText? (snapshot.toJsonText layout) = some snapshot

theorem Within.readsBack {snapshot : Snapshot} (h : snapshot.Within maxNesting) :
    snapshot.ReadsBack := by
  intro layout hlayout
  rcases List.mem_pair.1 hlayout with rfl | rfl
  · exact ofJsonText?_toJsonText Json.Layout.blank_compact h
  · exact ofJsonText?_toJsonText Json.Layout.blank_pretty h

/-- Reads the snapshot of a text and writes it. -/
def rewrite? (layout : Json.Layout) (source : String) : Option String :=
  (ofJsonText? source).map (toJsonText layout)

end Snapshot

/-- The snapshot of the program in an arena. -/
def Arena.snapshot? (arena : Arena) : Option Snapshot :=
  (arena.tree? root).map Tree.snapshot

theorem Arena.snapshot?_ofTree (tree : Tree) : (ofTree tree).snapshot? = some tree.snapshot := by
  rw [snapshot?, tree?_ofTree, Option.map_some]

/-- Snapshots of parsed programs and snapshots read from a text are read back from what is written
for them, so to write an accepted text again changes nothing the second time. -/
theorem readsBack_of_parse_or_read :
    (∀ tokens arena, parse tokens = .ok arena →
      ∃ snapshot, arena.snapshot? = some snapshot ∧ snapshot.ReadsBack) ∧
    (∀ source snapshot, Snapshot.ofJsonText? source = some snapshot → snapshot.ReadsBack) ∧
    ∀ layout ∈ [Json.Layout.compact, .pretty], ∀ source written,
      Snapshot.rewrite? layout source = some written →
        Snapshot.rewrite? layout written = some written := by
  have hread {source : String} {snapshot : Snapshot}
      (h : Snapshot.ofJsonText? source = some snapshot) : snapshot.ReadsBack :=
    (Snapshot.within_of_ofJsonText? h).readsBack
  refine ⟨?_, fun source snapshot h => hread h, ?_⟩
  · intro tokens arena h
    obtain ⟨items, -, rfl⟩ := parse_eq_ok_iff.1 h
    exact ⟨_, Arena.snapshot?_ofTree _, (Snapshot.within_program items _).readsBack⟩
  · intro layout hlayout source written h
    obtain ⟨snapshot, hsnapshot, rfl⟩ := Option.map_eq_some_iff.1 h
    rw [Snapshot.rewrite?, hread hsnapshot layout hlayout, Option.map_some]

/-- A text with a space, an escape and a surrogate pair, in the form of an array. -/
def sampleText : String := "[\"a\\u0000\", \"\\ud83d\\ude00\", \x7b\"k\":\"v\"\x7d]"

theorem readsBack_of_parse_or_read_samples :
    (∃ arena snapshot, parse escapedTokens = .ok arena ∧ arena.snapshot? = some snapshot ∧
      snapshot.ReadsBack) ∧
    (∃ snapshot, Snapshot.ofJsonText? sampleText = some snapshot ∧ snapshot.ReadsBack) ∧
    ∃ written, Snapshot.rewrite? .compact sampleText = some written ∧
      Snapshot.rewrite? .compact written = some written := by
  have hparse : parse escapedTokens =
      .ok (.ofTree (.program [.declaration ⟨"\"\\", "\x01\n\u00e9", none⟩])) :=
    parse_eq_ok_iff.2 ⟨_, by decide, rfl⟩
  obtain ⟨read, hread⟩ : ∃ snapshot, Snapshot.ofJsonText? sampleText = some snapshot :=
    Option.isSome_iff_exists.1 (by decide +kernel)
  obtain ⟨hparsed, hback, hrewrite⟩ := readsBack_of_parse_or_read
  obtain ⟨snapshot, hsnapshot, hsnapshot'⟩ := hparsed _ _ hparse
  have hwritten := congrArg (Option.map (Snapshot.toJsonText .compact)) hread
  exact ⟨⟨_, snapshot, hparse, hsnapshot, hsnapshot'⟩, ⟨_, hread, hback _ _ hread⟩,
    ⟨_, hwritten, hrewrite _ List.mem_cons_self _ _ hwritten⟩⟩

end Declang
