import Declang.Proofs.Rendering
import Declang.Proofs.Snapshot.ReadBack
namespace Declang

namespace NodeKind

theorem get?_attributes_declaration (v : Variable) :
    (declaration v).attributes.get? "type" = some v.typeName ∧
      (declaration v).attributes.get? "name" = some v.name ∧
      (declaration v).attributes.get? "default" = v.defaultValue := by
  obtain ⟨typeName, name, _ | default⟩ := v <;> simp [attributes, Attributes.ofList]

theorem attributes_inj {kind other : NodeKind} (h : kind.Worded) (hother : other.Worded)
    (htype : kind.typeName = other.typeName) (heq : kind.attributes = other.attributes) :
    kind = other := by
  have hget (key : String) := congrArg (·.get? key) heq
  cases kind with
  | program =>
    cases other with
    | program => rfl
    | _ => simp [typeName] at htype
  | return_ =>
    cases other with
    | return_ => rfl
    | _ => simp [typeName] at htype
  | function f =>
    cases other with
    | function g =>
      have hreturn : f.returnType = g.returnType := by
        simpa [attributes, Attributes.ofList] using hget "return_type"
      have hname : f.name = g.name := by simpa [attributes, Attributes.ofList] using hget "name"
      have hlist : f.parameterList = g.parameterList := by
        simpa [attributes, Attributes.ofList] using hget "parameters"
      have hparameters := Function.parameters_inj h.2.2 hother.2.2 hlist
      rw [Function.ext hreturn hname hparameters]
    | _ => simp [typeName] at htype
  | declaration v =>
    cases other with
    | declaration w =>
      obtain ⟨htype, hname, hdefault⟩ := get?_attributes_declaration v
      obtain ⟨htype', hname', hdefault'⟩ := get?_attributes_declaration w
      rw [heq, htype', Option.some_inj] at htype
      rw [heq, hname', Option.some_inj] at hname
      rw [heq, hdefault'] at hdefault
      rw [Variable.ext htype hname hdefault]
    | _ => simp [typeName] at htype
  | int value =>
    cases other with
    | int number =>
      have hvalue : toString value.toInt = toString number.toInt := by
        simpa [attributes, Attributes.ofList] using hget "value"
      rw [Int32.toInt_inj.1 (Int.repr_injective hvalue)]
    | _ => simp [typeName] at htype
  | uint value =>
    cases other with
    | uint number =>
      have hvalue : toString value.toNat = toString number.toNat := by
        simpa [attributes, Attributes.ofList] using hget "value"
      rw [UInt32.toNat_inj.1 (Nat.repr_injective hvalue)]
    | _ => simp [typeName] at htype
  | identifier name =>
    cases other with
    | identifier word =>
      have hname : name = word := by simpa [attributes, Attributes.ofList] using hget "name"
      rw [hname]
    | _ => simp [typeName] at htype

end NodeKind

namespace Tree

mutual

theorem snapshot_inj {tree other : Tree} (h : ∀ kind ∈ tree.kinds, kind.Worded)
    (hother : ∀ kind ∈ other.kinds, kind.Worded) (heq : tree.snapshot = other.snapshot) :
    tree = other := by
  cases tree with
  | node kind children =>
    cases other with
    | node kind' children' =>
      obtain ⟨hkind, hchildren⟩ := List.forall_mem_cons.1 h
      obtain ⟨hkind', hchildren'⟩ := List.forall_mem_cons.1 hother
      rw [snapshot, snapshot, Snapshot.node.injEq] at heq
      obtain ⟨htype, -, hattributes, hsnapshots⟩ := heq
      rw [NodeKind.attributes_inj hkind hkind' htype hattributes,
        snapshots_inj hchildren hchildren' hsnapshots]

theorem snapshots_inj {trees others : List Tree} (h : ∀ kind ∈ allKinds trees, kind.Worded)
    (hothers : ∀ kind ∈ allKinds others, kind.Worded) (heq : snapshots trees = snapshots others) :
    trees = others := by
  cases trees with
  | nil =>
    cases others with
    | nil => rfl
    | cons other others => cases heq
  | cons tree trees =>
    cases others with
    | nil => cases heq
    | cons other others =>
      obtain ⟨htree, htrees⟩ := List.forall_mem_append.1 h
      obtain ⟨htree', htrees'⟩ := List.forall_mem_append.1 hothers
      obtain ⟨hfirst, hlater⟩ := List.cons.inj heq
      rw [snapshot_inj htree htree' hfirst, snapshots_inj htrees htrees' hlater]

end

end Tree

theorem Tree.snapshot_eq_of_jsonText {items items' : List Item} {layout : Json.Layout}
    (hblank : layout.Blank)
    (h : (program items).snapshot.toJsonText layout = (program items').snapshot.toJsonText layout) :
    (program items).snapshot = (program items').snapshot := by
  have hread := Snapshot.ofJsonText?_toJsonText hblank (Snapshot.within_program items _)
  rw [h, Snapshot.ofJsonText?_toJsonText hblank (Snapshot.within_program items' _)] at hread
  exact (Option.some.inj hread).symm

/-- The JSON text of a processed program tells the whole program, in either layout. -/
theorem render_treeJson_eq_iff {source source' : String} {arena arena' : Arena}
    (h : process source = .ok arena) (h' : process source' = .ok arena')
    (options : FormatOptions) :
    ∃ text text', arena.render? .treeJson options = some text ∧
      arena'.render? .treeJson options = some text' ∧ (text = text' ↔ arena = arena') := by
  obtain ⟨items, rfl, hworded⟩ := exists_worded_of_process h
  obtain ⟨items', rfl, hworded'⟩ := exists_worded_of_process h'
  refine ⟨_, _, Arena.render?_ofTree .treeJson options _, Arena.render?_ofTree .treeJson options _,
    ?_⟩
  have hblank : (if options.prettyJson then Json.Layout.pretty else .compact).Blank := by
    split
    · exact Json.Layout.blank_pretty
    · exact Json.Layout.blank_compact
  constructor
  · intro heq
    rw [Tree.snapshot_inj hworded hworded' (Tree.snapshot_eq_of_jsonText hblank heq)]
  · intro heq
    rw [Arena.ofTree_inj heq]

/-- The sources differ in their blanks and in the spelling of the returned value. -/
theorem render_treeJson_eq_iff_samples :
    ∃ arena arena', process "int f(byte a, uint b) \x7b return 07; \x7d" = .ok arena ∧
      process "int f ( byte a,uint b )\x7b\nreturn 7;\x7d" = .ok arena' ∧
      ∃ text text', arena.render? .treeJson {} = some text ∧
        arena'.render? .treeJson {} = some text' ∧ (text = text' ↔ arena = arena') := by
  have hprocess : process "int f(byte a, uint b) \x7b return 07; \x7d" =
      .ok (.ofTree (.program [.function ⟨"int", "f", [⟨"byte", "a"⟩, ⟨"uint", "b"⟩]⟩
        [.return_ (some (.int 7))]])) := by decide +kernel
  have hprocess' : process "int f ( byte a,uint b )\x7b\nreturn 7;\x7d" =
      .ok (.ofTree (.program [.function ⟨"int", "f", [⟨"byte", "a"⟩, ⟨"uint", "b"⟩]⟩
        [.return_ (some (.int 7))]])) := by decide +kernel
  exact ⟨_, _, hprocess, hprocess', render_treeJson_eq_iff hprocess hprocess' {}⟩

end Declang
