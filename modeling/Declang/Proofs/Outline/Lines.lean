import Declang.Proofs.Arena.Grove
import Declang.Proofs.Rendering
namespace Declang

/-- The icon and the label of a node as far as they are shown. -/
def OutlineOptions.shown (options : OutlineOptions) (kind : NodeKind) : String :=
  (if options.showIcons then kind.icon ++ " " else "")
    ++ String.ofList (kind.label.toList.take options.maxLabelWidth)
    ++ if options.maxLabelWidth < kind.label.length then "..." else ""

theorem OutlineOptions.nodeText_eq_shown (options : OutlineOptions) (kind : NodeKind) :
    options.nodeText kind = options.shown kind := by
  have hlabel : truncate options.maxLabelWidth kind.label =
      String.ofList (kind.label.toList.take options.maxLabelWidth)
        ++ if options.maxLabelWidth < kind.label.length then "..." else "" := by
    rw [truncate]
    split
    · rfl
    · next hfits =>
      rw [List.take_of_length_le (Nat.le_of_not_lt hfits), String.ofList_toList, String.append_empty]
  rw [nodeText, shown, hlabel, @String.append_assoc (if options.showIcons then _ else _)]
  cases options.showIcons with
  | true => rfl
  | false => exact String.empty_append.symm

namespace Arena

/-- The nodes on the way from the root down to a node, without the root. It fails after `fuel`
links. -/
def lineage? (arena : Arena) : Nat → NodeId → Option (List NodeId)
  | 0, _ => none
  | fuel + 1, id =>
    match arena.parent? id with
    | none => some []
    | some parent => (arena.lineage? fuel parent).map (· ++ [id])

/-- Whether a node is the last child of its parent. -/
def isLast (arena : Arena) (id : NodeId) : Bool :=
  ((arena.parent? id).bind fun parent => (arena.children parent).getLast?) == some id

/-- What stands under the connector of a node on the lines of the nodes below it. -/
def column (arena : Arena) (id : NodeId) : String :=
  if arena.isLast id then "  " else "│ "

/-- The line of a node, told by its ancestors. -/
def line? (arena : Arena) (options : OutlineOptions) (id : NodeId) : Option String :=
  (arena.get? id).bind fun node =>
    if id = root then some (options.shown node.kind ++ "\n")
    else (node.parent.bind (arena.lineage? arena.size)).map fun ancestors =>
      String.join (ancestors.map arena.column) ++ (if arena.isLast id then "└─" else "├─") ++ " "
        ++ options.shown node.kind ++ "\n"

variable {arena : Arena}

theorem isLast_eq {id parent : NodeId} {front later : List NodeId}
    (hparent : arena.parent? id = some parent)
    (hchildren : arena.children parent = front ++ id :: later)
    (hnodup : (arena.children parent).Nodup) : arena.isLast id = later.isEmpty := by
  rw [isLast, hparent, Option.bind_some, hchildren, List.getLast?_append]
  cases later with
  | nil => simp
  | cons next later =>
    -- The last child is one of the later ones, and those are other nodes.
    have hlater : id ∉ next :: later := by
      rw [hchildren] at hnodup
      exact (List.nodup_cons.1 (List.nodup_append.1 hnodup).2.1).1
    have hlast : (next :: later).getLast (List.cons_ne_nil next later) ≠ id := by
      intro heq
      exact hlater (heq ▸ List.getLast_mem _)
    rw [List.getLast?_cons_cons, List.getLast?_eq_some_getLast (List.cons_ne_nil next later),
      Option.some_or]
    simpa using hlast

theorem line?_child (options : OutlineOptions) {id parent : NodeId} {node : Node}
    {ancestors : List NodeId} (hnode : arena.get? id = some node) (hid : id ≠ root)
    (hparent : arena.parent? id = some parent)
    (hancestors : arena.lineage? arena.size parent = some ancestors) :
    arena.line? options id = some (String.join (ancestors.map arena.column)
      ++ (if arena.isLast id then "└─" else "├─") ++ " " ++ options.shown node.kind ++ "\n") := by
  rw [parent?_eq hnode] at hparent
  rw [line?, hnode, Option.bind_some, if_neg hid, hparent, Option.bind_some, hancestors,
    Option.map_some]

theorem Grove.exists_lines (hlinked : arena.Linked) (options : OutlineOptions)
    {ids order : List NodeId} {trees : List Tree} (h : arena.Grove ids order trees)
    {parent : NodeId} {front ancestors : List NodeId} (hparent : arena.Reachable parent)
    (hchildren : arena.children parent = front ++ ids)
    (hlineage : ∀ fuel, ancestors.length < fuel → arena.lineage? fuel parent = some ancestors)
    (hlength : ancestors.length + order.length ≤ arena.size) :
    ∃ lines, List.Forall₂ (fun id line => arena.line? options id = some line) order lines ∧
      Tree.branches options (String.join (ancestors.map arena.column)) trees =
        String.join lines := by
  induction h generalizing parent front ancestors with
  | nil => exact ⟨[], .nil, rfl⟩
  | @cons id node ids below later children trees hfound _ hbeside ihInner ihBeside =>
    rw [List.length_cons, List.length_append] at hlength
    have hlisted : id ∈ arena.children parent := by
      rw [hchildren]
      exact List.mem_append_right _ (List.mem_cons_self ..)
    have hrecorded := hlinked.child_parent hparent hlisted
    have hid : id ≠ root := by
      rintro rfl
      rw [hlinked.root_parent] at hrecorded
      cases hrecorded
    have hlast : arena.isLast id = trees.isEmpty := by
      rw [isLast_eq hrecorded hchildren (hlinked.nodup hparent), Bool.eq_iff_iff,
        List.isEmpty_iff_length_eq_zero, List.isEmpty_iff_length_eq_zero, hbeside.length_eq]
    have hbelow : ∀ fuel, (ancestors ++ [id]).length < fuel →
        arena.lineage? fuel id = some (ancestors ++ [id]) := by
      intro fuel hfuel
      rw [List.length_append, List.length_singleton] at hfuel
      cases fuel with
      | zero => cases hfuel
      | succ fuel =>
        rw [lineage?, hrecorded]
        simp only [hlineage fuel (Nat.lt_of_succ_lt_succ hfuel), Option.map_some]
    have hdeeper : (ancestors ++ [id]).length + below.length ≤ arena.size := by
      rw [List.length_append, List.length_singleton]
      omega
    have hwhole : arena.children id = [] ++ node.children := children_eq hfound
    obtain ⟨inner, hinner, hbranches⟩ := ihInner (hparent.child hlisted) hwhole hbelow hdeeper
    have hsplit : arena.children parent = (front ++ [id]) ++ ids := by
      rw [hchildren, List.append_cons]
    obtain ⟨outer, houter, hrest⟩ := ihBeside hparent hsplit hlineage (by omega)
    have hline := line?_child options hfound hid hrecorded (hlineage arena.size (by omega))
    refine ⟨_ :: (inner ++ outer), .cons hline (List.rel_append hinner houter), ?_⟩
    rw [List.map_append, String.join_append, List.map_singleton, String.join_cons, String.join_nil,
      String.append_empty, column, hlast] at hbranches
    rw [Tree.branches, Tree.branch, hbranches, hrest, String.join_cons, String.join_append,
      OutlineOptions.nodeText_eq_shown, hlast, @String.append_assoc _ (String.join inner)]

/-- An outline has one line for each node that the walk visits, in the order of the visits, and each
line is told by the node and its ancestors. -/
theorem render_treeOutline_eq_join (h : arena.validate = .ok ()) (options : FormatOptions) :
    ∃ order lines, arena.descendants? = some order ∧
      order.mapM (arena.line? options.outline) = some lines ∧
      arena.render? .treeOutline options = some (String.join lines) := by
  have hlinked := linked_of_validate_eq_ok h
  obtain ⟨order, tree, horder, -, -, hgrove, hlength⟩ := hlinked.exists_grove
  cases hgrove with
  | @cons _ node _ below _ children _ hfound hinner hbeside =>
    cases hbeside
    rw [List.append_nil] at horder hlength
    have hlineage : ∀ fuel, ([] : List NodeId).length < fuel →
        arena.lineage? fuel root = some [] := by
      intro fuel hfuel
      cases fuel with
      | zero => cases hfuel
      | succ fuel => rw [lineage?, hlinked.root_parent]
    have hwhole : arena.children root = [] ++ node.children := children_eq hfound
    have hbelow : ([] : List NodeId).length + below.length ≤ arena.size := by
      rw [List.length_nil, Nat.zero_add]
      exact Nat.le_of_succ_le hlength
    obtain ⟨lines, hlines, hbranches⟩ :=
      hinner.exists_lines hlinked options.outline .root hwhole hlineage hbelow
    have hroot : arena.line? options.outline root =
        some (options.outline.shown node.kind ++ "\n") := by
      rw [line?, hfound, Option.bind_some, if_pos rfl]
    refine ⟨root :: below, _ :: lines, horder, mapM_eq_some_iff.2 (.cons hroot hlines), ?_⟩
    rw [render?, hinner.tree?_eq hfound hlength, Option.bind_some, Format.renderTree, Tree.outline,
      String.join_cons, ← hbranches, OutlineOptions.nodeText_eq_shown]
    rfl

theorem render_treeOutline_littered :
    litteredArena.validate = .ok () ∧
      ∃ order lines, litteredArena.descendants? = some order ∧
        order.mapM (litteredArena.line? ⟨9, true⟩) = some lines ∧
        litteredArena.render? .treeOutline ⟨⟨9, true⟩, true⟩ = some (String.join lines) :=
  ⟨validate_litteredArena, render_treeOutline_eq_join validate_litteredArena ⟨⟨9, true⟩, true⟩⟩

example : litteredArena.line? ⟨9, true⟩ 7 = some "│   └─ ◦ IDENT y\n" := by decide +kernel

example : litteredArena.line? ⟨9, true⟩ 4 = some "  ├─ ≔ VAR uint ...\n" := by decide +kernel

end Arena

end Declang
