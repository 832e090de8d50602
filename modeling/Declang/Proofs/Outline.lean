import Declang.Proofs.Arena.MapKinds
import Declang.Proofs.Rendering
namespace Declang

theorem IsWord.newline_not_mem {text : String} (h : IsWord text) : '\n' ∉ text.toList := by
  intro hmem
  have hword := List.all_eq_true.1 h.2 _ hmem
  exact absurd hword (by decide)

theorem newline_not_mem_repr (n : Nat) : '\n' ∉ n.repr.toList := by
  intro hmem
  rw [Nat.toList_repr] at hmem
  have hdigit := Nat.isDigit_of_mem_toDigits (by decide) (by decide) hmem
  exact absurd hdigit (by decide)

theorem newline_not_mem_int (value : Int) : '\n' ∉ (toString value).toList := by
  cases value with
  | ofNat n => exact newline_not_mem_repr n
  | negSucc n =>
    have hlist : (toString (Int.negSucc n)).toList = '-' :: (n + 1).repr.toList :=
      String.toList_append
    rw [hlist, List.mem_cons, not_or]
    exact ⟨by decide, newline_not_mem_repr (n + 1)⟩

theorem Parameter.newline_not_mem_label {p : Parameter} (h : p.Worded) :
    '\n' ∉ p.label.toList := by
  simp [label, h.1.newline_not_mem, h.2.newline_not_mem]

theorem Function.newline_not_mem_parameterList {f : Function} (h : ∀ p ∈ f.parameters, p.Worded) :
    '\n' ∉ f.parameterList.toList := by
  rw [parameterList]
  cases hparameters : f.parameters with
  | nil => exact List.not_mem_nil
  | cons first later =>
    rw [hparameters] at h
    obtain ⟨hfirst, hlater⟩ := List.forall_mem_cons.1 h
    rw [toList_intercalate_label, List.mem_append, not_or]
    refine ⟨Parameter.newline_not_mem_label hfirst, fun hmem => ?_⟩
    obtain ⟨p, hp, hmem⟩ := List.mem_flatMap.1 hmem
    simp [Parameter.newline_not_mem_label (hlater p hp)] at hmem

namespace NodeKind

theorem newline_not_mem_label {kind : NodeKind} (h : kind.Worded) :
    '\n' ∉ kind.label.toList := by
  rw [toList_label, List.mem_append, not_or]
  refine ⟨kind.isWord_headword.newline_not_mem, ?_⟩
  cases kind with
  | program | return_ => exact List.not_mem_nil
  | function f =>
    simp [detail, h.2.1.newline_not_mem, Function.newline_not_mem_parameterList h.2.2]
  | declaration v =>
    have hdefault : '\n' ∉ (v.defaultValue.getD "<DEFAULT>").toList := by
      cases hvalue : v.defaultValue with
      | none => decide
      | some text => exact (h.2.2 text hvalue).newline_not_mem
    simp [detail, h.1.newline_not_mem, h.2.1.newline_not_mem, hdefault]
  | int value => exact List.not_mem_cons_of_ne_of_not_mem (by decide) (newline_not_mem_int _)
  | uint value => exact List.not_mem_cons_of_ne_of_not_mem (by decide) (newline_not_mem_repr _)
  | identifier name => simp [detail, IsWord.newline_not_mem h]

theorem toList_icon (kind : NodeKind) :
    kind.icon.toList.length = 1 ∧ '\n' ∉ kind.icon.toList := by
  have hicons : ∀ icon ∈ ["⧉", "ƒ", "≔", "↩", "#", "◦"],
      icon.toList.length = 1 ∧ '\n' ∉ icon.toList := by decide
  apply hicons
  cases kind <;> simp [icon]

@[simp]
theorem label_eraseReturnType (kind : NodeKind) : kind.eraseReturnType.label = kind.label := by
  cases kind <;> rfl

@[simp]
theorem icon_eraseReturnType (kind : NodeKind) : kind.eraseReturnType.icon = kind.icon := by
  cases kind <;> rfl

end NodeKind

theorem truncate_of_length_le {width : Nat} {text : String} (h : text.length ≤ width) :
    truncate width text = text := by
  rw [truncate, if_neg (Nat.not_lt.2 h)]

namespace OutlineOptions

variable {options : OutlineOptions} {kind other : NodeKind}

/-- The kind has a label that tells its payload and that is shown in full. -/
def Readable (options : OutlineOptions) (kind : NodeKind) : Prop :=
  kind.Worded ∧ kind.label.length ≤ options.maxLabelWidth

theorem newline_not_mem_nodeText (h : options.Readable kind) :
    '\n' ∉ (options.nodeText kind).toList := by
  rw [nodeText, truncate_of_length_le h.2]
  split
  · simp [kind.toList_icon.2, NodeKind.newline_not_mem_label h.1]
  · exact NodeKind.newline_not_mem_label h.1

theorem eraseReturnType_eq_of_nodeText_eq (h : options.Readable kind)
    (hother : options.Readable other) (heq : options.nodeText kind = options.nodeText other) :
    kind.eraseReturnType = other.eraseReturnType := by
  rw [nodeText, nodeText, truncate_of_length_le h.2, truncate_of_length_le hother.2] at heq
  apply NodeKind.label_inj h.1 hother.1
  split at heq
  · have hlist := congrArg String.toList heq
    rw [@String.toList_append (kind.icon ++ " "), @String.toList_append (other.icon ++ " ")]
      at hlist
    have hwidth : (kind.icon ++ " ").toList.length = (other.icon ++ " ").toList.length := by
      simp only [String.toList_append, List.length_append, NodeKind.toList_icon]
    exact String.toList_inj.1 (List.append_inj hlist hwidth).2
  · exact heq

@[simp]
theorem nodeText_eraseReturnType (options : OutlineOptions) (kind : NodeKind) :
    options.nodeText kind.eraseReturnType = options.nodeText kind := by
  simp [nodeText]

end OutlineOptions

/-- The text does not go on with a connector or a deeper margin to the right of `margin`. -/
def Outside (margin rest : List Char) : Prop :=
  ∀ c ∈ [' ', '│', '├', '└'], ¬margin ++ [c] <+: rest

theorem prefix_concat_inj {margin text : List Char} {c d : Char} (hc : margin ++ [c] <+: text)
    (hd : margin ++ [d] <+: text) : c = d := by
  have hlength : (margin ++ [c]).length = (margin ++ [d]).length := by simp
  have heq := (List.prefix_of_prefix_length_le hc hd hlength.le).eq_of_length hlength
  simpa using heq

theorem line_inj {line other rest more : List Char} (h : '\n' ∉ line) (hother : '\n' ∉ other)
    (heq : line ++ '\n' :: rest = other ++ '\n' :: more) : line = other ∧ rest = more := by
  have hrun {cs : List Char} (hcs : '\n' ∉ cs) : cs.all (· != '\n') = true := by
    rw [List.all_eq_true]
    intro c hc
    exact bne_iff_ne.2 (ne_of_mem_of_not_mem hc hcs)
  obtain ⟨hline, htail⟩ := run_inj (hrun h) rfl (hrun hother) rfl heq
  exact ⟨hline, (List.cons.inj htail).2⟩

namespace Tree

open OutlineOptions

variable {options : OutlineOptions}

/-- What a child adds to the margin of its own children. -/
def step (last : Bool) : List Char :=
  if last then [' ', ' '] else ['│', ' ']

def elbow (last : Bool) : Char :=
  if last then '└' else '├'

theorem elbow_mem (last : Bool) : elbow last ∈ [' ', '│', '├', '└'] := by
  cases last <;> decide

theorem elbow_inj {last other : Bool} (h : elbow last = elbow other) : last = other := by
  cases last <;> cases other <;> first | rfl | exact absurd h (by decide)

theorem bar_ne_elbow (last : Bool) : '│' ≠ elbow last := by
  cases last <;> decide

theorem toList_branch (margin : String) (last : Bool) (kind : NodeKind) (children : List Tree) :
    (branch options margin last (node kind children)).toList =
      margin.toList ++ elbow last :: '─' :: ' ' :: ((options.nodeText kind).toList
        ++ '\n' :: (branches options (margin ++ String.ofList (step last)) children).toList) := by
  cases last <;> simp [branch, elbow, step]

theorem toList_branches_cons (margin : String) (tree : Tree) (trees : List Tree) :
    (branches options margin (tree :: trees)).toList =
      (branch options margin trees.isEmpty tree).toList
        ++ (branches options margin trees).toList := by
  rw [branches, String.toList_append]

theorem elbow_prefix_branches (margin : String) (tree : Tree) (trees : List Tree)
    (rest : List Char) :
    margin.toList ++ [elbow trees.isEmpty] <+:
      (branches options margin (tree :: trees)).toList ++ rest := by
  cases tree with
  | node kind children =>
    rw [toList_branches_cons, toList_branch, List.append_assoc, List.append_assoc,
      List.prefix_append_right_inj]
    exact List.cons_prefix_cons.2 ⟨rfl, List.nil_prefix⟩

theorem outside_step {margin : String} {rest : List Char} (h : Outside margin.toList rest)
    (later : List Tree) :
    Outside (margin.toList ++ step later.isEmpty)
      ((branches options margin later).toList ++ rest) := by
  intro c _ hprefix
  cases later with
  | nil =>
    have hspace : margin.toList ++ [' '] <+: margin.toList ++ [' ', ' '] ++ [c] := by simp
    exact h ' ' List.mem_cons_self (hspace.trans hprefix)
  | cons tree trees =>
    have hbar : margin.toList ++ ['│'] <+: margin.toList ++ ['│', ' '] ++ [c] := by simp
    exact bar_ne_elbow _
      (prefix_concat_inj (hbar.trans hprefix) (elbow_prefix_branches margin tree trees rest))

mutual

/-- The lines of a tree tell its shape and its payloads, and where they end. -/
theorem branch_append_inj {margin : String} {last : Bool} {tree other : Tree}
    {rest more : List Char} (h : ∀ kind ∈ tree.kinds, options.Readable kind)
    (hother : ∀ kind ∈ other.kinds, options.Readable kind)
    (hrest : Outside (margin.toList ++ step last) rest)
    (hmore : Outside (margin.toList ++ step last) more)
    (heq : (branch options margin last tree).toList ++ rest =
      (branch options margin last other).toList ++ more) :
    tree.mapKinds NodeKind.eraseReturnType = other.mapKinds NodeKind.eraseReturnType ∧
      rest = more := by
  cases tree with
  | node kind children =>
    cases other with
    | node kind' children' =>
      obtain ⟨hkind, hchildren⟩ := List.forall_mem_cons.1 h
      obtain ⟨hkind', hchildren'⟩ := List.forall_mem_cons.1 hother
      simp only [toList_branch, List.append_assoc, List.cons_append, List.append_cancel_left_eq,
        List.cons.injEq, true_and] at heq
      -- Only a child of this node goes on at the deeper margin, so its lines end where both do.
      obtain ⟨hline, hbelow⟩ := line_inj (newline_not_mem_nodeText hkind)
        (newline_not_mem_nodeText hkind') heq
      have hmargin : (margin ++ String.ofList (step last)).toList = margin.toList ++ step last := by
        rw [String.toList_append, String.toList_ofList]
      rw [← hmargin] at hrest hmore
      obtain ⟨hmap, hend⟩ := branches_append_inj hchildren hchildren' hrest hmore hbelow
      rw [mapKinds, mapKinds, hmap, eraseReturnType_eq_of_nodeText_eq hkind hkind'
        (String.toList_inj.1 hline)]
      exact ⟨rfl, hend⟩

theorem branches_append_inj {margin : String} {trees others : List Tree} {rest more : List Char}
    (h : ∀ kind ∈ allKinds trees, options.Readable kind)
    (hothers : ∀ kind ∈ allKinds others, options.Readable kind)
    (hrest : Outside margin.toList rest) (hmore : Outside margin.toList more)
    (heq : (branches options margin trees).toList ++ rest =
      (branches options margin others).toList ++ more) :
    mapAllKinds NodeKind.eraseReturnType trees = mapAllKinds NodeKind.eraseReturnType others ∧
      rest = more := by
  cases trees with
  | nil =>
    cases others with
    | nil => exact ⟨rfl, heq⟩
    | cons other others =>
      obtain rfl : rest = _ := heq
      exact absurd (elbow_prefix_branches margin other others more) (hrest _ (elbow_mem _))
  | cons tree trees =>
    cases others with
    | nil =>
      obtain rfl : _ = more := heq
      exact absurd (elbow_prefix_branches margin tree trees rest) (hmore _ (elbow_mem _))
    | cons other others =>
      obtain ⟨htree, htrees⟩ := List.forall_mem_append.1 h
      obtain ⟨htree', htrees'⟩ := List.forall_mem_append.1 hothers
      -- The connector tells whether the first child is also the last one.
      have helbow := @elbow_prefix_branches options margin tree trees rest
      rw [heq] at helbow
      have hlast := elbow_inj
        (prefix_concat_inj helbow (elbow_prefix_branches margin other others more))
      have houtside := @outside_step options _ _ hmore others
      rw [toList_branches_cons, toList_branches_cons, List.append_assoc, List.append_assoc,
        ← hlast] at heq
      rw [← hlast] at houtside
      obtain ⟨hfirst, htail⟩ :=
        branch_append_inj htree htree' (outside_step hrest trees) houtside heq
      obtain ⟨hlater, hend⟩ := branches_append_inj htrees htrees' hrest hmore htail
      exact ⟨by rw [mapAllKinds, mapAllKinds, hfirst, hlater], hend⟩

end

theorem outline_inj {tree other : Tree} (h : ∀ kind ∈ tree.kinds, options.Readable kind)
    (hother : ∀ kind ∈ other.kinds, options.Readable kind)
    (heq : tree.outline options = other.outline options) :
    tree.mapKinds NodeKind.eraseReturnType = other.mapKinds NodeKind.eraseReturnType := by
  cases tree with
  | node kind children =>
    cases other with
    | node kind' children' =>
      obtain ⟨hkind, hchildren⟩ := List.forall_mem_cons.1 h
      obtain ⟨hkind', hchildren'⟩ := List.forall_mem_cons.1 hother
      have hlist := congrArg String.toList heq
      simp only [outline, String.toList_append, List.append_assoc] at hlist
      obtain ⟨hline, hbelow⟩ := line_inj (newline_not_mem_nodeText hkind)
        (newline_not_mem_nodeText hkind') hlist
      have houtside : Outside "".toList [] := by
        intro c _ hprefix
        exact absurd (List.prefix_nil.1 hprefix) (by simp)
      rw [← List.append_nil (branches options "" children).toList,
        ← List.append_nil (branches options "" children').toList] at hbelow
      rw [mapKinds, mapKinds, eraseReturnType_eq_of_nodeText_eq hkind hkind'
        (String.toList_inj.1 hline),
        (branches_append_inj hchildren hchildren' houtside houtside hbelow).1]

mutual

theorem branch_eraseReturnType (margin : String) (last : Bool) (tree : Tree) :
    branch options margin last (tree.mapKinds NodeKind.eraseReturnType) =
      branch options margin last tree := by
  cases tree with
  | node kind children =>
    rw [mapKinds, branch, branch, nodeText_eraseReturnType, branches_eraseReturnType]

theorem branches_eraseReturnType (margin : String) (trees : List Tree) :
    branches options margin (mapAllKinds NodeKind.eraseReturnType trees) =
      branches options margin trees := by
  cases trees with
  | nil => rfl
  | cons tree trees =>
    have hlast : (mapAllKinds NodeKind.eraseReturnType trees).isEmpty = trees.isEmpty := by
      cases trees <;> rfl
    rw [mapAllKinds, branches, branches, hlast, branch_eraseReturnType, branches_eraseReturnType]

end

theorem outline_eraseReturnType (tree : Tree) :
    (tree.mapKinds NodeKind.eraseReturnType).outline options = tree.outline options := by
  cases tree with
  | node kind children =>
    rw [mapKinds, outline, outline, nodeText_eraseReturnType, branches_eraseReturnType]

end Tree

namespace Arena

/-- The program without the return types of its functions. -/
def eraseReturnTypes (arena : Arena) : Arena :=
  arena.mapKinds NodeKind.eraseReturnType

theorem forall_mem_kinds {P : NodeKind → Prop} {tree : Tree}
    (h : ∀ node ∈ (ofTree tree).nodes, P node.kind) : ∀ kind ∈ tree.kinds, P kind := by
  rw [← Tree.map_kind_flatten none root, List.forall_mem_map]
  intro node hnode
  exact h node (List.mem_toArray.2 hnode)

end Arena

/-- An outline wide enough for all labels tells the program up to the return types of its
functions. -/
theorem render_treeOutline_eq_iff {source source' : String} {arena arena' : Arena}
    (h : process source = .ok arena) (h' : process source' = .ok arena') (options : FormatOptions)
    (hwidth : ∀ node ∈ arena.nodes, node.kind.label.length ≤ options.outline.maxLabelWidth)
    (hwidth' : ∀ node ∈ arena'.nodes, node.kind.label.length ≤ options.outline.maxLabelWidth) :
    ∃ text text', arena.render? .treeOutline options = some text ∧
      arena'.render? .treeOutline options = some text' ∧
      (text = text' ↔ arena.eraseReturnTypes = arena'.eraseReturnTypes) := by
  obtain ⟨items, rfl, hworded⟩ := exists_worded_of_process h
  obtain ⟨items', rfl, hworded'⟩ := exists_worded_of_process h'
  refine ⟨_, _, Arena.render?_ofTree .treeOutline options _,
    Arena.render?_ofTree .treeOutline options _, ?_⟩
  have hshown := Arena.forall_mem_kinds (P := (·.label.length ≤ _)) hwidth
  have hshown' := Arena.forall_mem_kinds (P := (·.label.length ≤ _)) hwidth'
  rw [Arena.eraseReturnTypes, Arena.eraseReturnTypes, Arena.mapKinds_ofTree,
    Arena.mapKinds_ofTree]
  constructor
  · intro heq
    exact congrArg Arena.ofTree (Tree.outline_inj
      (fun kind hkind => ⟨hworded kind hkind, hshown kind hkind⟩)
      (fun kind hkind => ⟨hworded' kind hkind, hshown' kind hkind⟩) heq)
  · intro heq
    rw [← Tree.outline_eraseReturnType, Arena.ofTree_inj heq, Tree.outline_eraseReturnType]

/-- The functions differ in their return types alone, and the outlines do not differ. -/
theorem render_treeOutline_eq_iff_samples :
    ∃ arena arena', process "int f(byte a) \x7b uint x; return 7; \x7d" = .ok arena ∧
      process "uint f(byte a) \x7b uint x; return 7; \x7d" = .ok arena' ∧
      (∀ node ∈ arena.nodes, node.kind.label.length ≤ 30) ∧
      (∀ node ∈ arena'.nodes, node.kind.label.length ≤ 30) ∧
      ∃ text text', arena.render? .treeOutline {} = some text ∧
        arena'.render? .treeOutline {} = some text' ∧
        (text = text' ↔ arena.eraseReturnTypes = arena'.eraseReturnTypes) := by
  have hprocess : process "int f(byte a) \x7b uint x; return 7; \x7d" =
      .ok (.ofTree (.program [.function ⟨"int", "f", [⟨"byte", "a"⟩]⟩
        [.declaration ⟨"uint", "x", none⟩, .return_ (some (.int 7))]])) := by decide +kernel
  have hprocess' : process "uint f(byte a) \x7b uint x; return 7; \x7d" =
      .ok (.ofTree (.program [.function ⟨"uint", "f", [⟨"byte", "a"⟩]⟩
        [.declaration ⟨"uint", "x", none⟩, .return_ (some (.int 7))]])) := by decide +kernel
  have hwidth : ∀ returnType ∈ ["int", "uint"], ∀ node ∈ (Arena.ofTree (.program
      [.function ⟨returnType, "f", [⟨"byte", "a"⟩]⟩
        [.declaration ⟨"uint", "x", none⟩, .return_ (some (.int 7))]])).nodes,
      node.kind.label.length ≤ 30 := by decide +kernel
  have hint := hwidth "int" (by simp)
  have huint := hwidth "uint" (by simp)
  exact ⟨_, _, hprocess, hprocess', hint, huint,
    render_treeOutline_eq_iff hprocess hprocess' {} hint huint⟩

end Declang
