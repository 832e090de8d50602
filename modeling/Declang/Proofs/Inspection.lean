import Declang.Inspection
import Declang.Proofs.Parse.Canonical
namespace Declang

def Variable.checks (v : Variable) : List VariableCheck :=
  [.typeName v.typeName, .name v.name,
    match v.defaultValue with
    | none => .noDefault
    | some text => .defaultValue text]

def Returned.script : Returned → NodeScript
  | int value => .int value
  | uint value => .uint value
  | name text => .identifier text

def Statement.script : Statement → NodeScript
  | declaration v => .declaration v.checks
  | return_ none => .return_ (.noValue .done)
  | return_ (some returned) => .return_ (.value returned.script .done)

/-- Runs scripts on children one after another from `index` on. -/
def FunctionScript.children (index : Nat) : List NodeScript → FunctionScript
  | [] => .done
  | script :: scripts => .child index script (children (index + 1) scripts)

def ProgramCheck.children (index : Nat) : List NodeScript → List ProgramCheck
  | [] => []
  | script :: scripts => .child index script :: children (index + 1) scripts

def Function.script (f : Function) (body : List Statement) : FunctionScript :=
  .name f.name (.returnType f.returnType (.parameters f.parameters
    (.childCount body.length (.children 0 (body.map Statement.script)))))

def Item.script : Item → NodeScript
  | declaration v => .declaration v.checks
  | function f body => .function (f.script body)

/-- The checks of all that the declarations hold. -/
def programChecks (items : List Item) : List ProgramCheck :=
  .childCount items.length :: ProgramCheck.children 0 (items.map Item.script)

/-- The exhaustive checks of the program in an arena. -/
def Arena.checks? (arena : Arena) : Option (List ProgramCheck) :=
  arena.items?.map programChecks

namespace Inspection

variable {α : Type} {arena : Arena} {path : String} {id : NodeId} {visited : List NodeId}

/-- No check fails when `visited` are the nodes entered before. -/
def Passes (x : Inspection Unit) (visited : List NodeId) : Prop :=
  (x visited).1 = .ok ()

theorem passes_bind {x : Inspection α} {next : α → Inspection Unit} :
    Passes (x >>= next) visited ↔ ∃ a, (x visited).1 = .ok a ∧ Passes (next a) (x visited).2 := by
  rw [Passes]
  simp only [bind, ExceptT.bind, ExceptT.mk, StateT.bind]
  cases x visited with
  | mk outcome later =>
    cases outcome with
    | error stop => exact iff_of_false nofun nofun
    | ok a => simp [ExceptT.bindCont, Passes]

theorem passes_bind_ok {x : Inspection α} {a : α} {later : List NodeId}
    (h : x visited = (.ok a, later)) {next : α → Inspection Unit} :
    Passes (x >>= next) visited ↔ Passes (next a) later := by
  rw [passes_bind, h]
  simp

theorem not_passes_bind {x : Inspection α} {stop : Stop} {later : List NodeId}
    (h : x visited = (.error stop, later)) {next : α → Inspection Unit} :
    ¬Passes (x >>= next) visited := by
  rw [passes_bind, h]
  simp

theorem passes_require {complaint : Complaint} {condition : Prop} [Decidable condition]
    {next : Unit → Inspection Unit} :
    Passes (require path condition complaint >>= next) visited ↔
      condition ∧ Passes (next ()) visited := by
  rw [require]
  split
  · next h => rw [pure_bind, and_iff_right h]
  · next h => exact iff_of_false (not_passes_bind rfl) fun hpasses => h hpasses.1

theorem passes_pure : Passes (pure ()) visited :=
  rfl

theorem passes_require_last {complaint : Complaint} {condition : Prop} [Decidable condition] :
    Passes (require path condition complaint) visited ↔ condition := by
  rw [← bind_pure (require path condition complaint), passes_require, and_iff_left passes_pure]

theorem passes_nodeAt {node : Node} (h : arena.get? id = some node)
    {next : Node → Inspection Unit} :
    Passes (nodeAt arena id >>= next) visited ↔ Passes (next node) visited := by
  rw [nodeAt, h]
  exact passes_bind_ok rfl

theorem passes_select {expected : String} {kind : NodeKind} {part? : NodeKind → Option α}
    {next : α → Inspection Unit} :
    Passes (select path expected kind part? >>= next) visited ↔
      ∃ part, part? kind = some part ∧ Passes (next part) visited := by
  rw [select]
  cases part? kind with
  | none => exact iff_of_false (not_passes_bind rfl) (by simp)
  | some part => simp

theorem passes_checkChildCount {node : Node} (h : arena.get? id = some node) {expected : Nat}
    {next : Unit → Inspection Unit} :
    Passes (checkChildCount arena path id expected >>= next) visited ↔
      node.children.length = expected ∧ Passes (next ()) visited := by
  rw [checkChildCount, bind_assoc, passes_nodeAt h]
  by_cases hlength : node.children.length = expected
  · simp only [hlength, ne_eq, not_true_eq_false, if_false, pure_bind, true_and]
  · simp only [hlength, ne_eq, not_false_eq_true, if_true, false_and, iff_false, bind_assoc]
    intro hpasses
    obtain ⟨found, -, hfail⟩ := passes_bind.1 hpasses
    exact not_passes_bind rfl hfail

theorem modify_eq (f : List NodeId → List NodeId) (visited : List NodeId) :
    (modify f : Inspection PUnit) visited = (.ok ⟨⟩, f visited) :=
  rfl

theorem passes_enterChild {node below : Node} {child : NodeId} {index : Nat}
    (h : arena.get? id = some node) (hchild : node.children[index]? = some child)
    (hbelow : arena.get? child = some below) (hparent : below.parent = some id)
    {next : NodeId × String → Inspection Unit} :
    Passes (enterChild arena path id index >>= next) visited ↔
      Passes (next (child, path ++ "[" ++ toString index ++ "]")) (visited ++ [child]) := by
  rw [enterChild, bind_assoc, passes_nodeAt h]
  simp only [hchild, bind_assoc]
  rw [passes_nodeAt hbelow, passes_require, and_iff_right hparent, passes_bind_ok (modify_eq _ _),
    pure_bind]

theorem passes_checkVariable {v w : Variable} :
    Passes (checkVariable path w v.checks) visited ↔ w = v := by
  obtain ⟨typeName, name, default⟩ := v
  obtain ⟨typeName', name', default'⟩ := w
  cases default <;>
    simp [Variable.checks, checkVariable, passes_require, passes_require_last]

variable {parent : Option NodeId} {base : NodeId}

theorem passes_returned {r r' : Returned} (h : arena.HasTree parent base (.node r'.kind [])) :
    Passes (checkNode arena path base r.script) visited ↔ r' = r := by
  cases r with
  | int value =>
    rw [Returned.script, checkNode, passes_nodeAt h.get?, passes_select]
    cases r' <;> simp [Returned.kind, NodeKind.int?, passes_require_last]
  | uint value =>
    rw [Returned.script, checkNode, passes_nodeAt h.get?, passes_select]
    cases r' <;> simp [Returned.kind, NodeKind.uint?, passes_require_last]
  | name text =>
    rw [Returned.script, checkNode, passes_nodeAt h.get?, passes_select]
    cases r' <;> simp [Returned.kind, NodeKind.identifier?, passes_require_last]

theorem passes_declaration {v : Variable} {kind : NodeKind} {children : List Tree}
    (h : arena.HasTree parent base (.node kind children)) :
    Passes (checkNode arena path base (.declaration v.checks)) visited ↔
      kind = .declaration v := by
  rw [checkNode, passes_nodeAt h.get?, passes_select]
  cases kind <;> simp [NodeKind.declaration?, passes_checkVariable]

theorem passes_child {kind : NodeKind} {front later : List Tree} {tree : Tree}
    (h : arena.HasTree parent base (.node kind (front ++ tree :: later))) {script : NodeScript}
    {next : Inspection Unit} {P Q : Prop}
    (hscript : ∀ path visited,
      Passes (checkNode arena path (base + 1 + Tree.sizes front) script) visited ↔ P)
    (hnext : ∀ visited, Passes next visited ↔ Q) :
    Passes (enterChild arena path base front.length >>= fun (child, childPath) =>
      checkNode arena childPath child script >>= fun _ => next) visited ↔ P ∧ Q := by
  cases tree with
  | node below children =>
    rw [passes_enterChild h.get? (Tree.getElem?_starts _ _ _ _) h.child.get? rfl]
    simp only [passes_bind]
    constructor
    · rintro ⟨_, hpasses, hlater⟩
      exact ⟨(hscript _ _).1 hpasses, (hnext _).1 hlater⟩
    · rintro ⟨hpasses, hlater⟩
      exact ⟨(), (hscript _ _).2 hpasses, (hnext _).2 hlater⟩

theorem passes_return {returned returned' : Option Returned}
    (h : arena.HasTree parent base (Statement.return_ returned').tree) :
    Passes (checkNode arena path base (Statement.return_ returned).script) visited ↔
      returned' = returned := by
  cases returned with
  | none =>
    rw [Statement.script, checkNode, passes_nodeAt h.get?, passes_require, checkReturn,
      passes_checkChildCount h.get?, Tree.length_starts, checkReturn]
    cases returned' <;> simp [NodeKind.isReturn, passes_pure]
  | some r =>
    rw [Statement.script, checkNode, passes_nodeAt h.get?, passes_require, checkReturn,
      passes_checkChildCount h.get?, Tree.length_starts]
    cases returned' with
    | none => simp
    | some r' =>
      have hvalue : arena.HasTree parent base (.node .return_ ([] ++ [.node r'.kind []])) := h
      rw [Option.some_inj]
      refine (and_iff_right rfl).trans ((and_iff_right rfl).trans ?_)
      refine (passes_child hvalue (fun _ _ => passes_returned hvalue.child) fun _ => ?_).trans
        (and_iff_left trivial)
      exact iff_true_intro passes_pure

theorem passes_statement {s s' : Statement} (h : arena.HasTree parent base s'.tree) :
    Passes (checkNode arena path base s.script) visited ↔ s' = s := by
  cases s with
  | declaration v =>
    cases s' <;> rw [Statement.script, passes_declaration h] <;> simp
  | return_ returned =>
    cases s' with
    | declaration w =>
      cases returned <;> rw [Statement.script, checkNode, passes_nodeAt h.get?, passes_require] <;>
        simp [NodeKind.isReturn]
    | return_ returned' => rw [passes_return h, Statement.return_.injEq]

def checkChildren (arena : Arena) (path : String) (id : NodeId) :
    Nat → List NodeScript → Inspection Unit
  | _, [] => pure ()
  | index, script :: scripts => do
    let (child, childPath) ← enterChild arena path id index
    checkNode arena childPath child script
    checkChildren arena path id (index + 1) scripts

theorem checkFunction_children (f : Function) (index : Nat) (scripts : List NodeScript) :
    checkFunction arena path id f (.children index scripts) =
      checkChildren arena (path ++ ".children") id index scripts := by
  induction scripts generalizing index with
  | nil => rfl
  | cons script scripts ih =>
    simp only [FunctionScript.children, checkFunction, checkChildren, ih]

theorem checkProgram_children (index : Nat) (scripts : List NodeScript) :
    checkProgram arena (ProgramCheck.children index scripts) =
      checkChildren arena rootPath Arena.root index scripts := by
  induction scripts generalizing index with
  | nil => rfl
  | cons script scripts ih =>
    rw [ProgramCheck.children, checkProgram, checkChildren, ← ih]

section Children

-- Each `a` has a tree and a script, and the script passes on that tree alone.
variable {tree : α → Tree} {script : α → NodeScript} {as bs : List α} {kind : NodeKind}
    (hscript : ∀ a b base path visited, arena.HasTree (some id) base (tree b) →
      (Passes (checkNode arena path base (script a)) visited ↔ b = a))

include hscript

theorem passes_checkChildren (hlength : bs.length = as.length) (front : List Tree)
    (h : arena.HasTree parent id (.node kind (front ++ bs.map tree))) (visited : List NodeId) :
    Passes (checkChildren arena path id front.length (as.map script)) visited ↔ bs = as := by
  -- The children in `front` are those that the scripts before these have passed on.
  induction as generalizing bs front visited with
  | nil =>
    rw [List.eq_nil_of_length_eq_zero hlength]
    exact iff_of_true passes_pure rfl
  | cons a as ih =>
    cases bs with
    | nil => cases hlength
    | cons b bs =>
      rw [List.map_cons] at h
      have hlater (visited : List NodeId) := ih (Nat.succ.inj hlength) (front ++ [tree b])
        (by rwa [List.append_assoc]) visited
      rw [List.length_append] at hlater
      rw [List.map_cons, checkChildren, List.cons.injEq]
      exact passes_child h (fun path visited => hscript a b _ path visited h.child) hlater

theorem passes_children (h : arena.HasTree parent id (.node kind (bs.map tree))) :
    bs.length = as.length ∧ Passes (checkChildren arena path id 0 (as.map script)) visited ↔
      bs = as := by
  constructor
  · rintro ⟨hlength, hpasses⟩
    exact (passes_checkChildren hscript hlength [] h visited).1 hpasses
  · rintro rfl
    exact ⟨rfl, (passes_checkChildren hscript rfl [] h visited).2 rfl⟩

end Children

theorem passes_function {f g : Function} {body body' : List Statement}
    (h : arena.HasTree parent base (Item.function g body').tree) :
    Passes (checkFunction arena path base g (f.script body)) visited ↔ g = f ∧ body' = body := by
  simp only [Function.script, checkFunction, passes_require, passes_checkChildCount h.get?,
    Tree.length_starts, List.length_map, checkFunction_children]
  rw [passes_children (fun _ _ _ _ _ => passes_statement) h, Function.ext_iff, and_assoc, and_assoc,
    and_left_comm]

theorem passes_item {item item' : Item} (h : arena.HasTree parent base item'.tree) :
    Passes (checkNode arena path base item.script) visited ↔ item' = item := by
  cases item with
  | declaration v =>
    cases item' <;> rw [Item.script, passes_declaration h] <;> simp
  | function f body =>
    rw [Item.script, checkNode]
    cases item' with
    | declaration w =>
      rw [passes_nodeAt h.get?, passes_select]
      simp [NodeKind.function?]
    | function g body' =>
      rw [passes_nodeAt h.get?, passes_select]
      simp [NodeKind.function?, passes_function h]

end Inspection

open Inspection

/-- The exhaustive checks of a parsed program pass on that program and on no other one. -/
theorem inspect_checks_iff {tokens others : List Token} {arena other : Arena}
    (h : parse tokens = .ok arena) (hother : parse others = .ok other) :
    ∃ checks, arena.checks? = some checks ∧
      ((other.inspect checks).1 = .ok () ↔ other = arena) := by
  obtain ⟨items, -, rfl⟩ := parse_eq_ok_iff.1 h
  obtain ⟨items', -, rfl⟩ := parse_eq_ok_iff.1 hother
  have hprogram : (Arena.ofTree (.program items')).HasTree none Arena.root (.program items') :=
    Arena.hasTree_ofTree _
  refine ⟨programChecks items, by rw [Arena.checks?, Arena.items?_ofTree, Option.map_some], ?_⟩
  change Inspection.Passes (checkProgram _ (programChecks items)) [] ↔ _
  rw [programChecks, checkProgram, passes_checkChildCount hprogram.get?, Tree.length_starts,
    List.length_map, checkProgram_children, passes_children (fun _ _ _ _ _ => passes_item) hprogram]
  constructor
  · rintro rfl
    rfl
  · intro heq
    have htree := congrArg Arena.items? heq
    rw [Arena.items?_ofTree, Arena.items?_ofTree] at htree
    exact Option.some.inj htree

/-- The second program returns the same number as an unsigned one. -/
theorem inspect_checks_iff_samples :
    ∃ arena other, parse sampleTokens = .ok arena ∧
      parse (sampleTokens.set 16 ⟨.unsignedLiteral, "7u", 3, some (.uint 7), by decide⟩) =
        .ok other ∧
      ∃ checks, arena.checks? = some checks ∧
        ((other.inspect checks).1 = .ok () ↔ other = arena) := by
  have hother : parse (sampleTokens.set 16
      ⟨.unsignedLiteral, "7u", 3, some (.uint 7), by decide⟩) = .ok (.ofTree (.program
      [.function ⟨"int", "f", [⟨"byte", "a"⟩, ⟨"uint", "b"⟩]⟩
        [.declaration ⟨"int", "c", some "7u"⟩, .return_ (some (.uint 7))]])) :=
    parse_eq_ok_iff.2 ⟨_, by decide, rfl⟩
  exact ⟨_, _, parse_sampleTokens, hother, inspect_checks_iff parse_sampleTokens hother⟩

end Declang
